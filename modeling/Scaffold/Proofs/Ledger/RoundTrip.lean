import Scaffold.Ledger.Basic
import Scaffold.Proofs.Json.RoundTrip
import Scaffold.Proofs.Time.RoundTrip

/-! The text of a ledger is read back as the ledger (`parse?_toText`), so a run begins with the ledger that the run
    before it recorded. -/

namespace Scaffold

namespace Ledger

theorem ofTexts_toJson (l : Ledger) : l.toJson.OfTexts := by
  refine .obj fun f hf => ?_
  rcases List.mem_cons.mp hf with rfl | hf
  · exact .str _
  · obtain rfl := List.mem_singleton.mp hf
    exact .obj (List.forall_mem_map.mpr fun e _ => .str e.2)

theorem digestsOf?_obj (k : Keyed String) :
    digestsOf? (.obj (k.entries.map fun e => (e.1, .str e.2))) = some k := by
  have hread : ∀ entries : List (String × String), (entries.map fun e => (e.1, Json.str e.2)).mapM
      (fun field => field.2.str?.map (field.1, ·)) = some entries := fun entries => by
    induction entries with
    | nil => rfl
    | cons e entries ih =>
      rw [List.map_cons, List.mapM_cons, ih]
      rfl
  simp only [digestsOf?, hread, Option.pure_def, Option.bind_eq_bind, Option.bind_some, Keyed.ofList_entries]

theorem ofJson?_toJson (l : Ledger) : ofJson? l.toJson = some l := by
  have htime : onlyField? [("generated_at", .str l.generatedAt.toText),
      ("files", .obj (l.digests.entries.map fun e => (e.1, .str e.2)))] "generated_at" =
        some (.str l.generatedAt.toText) := rfl
  have hdigests : onlyField? [("generated_at", .str l.generatedAt.toText),
      ("files", .obj (l.digests.entries.map fun e => (e.1, .str e.2)))] "files" =
        some (.obj (l.digests.entries.map fun e => (e.1, .str e.2))) := rfl
  rw [toJson, ofJson?, htime, hdigests]
  simp only [Option.bind_eq_bind, Option.bind_some, ofParts?, Json.str?, Instant.parse?_toText, digestsOf?_obj,
    Option.pure_def]

theorem parse?_toText (l : Ledger) : parse? l.toText = some l := by
  rw [parse?, toText, (ofTexts_toJson l).parse?_pretty, Option.bind_some, ofJson?_toJson]

end Ledger

end Scaffold
