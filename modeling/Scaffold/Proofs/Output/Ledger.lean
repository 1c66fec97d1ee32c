import Scaffold.Proofs.Output.Traced

/-! The ledger of a root from one write to the next (`ledger_evolves`). A write that succeeds records the digest of each
    file that it wrote or found unchanged under the relative path of the file, and keeps what was recorded under every
    other path, that of a file which it skipped among them. What it recorded is what is loaded afterwards, whatever the
    paths are made of. A write that is dry or fails leaves the ledger as it is, time and all. -/

namespace Scaffold.Output
open Disk Scaffold.Path

/-! ### Runs -/

section Run
variable {d d' : Disk} {ts : List Target} {ledger ledger' : Ledger} {ws : List String} {os : List (Outcome × String)}

theorem Run.paths {dryRun : Bool} (h : Run dryRun ts ledger d ws os ledger' d') :
    List.Forall₂ (fun t o => o.2 = t.path) ts os := by
  induction h with
  | nil => exact .nil
  | cons _ _ ih => exact .cons rfl ih

theorem Run.digest?_of_skipped (h : Run false ts ledger d ws os ledger' d') {path : String}
    (hskipped : ∀ x ∈ ts.zip os, x.1.rel = path → x.2.1 = .skipped) : ledger'.digest? path = ledger.digest? path := by
  induction h with
  | nil => rfl
  | @cons t ts l₀ l₁ l₂ d₀ d₁ d₂ ws ws' o os first _ ih =>
    obtain ⟨hhead, htail⟩ := List.forall_mem_cons.mp hskipped
    have hstep := stepCase_of_run first
    rw [ih htail]
    by_cases hpath : t.rel = path
    · obtain rfl : o = .skipped := hhead hpath
      rw [hstep.ledger_of_skipped]
    · exact hstep.digest?_of_ne (Ne.symm hpath)

end Run

/-! ### Writes -/

theorem loadLedger_of_missing {root : String} {d : Disk} (h : ¬∃ r, d.find (ledgerPath root) = .ok r) (now : Instant) :
    (loadLedger root now : StateM Disk (Except Failure Ledger)) d = (.ok (.empty now), d) := by
  obtain ⟨b, hthere, hb⟩ := isThere_run (ledgerPath root) d
  obtain rfl : b = false := by simpa using mt hb.mp h
  unfold loadLedger
  simp only [bind_run, hthere, Bool.not_false, ↓reduceIte, pure_run]

/-- The digests `after` a write that succeeded are those `before` it, but for the files that it did not skip. -/
structure Evolves (before after : Ledger) (root moduleRoot : String) (files : List GeneratedFile)
    (results : List (Outcome × String)) : Prop where
  paths : List.Forall₂ (fun file result => result.2 = pathFor root moduleRoot file) files results
  recorded : ∀ x ∈ files.zip results, x.2.1 ≠ .skipped →
    after.digest? (x.1.relativePath moduleRoot) = some (Sha256.ofText (uniform x.1.content))
  kept : ∀ path, (∀ x ∈ files.zip results, x.1.relativePath moduleRoot = path → x.2.1 = .skipped) →
    after.digest? path = before.digest? path

section Write
variable {p : Project} {files : List GeneratedFile} {root moduleRoot : String} {now : Instant} {d d' : Disk}
  {ws : List String} {results : List (Outcome × String)}

/-- What a write that succeeded saved is loaded, and has evolved from what was loaded before. -/
theorem exists_evolves (hloaded : p.Loaded) (hfiles : p.Generates files)
    (hrun : (write files root moduleRoot false now : StateM Disk _) d = (⟨ws, .ok results⟩, d')) :
    ∃ before after, (loadLedger root now : StateM Disk (Except Failure Ledger)) d = (.ok before, d) ∧
      (∀ later, (loadLedger root later : StateM Disk (Except Failure Ledger)) d' = (.ok after, d')) ∧
      after.generatedAt = now ∧ Evolves before after root moduleRoot files results := by
  cases writeCase_of_run hrun with
  | previewed _ _ _ hdry => cases hdry
  | @saved before after ts _ _ _ _ hload htargets hwrites _ hsave =>
    have hsep := separate_of_generates hloaded hfiles htargets d
    obtain ⟨rfl, hunder⟩ := mapM_target_eq_ok htargets
    refine ⟨before, _, hload, hsave.loadLedger, rfl, List.forall₂_map_left_iff.mp hwrites.paths, fun x hx hkept => ?_,
      fun path hpath => hwrites.digest?_of_skipped fun x hx => ?_⟩
    · have hmem : (targetOf root moduleRoot x.1, x.2) ∈ (files.map (targetOf root moduleRoot)).zip results :=
        mem_zip_targets hx
      -- no other file has its relative path, so the digest is not recorded over
      exact hwrites.recorded hmem hkept fun u hu hrel => by
        rw [hsep.eq_of_rel hunder hu (List.of_mem_zip hmem).1 hrel]
    · rw [List.zip_map_left, List.mem_map] at hx
      obtain ⟨y, hy, rfl⟩ := hx
      exact hpath y hy

end Write

/-- **The ledger evolves exactly**: after a write of the generated files of a loaded project that succeeded the ledger
    can be loaded, has the time of the write, and differs from what was loaded before, which is empty if there was none,
    in the digests of the files that were not skipped, which are those of the texts they were generated with. A write
    that is dry or fails leaves the ledger's file as it is. -/
theorem ledger_evolves {bytes : ByteArray} {resolved : Except RootError String} {p : Project} {files : List GeneratedFile}
    {root moduleRoot : String} {dryRun : Bool} {now : Instant} {d d' : Disk} {log : Logged (List (Outcome × String))}
    (hload : Project.load bytes resolved = .ok p) (hfiles : p.Generates files)
    (hrun : (write files root moduleRoot dryRun now : StateM Disk _) d = (log, d')) :
    (∀ results, dryRun = false → log.result = .ok results → ∃ before after,
      (loadLedger root now : StateM Disk (Except Failure Ledger)) d = (.ok before, d) ∧
      ((¬∃ r, d.find (ledgerPath root) = .ok r) → before = .empty now) ∧
      (∀ later, (loadLedger root later : StateM Disk (Except Failure Ledger)) d' = (.ok after, d')) ∧
      after.generatedAt = now ∧ Evolves before after root moduleRoot files results) ∧
    ((dryRun = true ∨ ∃ e, log.result = .error e) →
      d'.file? (d.locate (ledgerPath root)) = d.file? (d.locate (ledgerPath root))) := by
  have hloaded := Project.loaded_of_load hload
  obtain ⟨ws, result⟩ := log
  constructor
  · rintro results rfl rfl
    obtain ⟨before, after, hbefore, hafter, hnow, hevolves⟩ := exists_evolves hloaded hfiles hrun
    refine ⟨before, after, hbefore, fun hmissing => ?_, hafter, hnow, hevolves⟩
    rw [loadLedger_of_missing hmissing now] at hbefore
    exact (Except.ok.inj (Prod.mk.inj hbefore).1).symm
  · intro hspared
    cases dryRun with
    | true => rw [(writeCase_of_run hrun).dry]
    | false =>
      obtain ⟨e, rfl⟩ := hspared.resolve_left Bool.false_ne_true
      obtain ⟨_, _, -, hcut⟩ := write_cutOff hloaded hfiles hrun
      exact hcut.ledger

/-- A disk with an own configuration, whose ledger has a digest for it and one for a file that is no longer planned. -/
def recordedDisk : Disk :=
  let ledger : Ledger := ⟨.epoch, (Keyed.single "pkg/config/config.go" "c").insert "a\n\"b\"" "d"⟩
  diskOf [("pkg/config/config.go", "mine", false), (".pilot/hashes.json", ledger.toText, false)]

/-- On this disk the digest of a file that is written is recorded, and those of the own configuration, which is skipped,
    and of the file that is not planned are kept. -/
theorem ledger_evolves_sample : ∃ ws results d' after,
    (write (Project.sampleFiles "x") "" "m" false .epoch : StateM Disk _) recordedDisk = (⟨ws, .ok results⟩, d') ∧
    (∀ later, (loadLedger "" later : StateM Disk (Except Failure Ledger)) d' = (.ok after, d')) ∧
    after.digest? "main.go" = some (Sha256.ofText "x") ∧ after.digest? "pkg/config/config.go" = some "c" ∧
    after.digest? "a\n\"b\"" = some "d" := by
  have hresults :
      ((write (Project.sampleFiles "x") "" "m" false .epoch : StateM Disk _) recordedDisk).1.result.toOption.bind some =
        some ((Project.sampleFiles "x").map fun file =>
          (if file.relativePath "m" = "pkg/config/config.go" then .skipped else .written, file.relativePath "m")) := by
    decide +kernel
  obtain ⟨ws, results, d', hrun, heq⟩ := exists_of_ok hresults
  cases heq
  obtain ⟨before, after, hbefore, -, hafter, -, hevolves⟩ := (ledger_evolves Project.load_sample
    (Project.generates_sampleFiles "x" (by simp)) hrun).1 _ rfl rfl
  have hrecorded : before.digest? "pkg/config/config.go" = some "c" ∧ before.digest? "a\n\"b\"" = some "d" := by
    have hloaded : (fun r : Except Failure Ledger × Disk => r.1.toOption.map fun ledger =>
        (ledger.digest? "pkg/config/config.go", ledger.digest? "a\n\"b\""))
        ((loadLedger "" .epoch : StateM Disk (Except Failure Ledger)) recordedDisk) = some (some "c", some "d") := by
      decide +kernel
    rw [hbefore] at hloaded
    exact Prod.mk.inj (Option.some.inj hloaded)
  refine ⟨ws, _, d', after, hrun, hafter, ?_, ?_, ?_⟩
  · exact hevolves.recorded (⟨⟨"m/main.go", "code/main.go.tera", false, false, .project⟩, "x"⟩, .written, "main.go")
      (List.mem_cons_self ..) (by decide)
  · exact (hevolves.kept _ (by decide +kernel)).trans hrecorded.1
  · exact (hevolves.kept _ (by decide +kernel)).trans hrecorded.2

end Scaffold.Output
