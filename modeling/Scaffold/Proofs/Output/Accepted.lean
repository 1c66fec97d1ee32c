import Scaffold.Proofs.Output.Confined
import Scaffold.Proofs.Output.Target

/-! Which paths are accepted (`location_exact`). A path is cut at its slashes into segments. An empty segment means
    nothing, and `.` means nothing either but at the start, where it is refused like `..` anywhere. So accepted paths
    lead to one place exactly if they have the same names in them, whatever slashes and inner `.` stand between these. -/

namespace Scaffold.Output
open Disk Scaffold.Path Text

/-! ### Segments -/

/-- What stands between the slashes of a path. -/
def segments (rel : String) : List (List Char) := splitOn '/' rel.toList

/-- A path that is not meant relative to a root, or climbs. -/
inductive Stray (rel : String) : Prop
  | empty : rel = "" → Stray rel
  | absolute : IsAbsolute rel → Stray rel
  | up : ['.', '.'] ∈ segments rel → Stray rel
  | here : (segments rel).head? = some ['.'] → Stray rel

section
variable {rel other : String}

theorem isPlain_iff : IsPlain rel ↔ ¬Stray rel := by
  obtain ⟨first, others, hcut⟩ := List.exists_cons_of_ne_nil (splitOn_ne_nil '/' rel.toList)
  constructor
  · intro h hstray
    obtain ⟨⟨hup, hhere⟩, hothers⟩ := (allNames_components_iff h.relative hcut).mp h.2
    cases hstray with
    | empty hempty => exact h.1 hempty
    | absolute habsolute => exact h.relative habsolute
    | up hmem =>
      rw [segments, hcut] at hmem
      rcases List.mem_cons.mp hmem with heq | hmem
      · exact hup heq.symm
      · exact hothers hmem
    | here hfirst =>
      rw [segments, hcut] at hfirst
      exact hhere (Option.some.inj hfirst)
  · intro h
    have hrelative : ¬IsAbsolute rel := fun habsolute => h (.absolute habsolute)
    refine ⟨fun hempty => h (.empty hempty), (allNames_components_iff hrelative hcut).mpr ⟨⟨?_, ?_⟩, ?_⟩⟩
    · rintro rfl
      exact h (.up (by simp [segments, hcut]))
    · rintro rfl
      exact h (.here (by simp [segments, hcut]))
    · exact fun hmem => h (.up (by simp [segments, hcut, hmem]))

theorem location_eq_error {root : String} : location root rel = .error (.unsafePath rel) ↔ Stray rel := by
  constructor
  · intro herror
    refine Classical.byContradiction fun hstray => ?_
    rw [location_eq_ok.mpr ⟨isPlain_iff.mpr hstray, rfl⟩] at herror
    cases herror
  · intro hstray
    have hplain : ¬IsPlain rel := fun hplain => isPlain_iff.mp hplain hstray
    rw [IsPlain, ← String.isEmpty_eq_false_iff, ← Bool.not_eq_true', ← Bool.and_eq_true] at hplain
    exact if_neg hplain

/-! ### Places -/

theorem locate_join (h : IsPlain rel) (root : String) (d : Disk) :
    d.locate (Path.join root rel) = placeAt (d.locate root) (namesIn (parts rel.toList)) := by
  have hup : ['.', '.'] ∉ parts rel.toList := (notUp_of_allNames h.2).2
  rw [locate, parts_join h.relative, start_of_isAbsolute_iff (isAbsolute_join h.relative), walk_append,
    walk_eq_placeAt (fun _ hp => ne_nil_of_mem_parts hp) hup]
  rfl

theorem locate_join_eq_iff (h : IsPlain rel) (hother : IsPlain other) (root : String) (d : Disk) :
    d.locate (Path.join root rel) = d.locate (Path.join root other) ↔
      namesIn (parts rel.toList) = namesIn (parts other.toList) := by
  rw [locate_join h, locate_join hother]
  exact ⟨placeAt_injective, fun heq => by rw [heq]⟩

end

/-- A path is refused exactly if it is empty or absolute, has a segment `..`, or begins with the segment `.`. All others
    are seen from the root, and two of them lead to one place exactly if the same names stand in them. -/
theorem location_exact (root rel : String) :
    (location root rel = .error (.unsafePath rel) ↔ Stray rel) ∧
    (¬Stray rel → location root rel = .ok (Path.join root rel) ∧
      ∀ other, ¬Stray other → ∀ d : Disk, d.locate (Path.join root rel) = d.locate (Path.join root other) ↔
        namesIn (parts rel.toList) = namesIn (parts other.toList)) := by
  refine ⟨location_eq_error, fun h => ?_⟩
  have hplain : IsPlain rel := isPlain_iff.mpr h
  exact ⟨location_eq_ok.mpr ⟨hplain, rfl⟩, fun other hother =>
    locate_join_eq_iff hplain (isPlain_iff.mpr hother) root⟩

/-- An inner `.` is accepted, and leads where the path without it does. -/
theorem location_exact_dotted : ¬Stray "pkg/./main.go" ∧ ¬Stray "pkg/main.go" ∧ ['.'] ∈ segments "pkg/./main.go" ∧
    location "r" "pkg/./main.go" = .ok "r/pkg/./main.go" ∧
    ∀ d : Disk, d.locate "r/pkg/./main.go" = d.locate "r/pkg/main.go" := by
  have hdotted : ¬Stray "pkg/./main.go" := isPlain_iff.mp ⟨by decide, by decide⟩
  have hstraight : ¬Stray "pkg/main.go" := isPlain_iff.mp ⟨by decide, by decide⟩
  obtain ⟨hlocation, hplaces⟩ := (location_exact "r" "pkg/./main.go").2 hdotted
  exact ⟨hdotted, hstraight, by decide, hlocation, fun d => (hplaces "pkg/main.go" hstraight d).mpr (by decide)⟩

end Scaffold.Output
