import Mathlib.Data.List.DropRight
import Scaffold.Text.Blank

/-! What trimming leaves of a text. A text is what trimming leaves with what was dropped around it (`exists_ending`,
    `exists_margins`), and what is left is told by its ends: it begins and ends with characters that would not be
    dropped (`last_dropEndWhile`, `Bare`), and a text that does so is left as it is, whatever is put around it
    (`dropEndWhile_append`, `trim_margins`). -/

namespace Scaffold.Text

/-! ### The end of a text -/

section Ending
variable {p : Char → Bool}

theorem dropEndWhile_eq_rdropWhile (p : Char → Bool) : ∀ s : List Char, dropEndWhile p s = s.rdropWhile p
  | [] => rfl
  | c :: rest => by
    rw [dropEndWhile, dropEndWhile_eq_rdropWhile p rest, List.rdropWhile, List.rdropWhile, List.reverse_cons,
      List.dropWhile_append]
    cases hrest : rest.reverse.dropWhile p with
    | nil =>
      by_cases hc : p c = true <;> simp [hc]
    | cons d kept =>
      cases hkept : (d :: kept).reverse <;> simp_all

theorem exists_ending (p : Char → Bool) (s : List Char) :
    ∃ ending, s = dropEndWhile p s ++ ending ∧ ∀ c ∈ ending, p c = true := by
  rw [dropEndWhile_eq_rdropWhile]
  exact ⟨s.rtakeWhile p, (List.rdropWhile_append_rtakeWhile ..).symm, fun c => List.mem_rtakeWhile_imp⟩

theorem last_dropEndWhile {s : List Char} : ∀ c ∈ (dropEndWhile p s).getLast?, p c = false := by
  intro c hc
  rw [dropEndWhile_eq_rdropWhile] at hc
  obtain ⟨hne, rfl⟩ := List.mem_getLast?_eq_getLast hc
  simpa using List.rdropWhile_last_not p s hne

theorem dropEndWhile_of_last {s : List Char} (h : ∀ c ∈ s.getLast?, p c = false) : dropEndWhile p s = s := by
  rw [dropEndWhile_eq_rdropWhile, List.rdropWhile_eq_self_iff]
  intro hne
  simpa using h _ (List.getLast_mem_getLast? hne)

theorem dropEndWhile_append {s ending : List Char} (hs : ∀ c ∈ s.getLast?, p c = false)
    (hending : ∀ c ∈ ending, p c = true) : dropEndWhile p (s ++ ending) = s := by
  have hdropped : (s ++ ending).reverse.dropWhile p = s.reverse.dropWhile p := by
    rw [List.reverse_append, List.dropWhile_append_of_pos]
    simpa using hending
  rw [dropEndWhile_eq_rdropWhile, List.rdropWhile, hdropped, ← List.rdropWhile, ← dropEndWhile_eq_rdropWhile,
    dropEndWhile_of_last hs]

theorem dropEndWhile_eq_nil_iff {s : List Char} : dropEndWhile p s = [] ↔ ∀ c ∈ s, p c = true := by
  rw [dropEndWhile_eq_rdropWhile, List.rdropWhile_eq_nil_iff]

end Ending

/-! ### Both ends -/

/-- No blanks at the ends. -/
structure Bare (s : List Char) : Prop where
  first : ∀ c ∈ s.head?, isBlank c = false
  last : ∀ c ∈ s.getLast?, isBlank c = false

section Ends
variable {s before after : List Char}

theorem bare_trim (s : List Char) : Bare (trim s) := by
  refine ⟨fun c hc => ?_, last_dropEndWhile⟩
  -- the first character of what is left is the first one behind the blanks in front
  obtain ⟨ending, hending, -⟩ := exists_ending isBlank (trimStart s)
  obtain ⟨rest, hrest⟩ := List.head?_eq_some_iff.mp hc
  have hdropped : s.dropWhile isBlank = c :: (rest ++ ending) := by
    rw [← trimStart, hending, ← trimEnd, ← trim, hrest, List.cons_append]
  have hfirst := List.head?_dropWhile_not isBlank s
  rwa [hdropped] at hfirst

theorem exists_margins (s : List Char) : ∃ before after, s = before ++ trim s ++ after ∧
    (∀ c ∈ before, isBlank c = true) ∧ ∀ c ∈ after, isBlank c = true := by
  obtain ⟨after, hafter, hblank⟩ := exists_ending isBlank (trimStart s)
  refine ⟨s.takeWhile isBlank, after, ?_, fun c hc => List.mem_takeWhile_imp hc, hblank⟩
  rw [List.append_assoc, trim, trimEnd, ← hafter, trimStart, List.takeWhile_append_dropWhile]

theorem trim_margins (hs : Bare s) (hne : s ≠ []) (hbefore : ∀ c ∈ before, isBlank c = true)
    (hafter : ∀ c ∈ after, isBlank c = true) : trim (before ++ s ++ after) = s := by
  obtain ⟨c, rest, rfl⟩ := List.exists_cons_of_ne_nil hne
  have hstart : trimStart (before ++ (c :: rest) ++ after) = (c :: rest) ++ after := by
    rw [trimStart, List.append_assoc, List.dropWhile_append_of_pos hbefore, List.cons_append, List.dropWhile_cons_of_neg]
    simp [hs.first c rfl]
  rw [trim, hstart, trimEnd, dropEndWhile_append hs.last hafter]

theorem trim_of_blank (h : ∀ c ∈ s, isBlank c = true) : trim s = [] := by
  rw [trim, trimStart, List.dropWhile_eq_nil_iff.mpr h]
  rfl

end Ends

end Scaffold.Text
