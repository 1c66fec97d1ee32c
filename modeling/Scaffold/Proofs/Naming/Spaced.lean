import Scaffold.Naming.Words

/-! Where the words of a text stand in it. A text is its words one after another with separators between and around
    them (`spaced_wordsOf`), so the last word ends the text but for separators (`Spaced.exists_last`). Separators at the
    end of a text change none of its words (`wordsOf_append_separators`): what follows a character decides on a cut only
    if it is a small letter. -/

namespace Scaffold

/-! ### Tables of characters -/

namespace Text

/-- Every code point of `r` is one of `a`. -/
def CodeRun.covers (a r : CodeRun) : Bool :=
  a.first ≤ r.first && r.last ≤ a.last && (r.first - a.first) % a.step == 0 &&
    (r.step % a.step == 0 || r.first == r.last)

/-- Every run of the second table is covered by one of the first, where both are in order. -/
def allCovered (as : List CodeRun) : List CodeRun → Bool
  | [] => true
  | r :: rs =>
    let left := as.dropWhile (decide <| ·.last < r.first)
    left.head?.any (·.covers r) && allCovered left rs

theorem CodeRun.contains_of_covers {a r : CodeRun} {n : Nat} (h : a.covers r = true) (hn : r.contains n = true) :
    a.contains n = true := by
  simp only [CodeRun.covers, CodeRun.contains, Bool.and_eq_true, Bool.or_eq_true, decide_eq_true_eq, beq_iff_eq] at h hn ⊢
  obtain ⟨⟨⟨hfirst, hlast⟩, hstart⟩, hstep⟩ := h
  obtain ⟨⟨hlow, hhigh⟩, hmod⟩ := hn
  have hinner : a.step ∣ n - r.first := by
    rcases hstep with hstep | hsingle
    · exact Nat.dvd_trans (Nat.dvd_of_mod_eq_zero hstep) (Nat.dvd_of_mod_eq_zero hmod)
    · have hzero : n - r.first = 0 := by omega
      exact hzero ▸ Nat.dvd_zero _
  have hsum : n - a.first = (r.first - a.first) + (n - r.first) := by omega
  exact ⟨⟨Nat.le_trans hfirst hlow, Nat.le_trans hhigh hlast⟩,
    Nat.mod_eq_zero_of_dvd (hsum ▸ Nat.dvd_add (Nat.dvd_of_mod_eq_zero hstart) hinner)⟩

theorem inRuns_of_allCovered {n : Nat} : ∀ {rs as : List CodeRun}, allCovered as rs = true → inRuns rs n = true →
    inRuns as n = true
  | r :: rs, as, h, hn => by
    rw [allCovered, Bool.and_eq_true] at h
    obtain ⟨hfirst, hrest⟩ := h
    have hleft {a : CodeRun} : a ∈ as.dropWhile (decide <| ·.last < r.first) → a ∈ as := fun ha =>
      (List.dropWhile_suffix _).subset ha
    rw [inRuns, List.any_cons, Bool.or_eq_true] at hn
    rcases hn with hn | hn
    · obtain ⟨a, ha, hcovers⟩ := (Option.any_eq_true ..).mp hfirst
      exact List.any_eq_true.mpr ⟨a, hleft (List.mem_of_head? ha), CodeRun.contains_of_covers hcovers hn⟩
    · obtain ⟨a, ha, hcontains⟩ := List.any_eq_true.mp (inRuns_of_allCovered hrest hn)
      exact List.any_eq_true.mpr ⟨a, hleft ha, hcontains⟩

theorem isAlphanumeric_of_isLower {c : Char} (h : isLower c = true) : isAlphanumeric c = true := by
  have htable : allCovered alphanumericRuns lowerRuns = true := by decide +kernel
  unfold isLower at h
  unfold isAlphanumeric
  split at h
  · next hascii =>
    have hkinds : c.isAlphanum = (c.isUpper || c.isLower || c.isDigit) := rfl
    rw [if_pos hascii, hkinds, h, Bool.or_true, Bool.true_or]
  · next hascii =>
    rw [if_neg hascii]
    exact inRuns_of_allCovered htable h

end Text

namespace Naming
open Text

/-! ### Words and separators -/

/-- The text is these words in order, with separators between and around them. -/
inductive Spaced : List Char → List (List Char) → Prop
  | nil : Spaced [] []
  | separator {c : Char} {s : List Char} {words : List (List Char)} (hc : isAlphanumeric c = false)
      (h : Spaced s words) : Spaced (c :: s) words
  | word {w s : List Char} {words : List (List Char)} (hne : w ≠ []) (hw : ∀ c ∈ w, isAlphanumeric c = true)
      (h : Spaced s words) : Spaced (w ++ s) (w :: words)

section
variable {c d : Char} {s : List Char} {words : List (List Char)}

/-- A text that does not begin with a separator begins with its first word. -/
theorem Spaced.exists_first (h : Spaced s words) (hs : s.head? = some d) (hd : isAlphanumeric d = true) :
    ∃ first others rest, words = first :: others ∧ s = first ++ rest ∧ first ≠ [] ∧
      (∀ c ∈ first, isAlphanumeric c = true) ∧ Spaced rest others := by
  cases h with
  | nil => cases hs
  | separator hc h =>
    cases hs
    rw [hc] at hd
    cases hd
  | word hne hw h => exact ⟨_, _, _, rfl, rfl, hne, hw, h⟩

theorem Spaced.cons_word (hc : isAlphanumeric c = true) (h : Spaced s words) : Spaced (c :: s) ([c] :: words) :=
  .word (List.cons_ne_nil _ _) (List.forall_mem_singleton.mpr hc) h

theorem spaced_wordsOf : ∀ s : List Char, Spaced s (wordsOf s)
  | [] => .nil
  | c :: rest => by
    have ih := spaced_wordsOf rest
    unfold wordsOf
    split
    · next hc =>
      split
      · next hjoins =>
        cases rest with
        | nil => cases hjoins
        | cons d rest =>
          -- the word that `c` joins stands right behind it
          have hd : isAlphanumeric d = true := by
            rw [joinsNext, Bool.and_eq_true] at hjoins
            exact hjoins.1
          obtain ⟨first, others, after, hwords, hafter, -, hfirst, hspaced⟩ := ih.exists_first rfl hd
          rw [hwords, hafter]
          exact .word (List.cons_ne_nil _ _) (List.forall_mem_cons.mpr ⟨hc, hfirst⟩) hspaced
      · exact ih.cons_word hc
    · next hc => exact .separator (Bool.eq_false_iff.mpr hc) ih

theorem Spaced.flatten (h : Spaced s words) : words.flatten = s.filter isAlphanumeric := by
  induction h with
  | nil => rfl
  | separator hc _ ih => rw [List.filter_cons, hc, if_neg Bool.false_ne_true, ih]
  | word _ hw _ ih => rw [List.flatten_cons, List.filter_append, List.filter_eq_self.mpr hw, ih]

theorem Spaced.ne_nil (h : Spaced s words) : ∀ word ∈ words, word ≠ [] := by
  induction h with
  | nil => exact List.forall_mem_nil _
  | separator _ _ ih => exact ih
  | word hne _ _ ih => exact List.forall_mem_cons.mpr ⟨hne, ih⟩

theorem Spaced.of_nil (h : Spaced s []) : ∀ c ∈ s, isAlphanumeric c = false := by
  generalize hwords : ([] : List (List Char)) = words at h
  induction h with
  | nil => exact List.forall_mem_nil _
  | separator hc _ ih => exact List.forall_mem_cons.mpr ⟨hc, ih hwords⟩
  | word => cases hwords

theorem Spaced.exists_last {last : List Char} (h : Spaced s words) (hlast : words.getLast? = some last) :
    ∃ front separators, s = front ++ last ++ separators ∧ last ≠ [] ∧ (∀ c ∈ last, isAlphanumeric c = true) ∧
      ∀ c ∈ separators, isAlphanumeric c = false := by
  induction h with
  | nil => cases hlast
  | @separator c _ _ _ _ ih =>
    obtain ⟨front, separators, rfl, hrest⟩ := ih hlast
    exact ⟨c :: front, separators, rfl, hrest⟩
  | @word w s words hne hw h ih =>
    cases words with
    | nil =>
      cases hlast
      exact ⟨[], s, rfl, hne, hw, h.of_nil⟩
    | cons first others =>
      rw [List.getLast?_cons_cons] at hlast
      obtain ⟨front, separators, rfl, hrest⟩ := ih hlast
      exact ⟨w ++ front, separators, by simp only [List.append_assoc], hrest⟩

theorem wordsOf_eq_nil_iff : wordsOf s = [] ↔ ∀ c ∈ s, isAlphanumeric c = false := by
  refine ⟨fun h => (h ▸ spaced_wordsOf s : Spaced s []).of_nil, fun h => ?_⟩
  induction s with
  | nil => rfl
  | cons c rest ih =>
    obtain ⟨hc, hrest⟩ := List.forall_mem_cons.mp h
    rw [wordsOf, hc, if_neg Bool.false_ne_true]
    exact ih hrest

/-! ### Separators at the end -/

theorem joinsNext_append_separators {separators : List Char} (h : ∀ x ∈ separators, isAlphanumeric x = false) (c : Char) :
    ∀ s : List Char, joinsNext c (s ++ separators) = joinsNext c s
  | [] => by
    cases separators with
    | nil => rfl
    | cons d rest =>
      have hd := h d List.mem_cons_self
      simp [joinsNext, hd]
  | [d] => by
    have hnext : separators.head?.any isLower = false := by
      cases separators with
      | nil => rfl
      | cons e rest =>
        refine Bool.eq_false_iff.mpr fun hlower => ?_
        have halphanumeric := isAlphanumeric_of_isLower hlower
        rw [h e List.mem_cons_self] at halphanumeric
        cases halphanumeric
    rw [List.singleton_append, joinsNext, joinsNext, isBoundary, isBoundary, hnext]
    rfl
  | d :: e :: rest => rfl

theorem wordsOf_append_separators {separators : List Char} (h : ∀ x ∈ separators, isAlphanumeric x = false) :
    ∀ s : List Char, wordsOf (s ++ separators) = wordsOf s
  | [] => wordsOf_eq_nil_iff.mpr h
  | c :: rest => by
    rw [List.cons_append, wordsOf, wordsOf, joinsNext_append_separators h, wordsOf_append_separators h rest]

end

end Naming

end Scaffold
