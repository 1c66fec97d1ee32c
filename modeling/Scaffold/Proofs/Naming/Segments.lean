import Mathlib.Data.List.Basic
import Scaffold.Proofs.Naming.Spaced

/-! Which words a text has (`words_segmented`). Every word is a stretch of the text, and together the stretches cover the
    letters and digits of the text and nothing else, so no word is lost and none is told twice. Two letters or digits side
    by side are in different stretches exactly at a change of case. The words are found from the end of the text on, and
    whether a character joins the word behind it is told by the next two characters of the text: so it is enough to see
    what one more character in front does to the stretches of a text. -/

namespace Scaffold.Naming
open Text

/-! ### Stretches of a text -/

/-- The places of a text from `start` on, up to the one before `stop`. -/
structure Stretch where
  start : Nat
  stop : Nat
  deriving DecidableEq

namespace Stretch

/-- The stretch goes over the place `i`. -/
def Has (x : Stretch) (i : Nat) : Prop := x.start ≤ i ∧ i < x.stop

/-- What a text has in the stretch. -/
def chars (x : Stretch) (s : List Char) : List Char := s.extract x.start x.stop

/-- The same stretch when a character is put in front of the text. -/
def next (x : Stretch) : Stretch := ⟨x.start + 1, x.stop + 1⟩

@[simp] theorem has_next_zero (x : Stretch) : ¬x.next.Has 0 := fun h => absurd h.1 (Nat.not_succ_le_zero _)

@[simp] theorem has_next_succ (x : Stretch) (i : Nat) : x.next.Has (i + 1) ↔ x.Has i :=
  and_congr Nat.succ_le_succ_iff Nat.succ_lt_succ_iff

@[simp] theorem has_leading (n i : Nat) : (⟨0, n⟩ : Stretch).Has i ↔ i < n := and_iff_right (Nat.zero_le i)

@[simp] theorem chars_next (x : Stretch) (c : Char) (s : List Char) : x.next.chars (c :: s) = x.chars s := by
  simp only [chars, next, List.extract_eq_take_drop, List.drop_succ_cons, Nat.add_sub_add_right]

@[simp] theorem chars_leading (n : Nat) (s : List Char) : (⟨0, n⟩ : Stretch).chars s = s.take n := by
  rw [chars, List.extract_eq_take_drop, Nat.sub_zero, List.drop_zero]

end Stretch

/-- A word ends between `c` and `d`, which `after` follows: behind a small letter or a digit a capital begins a new word,
    and in front of a small letter the last of several capitals does. -/
def CaseChanges (c d : Char) (after : Option Char) : Prop :=
  ((isLower c = true ∨ c.isDigit = true) ∧ isUpper d = true) ∨
    (isUpper c = true ∧ isUpper d = true ∧ ∃ e, after = some e ∧ isLower e = true)

theorem isBoundary_iff {c d : Char} {after : Option Char} : isBoundary c d after = true ↔ CaseChanges c d after := by
  simp only [isBoundary, CaseChanges, Bool.or_eq_true, Bool.and_eq_true, Option.any_eq_true, and_assoc]

/-- The stretches of the words of a text: each has a place, they are in order and apart, they go over the letters and
    digits, and one of them goes on from a letter or digit to the next unless case changes. -/
structure Drawn (s : List Char) (xs : List Stretch) : Prop where
  nonempty : ∀ x ∈ xs, x.start < x.stop
  ordered : xs.Pairwise (·.stop ≤ ·.start)
  covers : ∀ i, (∃ x ∈ xs, x.Has i) ↔ ∃ c, s[i]? = some c ∧ isAlphanumeric c = true
  joins : ∀ {i c d}, s[i]? = some c → s[i + 1]? = some d → isAlphanumeric c = true → isAlphanumeric d = true →
    ((∃ x ∈ xs, x.Has i ∧ x.Has (i + 1)) ↔ ¬CaseChanges c d s[i + 2]?)

section
variable {c d : Char} {s : List Char} {x : Stretch} {xs : List Stretch}

theorem Drawn.next (h : Drawn s xs) :
    (∀ x ∈ xs.map Stretch.next, x.start < x.stop) ∧ (xs.map Stretch.next).Pairwise (·.stop ≤ ·.start) := by
  refine ⟨List.forall_mem_map.mpr fun x hx => Nat.succ_lt_succ (h.nonempty x hx), ?_⟩
  exact List.pairwise_map.mpr (h.ordered.imp Nat.succ_le_succ)

theorem Drawn.separator (hc : isAlphanumeric c = false) (h : Drawn s xs) : Drawn (c :: s) (xs.map Stretch.next) where
  nonempty := h.next.1
  ordered := h.next.2
  covers i := by
    cases i with
    | zero => simp [hc]
    | succ i => simpa using h.covers i
  joins {i a b} ha hb hac hbc := by
    cases i with
    | zero =>
      obtain rfl : c = a := by simpa using ha
      rw [hc] at hac
      cases hac
    | succ i => simpa using h.joins (i := i) ha hb hac hbc

theorem Drawn.begins (hc : isAlphanumeric c = true)
    (hchange : ∀ d, s[0]? = some d → isAlphanumeric d = true → CaseChanges c d s[1]?) (h : Drawn s xs) :
    Drawn (c :: s) (⟨0, 1⟩ :: xs.map Stretch.next) where
  nonempty := List.forall_mem_cons.mpr ⟨Nat.zero_lt_one, h.next.1⟩
  ordered := List.pairwise_cons.mpr ⟨List.forall_mem_map.mpr fun x _ => Nat.succ_le_succ (Nat.zero_le _), h.next.2⟩
  covers i := by
    cases i with
    | zero => simp [hc]
    | succ i => simpa using h.covers i
  joins {i a b} ha hb hac hbc := by
    cases i with
    | zero =>
      obtain rfl : c = a := by simpa using ha
      simpa using hchange b hb hbc
    | succ i => simpa using h.joins (i := i) ha hb hac hbc

/-- The first stretch begins with the text if the text begins with a letter or digit. -/
theorem Drawn.exists_leading (h : Drawn s xs) (hd : s[0]? = some d) (halphanumeric : isAlphanumeric d = true) :
    ∃ n others, xs = ⟨0, n⟩ :: others ∧ 0 < n := by
  obtain ⟨y, hy, hhas⟩ := (h.covers 0).mpr ⟨d, hd, halphanumeric⟩
  have hstart : y.start = 0 := Nat.le_zero.mp hhas.1
  obtain ⟨⟨start, n⟩, others, rfl⟩ := List.exists_cons_of_ne_nil (List.ne_nil_of_mem hy)
  have hn : start < n := h.nonempty _ List.mem_cons_self
  rcases List.mem_cons.mp hy with rfl | hy
  · cases hstart
    exact ⟨n, others, rfl, hn⟩
  · -- a later stretch would have to begin behind this one
    have hapart : n ≤ y.start := (List.pairwise_cons.mp h.ordered).1 y hy
    omega

theorem Drawn.grows {n : Nat} (hc : isAlphanumeric c = true) (hd : s[0]? = some d) (hsame : ¬CaseChanges c d s[1]?)
    (hn : 0 < n) (h : Drawn s (⟨0, n⟩ :: xs)) : Drawn (c :: s) (⟨0, n + 1⟩ :: xs.map Stretch.next) := by
  have hnext := h.next
  simp only [List.map_cons, List.forall_mem_cons, List.pairwise_cons] at hnext
  refine ⟨List.forall_mem_cons.mpr ⟨Nat.succ_pos _, hnext.1.2⟩, List.pairwise_cons.mpr hnext.2, fun i => ?_, ?_⟩
  · cases i with
    | zero => simp [hc]
    | succ i => simpa using h.covers i
  · intro i a b ha hb hac hbc
    cases i with
    | zero =>
      obtain rfl : c = a := by simpa using ha
      obtain rfl : d = b := by simpa [hd] using hb
      simpa [hn] using hsame
    | succ i => simpa using h.joins (i := i) ha hb hac hbc

theorem exists_drawn : ∀ s : List Char, ∃ xs, Drawn s xs ∧ wordsOf s = xs.map (·.chars s)
  | [] => ⟨[], ⟨by simp, .nil, by simp, by simp⟩, rfl⟩
  | c :: rest => by
    obtain ⟨xs, hdrawn, hwords⟩ := exists_drawn rest
    have hbehind : (xs.map Stretch.next).map (·.chars (c :: rest)) = wordsOf rest := by
      simp [hwords, Function.comp_def]
    rw [wordsOf]
    split
    · next hc =>
      split
      · next hjoins =>
        cases rest with
        | nil => cases hjoins
        | cons d behind =>
          rw [joinsNext, Bool.and_eq_true, Bool.not_eq_true', ← Bool.not_eq_true, isBoundary_iff] at hjoins
          obtain ⟨n, others, rfl, hn⟩ := hdrawn.exists_leading rfl hjoins.1
          rw [List.head?_eq_getElem?] at hjoins
          refine ⟨_, hdrawn.grows hc rfl hjoins.2 hn, ?_⟩
          rw [hwords]
          simp [Function.comp_def]
      · next hjoins =>
        refine ⟨_, hdrawn.begins hc (fun d hd halphanumeric => ?_), by rw [List.map_cons, hbehind]; simp⟩
        cases rest with
        | nil => cases hd
        | cons e behind =>
          cases hd
          rw [joinsNext, halphanumeric, Bool.true_and, Bool.not_eq_true', Bool.not_eq_false, isBoundary_iff,
            List.head?_eq_getElem?] at hjoins
          exact hjoins
    · next hc => exact ⟨_, hdrawn.separator (Bool.eq_false_iff.mpr hc), hbehind.symm⟩

end

theorem Stretch.eq_of_has {xs : List Stretch} (hxs : xs.Pairwise (·.stop ≤ ·.start)) {x y : Stretch} (hx : x ∈ xs)
    (hy : y ∈ xs) {i : Nat} (hxi : x.Has i) (hyi : y.Has i) : x = y := by
  have hshared {a b : Stretch} (ha : a.Has i) (hb : b.Has i) : ¬a.stop ≤ b.start :=
    Nat.not_le.mpr (Nat.lt_of_le_of_lt hb.1 ha.2)
  induction hxs with
  | nil => cases hx
  | cons hfirst _ ih =>
    rcases List.mem_cons.mp hx with rfl | hx'
    · rcases List.mem_cons.mp hy with rfl | hy'
      · rfl
      · exact absurd (hfirst y hy') (hshared hxi hyi)
    · rcases List.mem_cons.mp hy with rfl | hy'
      · exact absurd (hfirst x hx') (hshared hyi hxi)
      · exact ih hx' hy'

/-- Letters and digits side by side are in different stretches unless one stretch has both. -/
theorem Drawn.parts {s : List Char} {xs : List Stretch} (h : Drawn s xs) {i : Nat} {c d : Char} (hi : s[i]? = some c)
    (hnext : s[i + 1]? = some d) (hc : isAlphanumeric c = true) (hd : isAlphanumeric d = true) :
    (∃ x ∈ xs, ∃ y ∈ xs, x ≠ y ∧ x.Has i ∧ y.Has (i + 1)) ↔ CaseChanges c d s[i + 2]? := by
  have hjoins := h.joins hi hnext hc hd
  constructor
  · rintro ⟨x, hx, y, hy, hne, hxi, hyi⟩
    by_contra hsame
    obtain ⟨z, hz, hzi, hznext⟩ := hjoins.mpr hsame
    exact hne ((Stretch.eq_of_has h.ordered hx hz hxi hzi).trans (Stretch.eq_of_has h.ordered hz hy hznext hyi))
  · intro hchange
    obtain ⟨x, hx, hxi⟩ := (h.covers i).mpr ⟨c, hi, hc⟩
    obtain ⟨y, hy, hyi⟩ := (h.covers (i + 1)).mpr ⟨d, hnext, hd⟩
    refine ⟨x, hx, y, hy, ?_, hxi, hyi⟩
    rintro rfl
    exact hjoins.mp ⟨x, hx, hxi, hyi⟩ hchange

/-! ### Words of a name -/

/-- The stretches tell the words of a text. -/
structure Segmentation (s : String) (words : List String) (xs : List Stretch) : Prop where
  words_eq : words = xs.map fun x => String.ofList (x.chars s.toList)
  nonempty : ∀ x ∈ xs, x.start < x.stop
  ordered : xs.Pairwise (·.stop ≤ ·.start)
  /-- The words have the letters and digits of the text and nothing else. -/
  covers : ∀ i, (∃ x ∈ xs, x.Has i) ↔ ∃ c, s.toList[i]? = some c ∧ isAlphanumeric c = true
  flatten : (words.map String.toList).flatten = s.toList.filter isAlphanumeric
  /-- Side by side they are in different words exactly where case changes. -/
  parts : ∀ {i c d}, s.toList[i]? = some c → s.toList[i + 1]? = some d →
    isAlphanumeric c = true → isAlphanumeric d = true →
    ((∃ x ∈ xs, ∃ y ∈ xs, x ≠ y ∧ x.Has i ∧ y.Has (i + 1)) ↔ CaseChanges c d s.toList[i + 2]?)

/-- A name is cut into words exactly where separators stand and where case changes. -/
theorem words_segmented (s : String) : ∃ xs, Segmentation s (words s) xs := by
  obtain ⟨xs, hdrawn, hwords⟩ := exists_drawn s.toList
  refine ⟨xs, ?_, hdrawn.nonempty, hdrawn.ordered, hdrawn.covers, ?_, hdrawn.parts⟩
  · rw [words, hwords, List.map_map]
    rfl
  · have hchars : String.toList ∘ String.ofList = id := funext fun _ => String.toList_ofList
    rw [words, List.map_map, hchars, List.map_id, (spaced_wordsOf s.toList).flatten]

example : words "HTTPServer, v1Beta" = ["HTTP", "Server", "v1", "Beta"] := by decide +kernel

end Scaffold.Naming
