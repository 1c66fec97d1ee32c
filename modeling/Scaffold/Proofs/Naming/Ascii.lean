import Scaffold.Proofs.Naming.Plural

/-! Which names have a package name of ASCII letters and digits (`asciiName?_eq`). Only few characters beyond ASCII turn
    into such letters: the Kelvin sign is lowered to `k`, and where a word begins, which is capitalised before all is
    lowered, `ß`, `ı`, `ſ` and the Latin ligatures turn into the letters of their capitals. -/

namespace Scaffold

namespace Naming
open Text

/-! ### Spelling a name -/

/-- The text, if it has ASCII letters and digits only. -/
def ascii? (s : List Char) : Option (List Char) := if s.all Char.isAlphanum then some s else none

/-- The sign of a unit, which looks like `K`. -/
def kelvinSign : Char := Char.ofNat 8490

/-- The characters that turn into ASCII letters where a word begins, and these letters. -/
def initials : List (Char × List Char) :=
  [('ß', ['s', 's']), ('ı', ['i']), ('ſ', ['s']), ('ﬀ', ['f', 'f']), ('ﬁ', ['f', 'i']), ('ﬂ', ['f', 'l']),
   ('ﬃ', ['f', 'f', 'i']), ('ﬄ', ['f', 'f', 'l']), ('ﬅ', ['s', 't']), ('ﬆ', ['s', 't'])]

/-- What a character of a name is spelled as; `first` says that a word begins with it. -/
def letters? (first : Bool) (c : Char) : Option (List Char) :=
  if c.isAlphanum then some [c.toLower]
  else if c = kelvinSign then some ['k']
  else if first then initials.lookup c
  else none

/-- What a word is spelled as. -/
def wordLetters? : List Char → Option (List Char)
  | [] => some []
  | c :: rest => (letters? true c).bind fun start => ((rest.mapM (letters? false)).map List.flatten).map (start ++ ·)

/-- What a name is spelled as. -/
def asciiName? (s : List Char) : Option (List Char) := ((wordsOf s).mapM wordLetters?).map List.flatten

/-! ### Texts without other characters -/

section
variable {s t : List Char} {c : Char}

theorem ascii?_eq_some : ascii? s = some t ↔ s = t ∧ ∀ c ∈ t, c.isAlphanum = true := by
  unfold ascii?
  split
  · next hall =>
    rw [Option.some_inj]
    exact ⟨fun heq => ⟨heq, heq ▸ List.all_eq_true.mp hall⟩, And.left⟩
  · next hall => exact ⟨nofun, fun ⟨heq, ht⟩ => absurd (List.all_eq_true.mpr (heq ▸ ht)) hall⟩

theorem ascii?_append (s t : List Char) : ascii? (s ++ t) = (ascii? s).bind fun start => (ascii? t).map (start ++ ·) := by
  unfold ascii?
  rw [List.all_append]
  cases s.all Char.isAlphanum <;> cases t.all Char.isAlphanum <;> rfl

theorem ascii?_of_mem (hc : c ∈ s) (h : c.isAlphanum = false) : ascii? s = none :=
  if_neg fun hall => by
    rw [List.all_eq_true.mp hall c hc] at h
    cases h

theorem ascii?_flatMap {α : Type} (g : α → List Char) : ∀ l : List α,
    ascii? (l.flatMap g) = (l.mapM fun a => ascii? (g a)).map List.flatten
  | [] => rfl
  | a :: l => by
    rw [List.flatMap_cons, ascii?_append, ascii?_flatMap g l, List.mapM_cons]
    cases ascii? (g a) <;> cases l.mapM (fun a => ascii? (g a)) <;> rfl

end

end Naming

/-! ### Changing case beyond ASCII -/

namespace Text
open Naming

/-- A character without an ASCII letter as its lower case. -/
def Foreign (c : Char) : Prop := 128 ≤ c.toNat ∧ c.toNat ≠ 8490

theorem Foreign.not_isAlphanum {c : Char} (h : Foreign c) : c.isAlphanum = false := by
  refine Bool.eq_false_iff.mpr fun halphanum => ?_
  have hlow := toNat_lt_of_isAlphanum halphanum
  have hhigh := h.1
  omega

/-- A run of characters that change into foreign ones. -/
def CaseShift.IsForeign (s : CaseShift) : Prop :=
  128 ≤ s.target ∧ ¬(s.target ≤ 8490 ∧ 8490 ≤ s.target + (s.run.last - s.run.first)) ∧
    (s.target + (s.run.last - s.run.first) < 55296 ∨
      57343 < s.target ∧ s.target + (s.run.last - s.run.first) < 1114112)

instance (s : CaseShift) : Decidable s.IsForeign := inferInstanceAs (Decidable (_ ∧ _))

theorem exists_of_shifted? {n image : Nat} : ∀ {shifts : List CaseShift}, shifted? shifts n = some image →
    ∃ s ∈ shifts, s.run.first ≤ n ∧ n ≤ s.run.last ∧ image = s.target + (n - s.run.first)
  | s :: rest, h => by
    unfold shifted? at h
    split at h
    · next hcontains =>
      simp only [CodeRun.contains, Bool.and_eq_true, decide_eq_true_eq] at hcontains
      exact ⟨s, List.mem_cons_self, hcontains.1.1, hcontains.1.2, (Option.some.inj h).symm⟩
    · obtain ⟨t, ht, himage⟩ := exists_of_shifted? h
      exact ⟨t, List.mem_cons_of_mem _ ht, himage⟩

theorem foreign_of_shifted? {shifts : List CaseShift} {others : List Nat}
    (htable : ∀ s ∈ shifts, s.IsForeign ∨ s.run.first = s.run.last ∧ s.run.first ∈ others) {n image : Nat}
    (hn : n ∉ others) (h : shifted? shifts n = some image) : Foreign (Char.ofNat image) := by
  obtain ⟨s, hs, hfirst, hlast, rfl⟩ := exists_of_shifted? h
  rcases htable s hs with ⟨htarget, hkelvin, hvalid⟩ | ⟨hsingle, hother⟩
  · have hchar : (s.target + (n - s.run.first)).isValidChar := by
      unfold Nat.isValidChar
      omega
    have hcode : (Char.ofNat (s.target + (n - s.run.first))).toNat = s.target + (n - s.run.first) := by
      rw [Char.ofNat, dif_pos hchar]
      rfl
    rw [Foreign, hcode]
    omega
  · have heq : n = s.run.first := by omega
    exact absurd (heq ▸ hother) hn

theorem exists_lower_eq {c : Char} (h : Foreign c) : ∃ front d, lower c = front ++ [d] ∧ Foreign d := by
  have htable : ∀ s ∈ lowerShifts, s.IsForeign ∨ s.run.first = s.run.last ∧ s.run.first ∈ [8490] := by decide +kernel
  have hascii : ¬c.toNat < 128 := Nat.not_lt.mpr h.1
  unfold lower
  rw [if_neg hascii]
  split
  · exact ⟨['i'], Char.ofNat 775, rfl, by unfold Foreign; decide⟩
  · split
    · next image himage =>
      exact ⟨[], Char.ofNat image, rfl, foreign_of_shifted? htable (by simpa using h.2) himage⟩
    · exact ⟨[], c, rfl, h⟩

theorem exists_foreign_lower {c : Char} (h : Foreign c) : ∃ d ∈ lower c, Foreign d := by
  obtain ⟨front, d, heq, hforeign⟩ := exists_lower_eq h
  exact ⟨d, by simp [heq], hforeign⟩

theorem exists_foreign_upper {c : Char} (h : Foreign c) (hinitial : c ∉ initials.map Prod.fst) :
    ∃ d ∈ upper c, Foreign d := by
  have hsequences : ∀ entry ∈ upperSequences, Char.ofNat entry.1 ∈ initials.map Prod.fst ∨
      ∃ n ∈ entry.2, 128 ≤ (Char.ofNat n).toNat ∧ (Char.ofNat n).toNat ≠ 8490 := by decide +kernel
  have hshifts : ∀ s ∈ upperShifts, s.IsForeign ∨ s.run.first = s.run.last ∧ s.run.first ∈ [305, 383] := by
    decide +kernel
  have hsingle : c.toNat ∉ [305, 383] := by
    intro hmem
    have hcode : ∀ n ∈ [305, 383], Char.ofNat n ∈ initials.map Prod.fst := by decide
    exact hinitial (Char.ofNat_toNat c ▸ hcode c.toNat hmem)
  have hascii : ¬c.toNat < 128 := Nat.not_lt.mpr h.1
  unfold upper
  rw [if_neg hascii]
  split
  · next ns hns =>
    obtain ⟨before, after, heq, -⟩ := List.lookup_eq_some_iff.mp hns
    rcases hsequences (c.toNat, ns) (heq ▸ List.mem_append_right _ List.mem_cons_self) with hmem | ⟨n, hn, hforeign⟩
    · exact absurd (Char.ofNat_toNat c ▸ hmem) hinitial
    · exact ⟨Char.ofNat n, List.mem_map_of_mem hn, hforeign⟩
  · split
    · next image himage =>
      exact ⟨Char.ofNat image, by simp, foreign_of_shifted? hshifts hsingle himage⟩
    · exact ⟨c, by simp, h⟩

end Text

/-! ### What names are spelled as -/

namespace Naming
open Text

theorem ascii?_lower_of_foreign {s : List Char} {c : Char} (hc : c ∈ s) (h : Foreign c) : ascii? (s.flatMap lower) = none := by
  obtain ⟨d, hd, hforeign⟩ := exists_foreign_lower h
  exact ascii?_of_mem (List.mem_flatMap.mpr ⟨c, hc, hd⟩) hforeign.not_isAlphanum

theorem letters?_of_foreign {c : Char} (h : Foreign c) (first : Bool) :
    letters? first c = if first then initials.lookup c else none := by
  have hkelvin : c ≠ kelvinSign := by
    rintro rfl
    exact h.2 rfl
  rw [letters?, h.not_isAlphanum, if_neg Bool.false_ne_true, if_neg hkelvin]

/-- A character of a name is first brought into upper case, where a word begins, or into lower case, and then lowered with
    the whole name. -/
theorem letters?_eq (first : Bool) (c : Char) :
    letters? first c = ascii? ((if first then upper c else lower c).flatMap lower) := by
  by_cases hascii : c.toNat < 128
  · exact of_ascii (P := fun c => ∀ first : Bool, letters? first c =
      ascii? ((if first then upper c else lower c).flatMap lower)) (by decide +kernel) hascii first
  by_cases hkelvin : c.toNat = 8490
  · have hsign : ∀ first : Bool, letters? first kelvinSign =
        ascii? ((if first then upper kelvinSign else lower kelvinSign).flatMap lower) := by decide +kernel
    have heq : c = kelvinSign := by rw [← Char.ofNat_toNat c, hkelvin, kelvinSign]
    exact heq ▸ hsign first
  have hforeign : Foreign c := ⟨Nat.not_lt.mp hascii, hkelvin⟩
  rw [letters?_of_foreign hforeign]
  cases first with
  | false =>
    obtain ⟨d, hd, hforeign'⟩ := exists_foreign_lower hforeign
    exact (ascii?_lower_of_foreign hd hforeign').symm
  | true =>
    by_cases hinitial : c ∈ initials.map Prod.fst
    · have htable : ∀ entry ∈ initials, initials.lookup entry.1 = ascii? ((upper entry.1).flatMap lower) := by
        decide +kernel
      obtain ⟨entry, hentry, rfl⟩ := List.mem_map.mp hinitial
      exact htable entry hentry
    have hlookup : initials.lookup c = none := by
      rw [List.lookup_eq_none_iff]
      intro entry hentry
      rw [bne_iff_ne]
      rintro rfl
      exact hinitial (List.mem_map_of_mem hentry)
    obtain ⟨d, hd, hforeign'⟩ := exists_foreign_upper hforeign hinitial
    exact hlookup.trans (ascii?_lower_of_foreign hd hforeign').symm

theorem wordLetters?_eq : ∀ word : List Char, wordLetters? word = ascii? ((capitalize word).flatMap lower)
  | [] => rfl
  | c :: rest => by
    have hrest : (rest.mapM (letters? false)).map List.flatten = ascii? ((rest.flatMap lower).flatMap lower) := by
      rw [List.flatMap_assoc, ascii?_flatMap, funext (letters?_eq false)]
      rfl
    rw [wordLetters?, hrest, letters?_eq, if_pos rfl, capitalize, List.flatMap_append, ascii?_append]

/-- Where a capital sigma stands does not matter, since it is no ASCII letter in any form. -/
theorem ascii?_lowerAfter : ∀ (s : List Char) (after : Bool), ascii? (lowerAfter after s) = ascii? (s.flatMap lower)
  | [], _ => rfl
  | c :: rest, after => by
    rw [lowerAfter, List.flatMap_cons, ascii?_append, ascii?_append, ascii?_lowerAfter rest]
    split
    · next hsigma =>
      have hnone : ascii? [if after && !cased? rest then 'ς' else 'σ'] = none := by
        split <;> decide
      have hlower : ascii? (lower 'Σ') = none := by decide +kernel
      rw [hnone, hsigma, hlower]
    · rfl

/-- A name is spelled as its package name, unless that has other characters than ASCII letters and digits. -/
theorem asciiName?_eq (name : String) : asciiName? name.toList = ascii? (packageName name).toList := by
  have hwords : ((wordsOf name.toList).mapM wordLetters?).map List.flatten =
      ascii? (((wordsOf name.toList).flatMap capitalize).flatMap lower) := by
    rw [List.flatMap_assoc, ascii?_flatMap, funext wordLetters?_eq]
  rw [packageName, String.toList_ofList, lowercase, ascii?_lowerAfter, upperCamelChars, asciiName?, hwords]

example : asciiName? "ſwitch-ß".toList = some "switchss".toList ∧ asciiName? "iſ".toList = none := by decide +kernel

end Naming

end Scaffold
