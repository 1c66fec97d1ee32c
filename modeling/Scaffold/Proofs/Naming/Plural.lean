import Scaffold.Naming.Plural
import Scaffold.Proofs.Naming.Spaced
import Scaffold.Proofs.Text.Trim

/-! Plurals of identifiers are identifiers' texts again: not empty, and ASCII letters and digits only
    (`isWord_pluralChars`), whichever rule or exception the last word falls under. So the plural of a kind is a name
    that may stand between slashes. -/

namespace Scaffold.Naming
open Text

/-- ASCII letters and digits, at least one. -/
def IsWord (s : List Char) : Prop := s ≠ [] ∧ ∀ c ∈ s, c.isAlphanum = true

theorem IsWord.append {s t : List Char} (hs : ∀ c ∈ s, c.isAlphanum = true) (ht : IsWord t) : IsWord (s ++ t) :=
  ⟨by simp [ht.1], fun c hc => (List.mem_append.mp hc).elim (hs c) (ht.2 c)⟩

/-! ### Case -/

section Case
variable {c : Char}

theorem toNat_lt_of_isAlphanum (h : c.isAlphanum = true) : c.toNat < 128 := by
  have hranges : c.isAlphanum = ((decide ('A'.val ≤ c.val ∧ c.val ≤ 'Z'.val) || ('a'.val ≤ c.val && c.val ≤ 'z'.val)) ||
    ('0'.val ≤ c.val && c.val ≤ '9'.val)) := rfl
  simp only [hranges, Bool.or_eq_true, Bool.and_eq_true, decide_eq_true_eq, UInt32.le_iff_toNat_le] at h
  change ((65 ≤ c.toNat ∧ c.toNat ≤ 90) ∨ (97 ≤ c.toNat ∧ c.toNat ≤ 122)) ∨ (48 ≤ c.toNat ∧ c.toNat ≤ 57) at h
  omega

theorem isAlphanumeric_of_isAlphanum (h : c.isAlphanum = true) : isAlphanumeric c = true := by
  rw [isAlphanumeric, if_pos (toNat_lt_of_isAlphanum h), h]

theorem of_ascii {P : Char → Prop} (h : ∀ n < 128, P (Char.ofNat n)) (hc : c.toNat < 128) : P c := by
  have hchar := h c.toNat hc
  rwa [Char.ofNat_toNat] at hchar

theorem isAlphanum_toLower_toUpper (h : c.isAlphanum = true) :
    c.toLower.isAlphanum = true ∧ c.toUpper.isAlphanum = true :=
  of_ascii (P := fun c => c.isAlphanum = true → c.toLower.isAlphanum = true ∧ c.toUpper.isAlphanum = true)
    (by decide +kernel) (toNat_lt_of_isAlphanum h) h

theorem isWord_lower (h : c.isAlphanum = true) : IsWord (lower c) := by
  rw [lower, if_pos (toNat_lt_of_isAlphanum h)]
  exact ⟨by simp, by simpa using (isAlphanum_toLower_toUpper h).1⟩

theorem isWord_upper (h : c.isAlphanum = true) : IsWord (upper c) := by
  rw [upper, if_pos (toNat_lt_of_isAlphanum h)]
  exact ⟨by simp, by simpa using (isAlphanum_toLower_toUpper h).2⟩

end Case

theorem IsWord.flatMap {f : Char → List Char} (hf : ∀ c, c.isAlphanum = true → IsWord (f c)) {s : List Char}
    (h : IsWord s) : IsWord (s.flatMap f) := by
  obtain ⟨c, rest, rfl⟩ := List.exists_cons_of_ne_nil h.1
  refine ⟨?_, fun x hx => ?_⟩
  · simp [(hf c (h.2 c (List.mem_cons_self ..))).1]
  · obtain ⟨d, hd, hx⟩ := List.mem_flatMap.mp hx
    exact (hf d (h.2 d hd)).2 x hx

theorem lowerAfter_eq_flatMap : ∀ {s : List Char} (after : Bool), (∀ c ∈ s, c.isAlphanum = true) →
    lowerAfter after s = s.flatMap lower
  | [], _, _ => rfl
  | c :: rest, after, h => by
    obtain ⟨hc, hrest⟩ := List.forall_mem_cons.mp h
    have hsigma : c ≠ 'Σ' := by
      rintro rfl
      revert hc
      decide
    rw [lowerAfter, if_neg hsigma, lowerAfter_eq_flatMap _ hrest, List.flatMap_cons]

theorem IsWord.lowercase {s : List Char} (h : IsWord s) : IsWord (lowercase s) := by
  rw [Text.lowercase, lowerAfter_eq_flatMap _ h.2]
  exact h.flatMap fun _ => isWord_lower

theorem IsWord.uppercase {s : List Char} (h : IsWord s) : IsWord (uppercase s) := h.flatMap fun _ => isWord_upper

theorem IsWord.capitalize {s : List Char} (h : IsWord s) : IsWord (capitalize s) := by
  obtain ⟨c, rest, rfl⟩ := List.exists_cons_of_ne_nil h.1
  obtain ⟨hc, hrest⟩ := List.forall_mem_cons.mp h.2
  refine ⟨by simp [Naming.capitalize, (isWord_upper hc).1], fun x hx => ?_⟩
  rcases List.mem_append.mp hx with hx | hx
  · exact (isWord_upper hc).2 x hx
  · obtain ⟨d, hd, hx⟩ := List.mem_flatMap.mp hx
    exact (isWord_lower (hrest d hd)).2 x hx

/-! ### Words of an identifier -/

/-- Without separators nothing is lost between the words of a text, and a word is never empty. -/
theorem wordsOf_of_isAlphanum {s : List Char} (h : ∀ c ∈ s, c.isAlphanum = true) :
    (wordsOf s).flatten = s ∧ ∀ word ∈ wordsOf s, word ≠ [] := by
  have hspaced := spaced_wordsOf s
  refine ⟨?_, hspaced.ne_nil⟩
  rw [hspaced.flatten, List.filter_eq_self.mpr fun c hc => isAlphanumeric_of_isAlphanum (h c hc)]

theorem isWord_of_mem_wordsOf {s word : List Char} (hs : ∀ c ∈ s, c.isAlphanum = true) (h : word ∈ wordsOf s) :
    IsWord word := by
  obtain ⟨hflat, hwords⟩ := wordsOf_of_isAlphanum hs
  refine ⟨hwords word h, fun c hc => hs c ?_⟩
  rw [← hflat]
  exact List.mem_flatten.mpr ⟨word, h, hc⟩

/-! ### Plurals -/

theorem isWord_irregular : ∀ entry ∈ irregular, IsWord entry.2.toList := by
  have hall : irregular.all (fun entry => !entry.2.toList.isEmpty && entry.2.toList.all Char.isAlphanum) = true := rfl
  intro entry hentry
  simpa [IsWord] using List.all_eq_true.mp hall entry hentry

theorem isWord_matchCase {word plural : List Char} (h : IsWord plural) : IsWord (matchCase word plural) := by
  unfold matchCase
  split
  · exact h.uppercase
  · split
    · exact h.capitalize
    · exact h

theorem isWord_pluralWord {word : List Char} (h : IsWord word) : IsWord (pluralWord word) := by
  have hend : ∀ (n : Nat) {ending : List Char}, IsWord ending → IsWord (word.take n ++ ending) := fun n _ hending =>
    .append (fun c hc => h.2 c (List.mem_of_mem_take hc)) hending
  have hves : IsWord ['v', 'e', 's'] := ⟨by simp, by simp⟩
  have hes : IsWord ['e', 's'] := ⟨by simp, by simp⟩
  unfold pluralWord
  simp only
  split
  · exact h
  split
  · next plural hlookup =>
    obtain ⟨before, after, heq, -⟩ := List.lookup_eq_some_iff.mp hlookup
    exact isWord_matchCase (isWord_irregular (_, plural) (heq ▸ List.mem_append_right _ (List.mem_cons_self ..)))
  split
  · exact hend _ hves
  split
  · exact hend _ hves
  split
  · exact .append h.2 hes
  split
  · exact .append h.2 hes
  split
  · exact hend _ ⟨by simp, by simp⟩
  · exact .append h.2 ⟨by simp, by simp⟩

theorem isWord_pluralChars {s : List Char} (h : IsWord s) : IsWord (pluralChars s) := by
  have hstem : dropEndWhile (!isAlphanumeric ·) s = s :=
    dropEndWhile_of_last fun c hc => by simp [isAlphanumeric_of_isAlphanum (h.2 c (List.mem_of_mem_getLast? hc))]
  unfold pluralChars
  simp only [hstem]
  split
  · exact h
  · next last hlast =>
    have hword := isWord_of_mem_wordsOf h.2 (List.mem_of_getLast? hlast)
    exact .append (fun c hc => h.2 c (List.mem_of_mem_take hc)) (isWord_pluralWord hword)

end Scaffold.Naming
