import Mathlib
import Scaffold.Proofs.Naming.Keywords
import Scaffold.Proofs.Naming.Spaced
import Scaffold.Proofs.Plan.Writable

/-! Plurals by bytes. A plural is made by cutting texts at places that are counted in bytes, from the end of the last word
    and from the end of the whole; a cut that falls inside a character gives nothing. It never does (`pluralSliced?_eq`):
    the last word ends the text, and whatever lengths the lower case of a word has, an ending of it in `f`, `fe` or `y`
    comes from as many characters of one byte each (`Lowered.exists_ending`). So only the last word changes, and an
    identifier stays one (`pluralize_exact`). -/

namespace Scaffold.Naming
open Text

/-! ### Cutting at bytes -/

/-- The length of a text in bytes. -/
def byteSize (s : List Char) : Nat := (s.map Char.utf8Size).sum

/-- The first `n` bytes of a text, if a character ends there. -/
def firstBytes? : Nat → List Char → Option (List Char)
  | 0, _ => some []
  | _ + 1, [] => none
  | n + 1, c :: rest =>
    if c.utf8Size ≤ n + 1 then (firstBytes? (n + 1 - c.utf8Size) rest).map (c :: ·) else none

/-- A text without its last `n` bytes, if it has as many and a character begins there. -/
def withoutBytes? (n : Nat) (s : List Char) : Option (List Char) :=
  if n ≤ byteSize s then firstBytes? (byteSize s - n) s else none

theorem byteSize_append (s t : List Char) : byteSize (s ++ t) = byteSize s + byteSize t := by
  simp [byteSize]

theorem firstBytes?_append (t : List Char) : ∀ s : List Char, firstBytes? (byteSize s) (s ++ t) = some s
  | [] => by cases t <;> rfl
  | c :: rest => by
    obtain ⟨n, hn⟩ : ∃ n, byteSize (c :: rest) = n + 1 := by
      have hpos := c.utf8Size_pos
      exact ⟨byteSize (c :: rest) - 1, by simp only [byteSize, List.map_cons, List.sum_cons]; omega⟩
    have hrest : n + 1 - c.utf8Size = byteSize rest := by
      simp only [← hn, byteSize, List.map_cons, List.sum_cons, Nat.add_sub_cancel_left]
    have hfits : c.utf8Size ≤ n + 1 := by
      simp only [← hn, byteSize, List.map_cons, List.sum_cons, Nat.le_add_right]
    rw [hn, List.cons_append, firstBytes?, if_pos hfits, hrest, firstBytes?_append t rest, Option.map_some]

theorem withoutBytes?_append (s t : List Char) : withoutBytes? (byteSize t) (s ++ t) = some s := by
  rw [withoutBytes?, byteSize_append, if_pos (Nat.le_add_left ..), Nat.add_sub_cancel, firstBytes?_append]

/-- The plural of one word, whose endings are counted in bytes. -/
def pluralWordSliced? (word : List Char) : Option (List Char) :=
  let singular := String.ofList (lowercase word)
  if uncountable.contains singular then some word
  else match irregular.lookup singular with
    | some plural => some (matchCase word plural.toList)
    | none =>
      if feToVes.contains singular then (withoutBytes? 2 word).map (· ++ ['v', 'e', 's'])
      else if fToVes.contains singular then (withoutBytes? 1 word).map (· ++ ['v', 'e', 's'])
      else if oToOes.contains singular then some (word ++ ['e', 's'])
      else if sibilants.any (·.isSuffixOf singular.toList) then some (word ++ ['e', 's'])
      else if endsInConsonantY singular.toList then (withoutBytes? 1 word).map (· ++ ['i', 'e', 's'])
      else some (word ++ ['s'])

/-- The plural of the last word of a text, behind as many bytes as stand in front of that word. -/
def pluralSliced? (s : List Char) : Option (List Char) :=
  let stem := dropEndWhile (!isAlphanumeric ·) s
  match (wordsOf stem).getLast? with
  | none => some s
  | some last => do return (← withoutBytes? (byteSize last) stem) ++ (← pluralWordSliced? last)

/-! ### What lower case ends in -/

/-- What a character may be lowered to; a capital sigma has two forms. -/
def lowerForms (c : Char) : List (List Char) := if c = 'Σ' then [['ς'], ['σ']] else [lower c]

/-- The second text is made of lower forms of the characters of the first. -/
inductive Lowered : List Char → List Char → Prop
  | nil : Lowered [] []
  | concat {s t piece : List Char} {c : Char} (h : Lowered s t) (hc : piece ∈ lowerForms c) :
      Lowered (s ++ [c]) (t ++ piece)

theorem Lowered.cons {s t piece : List Char} {c : Char} (hc : piece ∈ lowerForms c) (h : Lowered s t) :
    Lowered (c :: s) (piece ++ t) := by
  induction h with
  | nil => simpa using Lowered.concat .nil hc
  | concat h hd ih =>
    rw [← List.cons_append, ← List.append_assoc]
    exact ih.concat hd

theorem lowered_lowerAfter : ∀ (s : List Char) (after : Bool), Lowered s (lowerAfter after s)
  | [], _ => .nil
  | c :: rest, after => by
    refine .cons ?_ (lowered_lowerAfter rest _)
    unfold lowerForms
    split
    · split <;> simp
    · exact List.mem_singleton_self _

/-- Only characters of ASCII are lowered to an ending in ASCII, apart from the Kelvin sign. -/
theorem eq_of_lowerForms {c x : Char} {piece front : List Char} (hpiece : piece ∈ lowerForms c)
    (heq : piece = front ++ [x]) (hx : x.toNat < 128) (hkelvin : x ≠ 'k') : c.utf8Size = 1 ∧ front = [] := by
  have hforeign : ¬Foreign x := fun h => absurd h.1 (Nat.not_le.mpr hx)
  have hsingle {y : Char} (h : piece = [y]) : front = [] ∧ x = y := by
    obtain ⟨hfront, hlast⟩ := List.append_inj' (heq.symm.trans h : front ++ [x] = [] ++ [y]) rfl
    exact ⟨hfront, (List.cons.inj hlast).1⟩
  unfold lowerForms at hpiece
  split at hpiece
  · -- neither form of the sigma is of ASCII
    obtain ⟨y, hy, hpiece⟩ : ∃ y, 128 ≤ y.toNat ∧ piece = [y] := by
      rcases List.mem_cons.mp hpiece with h | h
      · exact ⟨'ς', by decide, h⟩
      · exact ⟨'σ', by decide, List.mem_singleton.mp h⟩
    exact absurd ((hsingle hpiece).2 ▸ hx) (Nat.not_lt.mpr hy)
  have hlower : piece = lower c := List.mem_singleton.mp hpiece
  by_cases hascii : c.toNat < 128
  · refine ⟨Char.utf8Size_eq_one_iff.mpr (UInt32.le_iff_toNat_le.mpr (Nat.le_of_lt_succ hascii)), ?_⟩
    exact (hsingle (hlower.trans (if_pos hascii))).1
  refine absurd ?_ hforeign
  have hc : Foreign c := by
    refine ⟨Nat.not_lt.mp hascii, fun hcode => hkelvin ?_⟩
    obtain rfl : c = kelvinSign := by
      rw [← Char.ofNat_toNat c, hcode]
      rfl
    exact (hsingle (hlower.trans (by decide : lower kelvinSign = ['k']))).2
  obtain ⟨front', d, hd, hforeign'⟩ := exists_lower_eq hc
  obtain ⟨-, hlast⟩ := List.append_inj' (heq.symm.trans (hlower.trans hd)) rfl
  exact (List.cons.inj hlast).1 ▸ hforeign'

theorem lowerForms_ne_nil {c : Char} {piece : List Char} (h : piece ∈ lowerForms c) : piece ≠ [] := by
  have hlower : lower c ≠ [] := by
    unfold lower
    split
    · simp
    · split
      · simp
      · split <;> simp
  unfold lowerForms at h
  split at h
  · rcases List.mem_cons.mp h with rfl | h
    · simp
    · simp [List.mem_singleton.mp h]
  · exact List.mem_singleton.mp h ▸ hlower

/-- An ending of the lower case comes from as many characters, which have one byte each. -/
theorem Lowered.exists_ending {ending : List Char} (hending : ∀ x ∈ ending, x.toNat < 128 ∧ x ≠ 'k') {s t : List Char}
    (h : Lowered s (t ++ ending)) :
    ∃ w v, s = w ++ v ∧ Lowered w t ∧ v.length = ending.length ∧ byteSize v = ending.length := by
  induction ending using List.reverseRecOn generalizing s with
  | nil => exact ⟨s, [], (List.append_nil s).symm, List.append_nil t ▸ h, rfl, rfl⟩
  | append_singleton front x ih =>
    obtain ⟨hfront, hlast⟩ := List.forall_mem_append.mp hending
    obtain ⟨hx, hkelvin⟩ := hlast x (List.mem_singleton_self x)
    generalize hall : t ++ (front ++ [x]) = all at h
    cases h with
    | nil => simp at hall
    | @concat s t' piece c hinner hc =>
      obtain ⟨front', y, rfl⟩ := (List.eq_nil_or_concat piece).resolve_left (lowerForms_ne_nil hc)
      rw [List.concat_eq_append] at hc hall
      rw [← List.append_assoc, ← List.append_assoc] at hall
      obtain ⟨hrest, hsame⟩ := List.append_inj' hall rfl
      obtain rfl : x = y := (List.cons.inj hsame).1
      obtain ⟨hsize, rfl⟩ := eq_of_lowerForms hc rfl hx hkelvin
      rw [List.append_nil] at hrest
      obtain ⟨w, v, rfl, hw, hlength, hbytes⟩ := ih hfront (hrest ▸ hinner)
      refine ⟨w, v ++ [c], List.append_assoc .., hw, by simp [hlength], ?_⟩
      rw [byteSize_append, hbytes, List.length_append]
      simp [byteSize, hsize]

theorem Lowered.ne_nil {s t : List Char} (h : Lowered s t) (ht : t ≠ []) : s ≠ [] := by
  cases h with
  | nil => exact absurd rfl ht
  | concat => simp

/-! ### One word -/

/-- How the plural of a word is made. -/
inductive Made (word : List Char) : List Char → Prop
  | same : Made word word
  | other {entry : String × String} (h : entry ∈ irregular) : Made word (matchCase word entry.2.toList)
  | longer (ending : List Char) : Made word (word ++ ending)
  | cut {w : List Char} (hw : w <+: word) (hne : w ≠ []) (ending : List Char) : Made word (w ++ ending)

section
variable {word : List Char}

/-- A word whose lower case has an ending can be cut in front of that, by bytes and by characters. -/
theorem exists_cut {ending : List Char} (hending : ∀ x ∈ ending, x.toNat < 128 ∧ x ≠ 'k')
    (hsuffix : ending <:+ lowercase word) (hmore : ending.length < (lowercase word).length) :
    ∃ w, w ≠ [] ∧ word.take (word.length - ending.length) = w ∧ w <+: word ∧
      withoutBytes? ending.length word = some w := by
  obtain ⟨start, hstart⟩ := hsuffix
  have hlowered : Lowered word (start ++ ending) := hstart ▸ lowered_lowerAfter word false
  have hne : start ≠ [] := by
    rintro rfl
    rw [← hstart] at hmore
    exact absurd hmore (Nat.lt_irrefl _)
  obtain ⟨w, v, rfl, hw, hlength, hbytes⟩ := hlowered.exists_ending hending
  refine ⟨w, hw.ne_nil hne, ?_, List.prefix_append w v, hbytes ▸ withoutBytes?_append w v⟩
  rw [List.length_append, hlength, Nat.add_sub_cancel, List.take_left]

theorem exists_cut_of_mem {ending : List Char} {table : List String} (hending : ∀ x ∈ ending, x.toNat < 128 ∧ x ≠ 'k')
    (htable : ∀ t ∈ table, ending <:+ t.toList ∧ ending.length < t.toList.length)
    (hmem : table.contains (String.ofList (lowercase word)) = true) :
    ∃ w, w ≠ [] ∧ word.take (word.length - ending.length) = w ∧ w <+: word ∧
      withoutBytes? ending.length word = some w := by
  obtain ⟨hsuffix, hmore⟩ := htable _ (List.contains_iff_mem.mp hmem)
  rw [String.toList_ofList] at hsuffix hmore
  exact exists_cut hending hsuffix hmore

theorem suffix_of_endsInConsonantY {s : List Char} (h : endsInConsonantY s = true) : ['y'] <:+ s ∧ 1 < s.length := by
  unfold endsInConsonantY at h
  split at h
  · next c rest hreverse =>
    have hs : s = (rest.reverse ++ [c]) ++ ['y'] := by
      rw [← List.reverse_reverse s, hreverse, List.reverse_cons, List.reverse_cons]
    rw [hs]
    exact ⟨List.suffix_append .., by simp⟩
  · cases h

/-- The byte counts of a word's endings are those of whole characters. -/
theorem pluralWordSliced?_eq (word : List Char) :
    pluralWordSliced? word = some (pluralWord word) ∧ Made word (pluralWord word) := by
  -- what is cut off has been found in the lower case of the word, whose bytes need not be those of the word
  have hfeTable : ∀ t ∈ feToVes, ['f', 'e'] <:+ t.toList ∧ 2 < t.toList.length := by decide +kernel
  have hfTable : ∀ t ∈ fToVes, ['f'] <:+ t.toList ∧ 1 < t.toList.length := by decide +kernel
  unfold pluralWordSliced? pluralWord
  simp only
  split
  · exact ⟨rfl, .same⟩
  cases hlookup : irregular.lookup (String.ofList (lowercase word)) with
  | some plural =>
    obtain ⟨before, after, heq, -⟩ := List.lookup_eq_some_iff.mp hlookup
    have hentry : (String.ofList (lowercase word), plural) ∈ irregular := heq ▸ List.mem_append_right _ List.mem_cons_self
    exact ⟨rfl, .other hentry⟩
  | none =>
    simp only
    split
    · next hfe =>
      obtain ⟨w, hne, htake, hbegins, hbytes⟩ := exists_cut_of_mem (by simp) hfeTable hfe
      rw [show word.take (word.length - 2) = w from htake, show withoutBytes? 2 word = some w from hbytes]
      exact ⟨rfl, .cut hbegins hne _⟩
    split
    · next hf =>
      obtain ⟨w, hne, htake, hbegins, hbytes⟩ := exists_cut_of_mem (by simp) hfTable hf
      rw [show word.take (word.length - 1) = w from htake, show withoutBytes? 1 word = some w from hbytes]
      exact ⟨rfl, .cut hbegins hne _⟩
    split
    · exact ⟨rfl, .longer _⟩
    split
    · exact ⟨rfl, .longer _⟩
    split
    · next hy =>
      rw [String.toList_ofList] at hy
      obtain ⟨hsuffix, hmore⟩ := suffix_of_endsInConsonantY hy
      obtain ⟨w, hne, htake, hbegins, hbytes⟩ := exists_cut (by simp) hsuffix hmore
      rw [show word.take (word.length - 1) = w from htake, show withoutBytes? 1 word = some w from hbytes]
      exact ⟨rfl, .cut hbegins hne _⟩
    · exact ⟨rfl, .longer _⟩

/-! ### Identifiers -/

/-- The first character is an ASCII letter. -/
def Lettered (s : List Char) : Prop := ∃ c rest, s = c :: rest ∧ c.isAlpha = true

theorem Lettered.append {s : List Char} (h : Lettered s) (t : List Char) : Lettered (s ++ t) := by
  obtain ⟨c, rest, rfl, hc⟩ := h
  exact ⟨c, rest ++ t, List.cons_append, hc⟩

theorem Lettered.of_prefix {s t : List Char} (h : Lettered t) (hbegins : s <+: t) (hne : s ≠ []) : Lettered s := by
  obtain ⟨c, rest, rfl, hc⟩ := h
  obtain ⟨d, others, rfl⟩ := List.exists_cons_of_ne_nil hne
  obtain rfl : d = c := (List.cons_prefix_cons.mp hbegins).1
  exact ⟨d, others, rfl, hc⟩

theorem lettered_upper {c : Char} (h : c.isAlpha = true) (rest : List Char) : Lettered (upper c ++ rest) := by
  have hascii : c.toNat < 128 := toNat_lt_of_isAlphanum (by rw [Char.isAlphanum, h, Bool.true_or])
  have hupper : c.toUpper.isAlpha = true :=
    of_ascii (P := fun c => c.isAlpha = true → c.toUpper.isAlpha = true) (by decide +kernel) hascii h
  rw [upper, if_pos hascii]
  exact ⟨c.toUpper, rest, rfl, hupper⟩

theorem Lettered.matchCase {plural : List Char} (h : Lettered plural) : Lettered (matchCase word plural) := by
  unfold Naming.matchCase
  obtain ⟨c, rest, rfl, hc⟩ := h
  split
  · exact lettered_upper hc _
  · split
    · exact lettered_upper hc _
    · exact ⟨c, rest, rfl, hc⟩

theorem lettered_irregular : ∀ entry ∈ irregular, Lettered entry.2.toList := by
  have htable : ∀ entry ∈ irregular, entry.2.toList.head?.any Char.isAlpha = true := by decide +kernel
  intro entry hentry
  obtain ⟨c, hc, halpha⟩ := (Option.any_eq_true ..).mp (htable entry hentry)
  obtain ⟨rest, hrest⟩ := List.head?_eq_some_iff.mp hc
  exact ⟨c, rest, hrest, halpha⟩

theorem Made.lettered {plural : List Char} (h : Made word plural) (hword : Lettered word) : Lettered plural := by
  cases h with
  | same => exact hword
  | other h => exact (lettered_irregular _ h).matchCase
  | longer ending => exact hword.append ending
  | cut hw hne ending => exact (hword.of_prefix hw hne).append ending

end

/-! ### The last word -/

section
variable {s last : List Char}

theorem pluralChars_of_last (h : (wordsOf s).getLast? = some last) : ∃ front separators,
    s = front ++ last ++ separators ∧ (∀ c ∈ last, isAlphanumeric c = true) ∧
      (∀ c ∈ separators, isAlphanumeric c = false) ∧ pluralChars s = front ++ pluralWord last ∧
      pluralSliced? s = some (front ++ pluralWord last) := by
  obtain ⟨front, separators, hs, hne, hlast, hseparators⟩ := (spaced_wordsOf s).exists_last h
  have hstem : dropEndWhile (!isAlphanumeric ·) s = front ++ last := by
    rw [hs]
    refine dropEndWhile_append (fun c hc => ?_) fun c hc => by simp [hseparators c hc]
    rw [List.getLast?_append_of_ne_nil front hne] at hc
    simp [hlast c (List.mem_of_mem_getLast? hc)]
  have hwords : (wordsOf (front ++ last)).getLast? = some last := by
    rw [← wordsOf_append_separators hseparators (front ++ last), ← hs, h]
  refine ⟨front, separators, hs, hlast, hseparators, ?_, ?_⟩
  · unfold pluralChars
    simp only [hstem, hwords]
    rw [List.length_append, Nat.add_sub_cancel, List.take_left]
  · unfold pluralSliced?
    simp only [hstem, hwords]
    rw [withoutBytes?_append, (pluralWordSliced?_eq last).1]
    rfl

theorem pluralChars_of_none (h : ∀ c ∈ s, isAlphanumeric c = false) :
    pluralChars s = s ∧ pluralSliced? s = some s := by
  have hstem : dropEndWhile (!isAlphanumeric ·) s = [] :=
    dropEndWhile_eq_nil_iff.mpr fun c hc => by simp [h c hc]
  unfold pluralChars pluralSliced?
  simp only [hstem]
  exact ⟨rfl, rfl⟩

theorem pluralSliced?_eq (s : List Char) : pluralSliced? s = some (pluralChars s) := by
  cases hlast : (wordsOf s).getLast? with
  | none =>
    obtain ⟨hchars, hsliced⟩ := pluralChars_of_none (wordsOf_eq_nil_iff.mp (List.getLast?_eq_none_iff.mp hlast))
    rw [hsliced, hchars]
  | some last =>
    obtain ⟨front, separators, -, -, -, hchars, hsliced⟩ := pluralChars_of_last hlast
    rw [hsliced, hchars]

theorem lettered_pluralChars (h : Lettered s) (hs : ∀ c ∈ s, c.isAlphanum = true) : Lettered (pluralChars s) := by
  cases hlast : (wordsOf s).getLast? with
  | none => rwa [(pluralChars_of_none (wordsOf_eq_nil_iff.mp (List.getLast?_eq_none_iff.mp hlast))).1]
  | some last =>
    obtain ⟨front, separators, heq, -, hseparators, hchars, -⟩ := pluralChars_of_last hlast
    obtain rfl : separators = [] := List.eq_nil_iff_forall_not_mem.mpr fun c hc => by
      have halphanumeric := isAlphanumeric_of_isAlphanum (hs c (heq ▸ List.mem_append_right _ hc))
      rw [hseparators c hc] at halphanumeric
      cases halphanumeric
    rw [hchars]
    rw [List.append_nil] at heq
    by_cases hfront : front = []
    · -- the text is one word
      rw [hfront, List.nil_append] at heq ⊢
      exact (pluralWordSliced?_eq last).2.lettered (heq ▸ h)
    · exact (h.of_prefix (heq ▸ List.prefix_append ..) hfront).append _

end

/-! ### Plurals of names -/

theorem isLowered_of_isWord {s : List Char} (h : IsWord s) :
    ∀ x ∈ lowercase s, ('a' ≤ x ∧ x ≤ 'z') ∨ AsciiDigit x := by
  intro x hx
  rw [lowercase, lowerAfter_eq_flatMap _ h.2, List.mem_flatMap] at hx
  obtain ⟨c, hc, hx⟩ := hx
  have halphanum := h.2 c hc
  rw [lower, if_pos (toNat_lt_of_isAlphanum halphanum), List.mem_singleton] at hx
  exact hx ▸ of_ascii (P := fun c => c.isAlphanum = true → ('a' ≤ c.toLower ∧ c.toLower ≤ 'z') ∨ AsciiDigit c.toLower)
    (by unfold AsciiDigit; decide +kernel) (toNat_lt_of_isAlphanum halphanum) halphanum

/-- What the plural of a name is. -/
structure Pluralized (s plural : String) : Prop where
  /-- Nothing is cut inside a character. -/
  sliced : pluralSliced? s.toList = some plural.toList
  bare : (∀ c ∈ s.toList, isAlphanumeric c = false) → plural = s
  lastWord : (∃ c ∈ s.toList, isAlphanumeric c = true) → ∃ front last separators, (words s).getLast? = some last ∧
    s = front ++ last ++ separators ∧ (∀ c ∈ last.toList, isAlphanumeric c = true) ∧
    (∀ c ∈ separators.toList, isAlphanumeric c = false) ∧ plural = front ++ String.ofList (pluralWord last.toList)
  identifier : Identifier s → Identifier plural ∧ lowercase plural.toList ≠ [] ∧
    ∀ c ∈ lowercase plural.toList, ('a' ≤ c ∧ c ≤ 'z') ∨ AsciiDigit c

/-- Only the end of the last word of a name changes in its plural, and an identifier stays one. -/
theorem pluralize_exact (s : String) : Pluralized s (pluralize s) where
  sliced := by rw [pluralize, String.toList_ofList, pluralSliced?_eq]
  bare h := by rw [pluralize, (pluralChars_of_none h).1, String.ofList_toList]
  lastWord := by
    rintro ⟨c, hc, halphanumeric⟩
    cases hlast : (wordsOf s.toList).getLast? with
    | none =>
      have hnone := wordsOf_eq_nil_iff.mp (List.getLast?_eq_none_iff.mp hlast) c hc
      rw [halphanumeric] at hnone
      cases hnone
    | some last =>
      obtain ⟨front, separators, hs, hword, hseparators, hchars, -⟩ := pluralChars_of_last hlast
      refine ⟨String.ofList front, String.ofList last, String.ofList separators, ?_, ?_, ?_, ?_, ?_⟩
      · rw [words, List.getLast?_map, hlast, Option.map_some]
      · rw [← String.ofList_append, ← String.ofList_append, ← hs, String.ofList_toList]
      · rwa [String.toList_ofList]
      · rwa [String.toList_ofList]
      · rw [pluralize, hchars, String.toList_ofList, String.ofList_append]
  identifier h := by
    have hword := isWord_pluralChars (isWord_of_identifier h)
    have hletter : Lettered s.toList := by
      obtain ⟨c, rest, heq, hc, -⟩ := h
      exact ⟨c, rest, heq, isAlpha_iff.mpr hc⟩
    obtain ⟨c, rest, heq, hc⟩ := lettered_pluralChars hletter (isWord_of_identifier h).2
    rw [pluralize, String.toList_ofList]
    refine ⟨⟨c, rest, by rw [String.toList_ofList, heq], isAlpha_iff.mp hc, fun x hx => ?_⟩, hword.lowercase.1,
      isLowered_of_isWord hword⟩
    exact isAlphanum_iff.mp (hword.2 x (heq ▸ List.mem_cons_of_mem _ hx))

/-- The Kelvin sign has three bytes and looks like a letter of one in lower case. -/
example : byteSize [kelvinSign, 'n', 'i', 'f', 'e'] = 7 ∧
    pluralSliced? (['x', '-'] ++ [kelvinSign, 'n', 'i', 'f', 'e'] ++ ['!']) =
      some (['x', '-'] ++ [kelvinSign, 'n', 'i', 'v', 'e', 's']) := by decide +kernel

end Scaffold.Naming
