import Mathlib
import Scaffold.Proofs.Naming.Ascii

/-! Which names become words that Go reserves. A kind does exactly if it is such a word in lower case, capitalised or in
    upper case (`lowerCamel_mem_iff`): any other change of case would begin a second word, which keeps its capital. A
    phase does exactly if its name is spelled as such a word (`packageName_mem_iff`). -/

namespace Scaffold.Naming
open Text

/-- The words that Go reserves. -/
def goKeywords : List String :=
  ["break", "case", "chan", "const", "continue", "default", "defer", "else", "fallthrough", "for", "func", "go", "goto",
   "if", "import", "interface", "map", "package", "range", "return", "select", "struct", "switch", "type", "var"]

theorem isLower_of_mem_goKeywords : ∀ word ∈ goKeywords, ∀ c ∈ word.toList, c.isLower = true := by
  have hall : goKeywords.all (fun word => word.toList.all Char.isLower) = true := by decide
  exact fun word hword => List.all_eq_true.mp (List.all_eq_true.mp hall word hword)

/-- A word in lower case, capitalised and in upper case. -/
def styles (word : List Char) : List (List Char) := [word, word.modifyHead Char.toUpper, word.map Char.toUpper]

/-! ### Letters -/

section
variable {c d : Char} {s rest : List Char}

theorem isUpper_eq (h : c.isAlphanum = true) : isUpper c = c.isUpper := if_pos (toNat_lt_of_isAlphanum h)

theorem isLower_eq (h : c.isAlphanum = true) : isLower c = c.isLower := if_pos (toNat_lt_of_isAlphanum h)

theorem upper_eq (h : c.isAlphanum = true) : upper c = [c.toUpper] := if_pos (toNat_lt_of_isAlphanum h)

theorem lower_eq (h : c.isAlphanum = true) : lower c = [c.toLower] := if_pos (toNat_lt_of_isAlphanum h)

theorem lowercase_eq (hs : ∀ c ∈ s, c.isAlphanum = true) : lowercase s = s.map Char.toLower := by
  rw [lowercase, lowerAfter_eq_flatMap _ hs, List.map_eq_flatMap]
  exact List.flatMap_congr fun c hc => lower_eq (hs c hc)

/-! ### Words of letters -/

theorem wordsOf_cons (hc : c.isAlphanum = true) : wordsOf (c :: rest) =
    if joinsNext c rest then
      match wordsOf rest with
      | word :: words => (c :: word) :: words
      | [] => [[c]]
    else [c] :: wordsOf rest :=
  if_pos (isAlphanumeric_of_isAlphanum hc)

theorem joinsNext_cons (hd : d.isAlphanum = true) : joinsNext c (d :: rest) = !isBoundary c d rest.head? := by
  rw [joinsNext, isAlphanumeric_of_isAlphanum hd, Bool.true_and]

theorem exists_wordsOf_cons (hc : c.isAlphanum = true) (rest : List Char) : ∃ word words, wordsOf (c :: rest) = (c :: word) :: words := by
  rw [wordsOf_cons hc]
  split
  · split
    · exact ⟨_, _, rfl⟩
    · exact ⟨_, _, rfl⟩
  · exact ⟨_, _, rfl⟩

/-- A second word of letters and digits begins with a capital. -/
theorem exists_upper_of_mem_tail : ∀ {s : List Char}, (∀ c ∈ s, c.isAlphanum = true) →
    ∀ word ∈ (wordsOf s).tail, ∃ c rest, word = c :: rest ∧ c.isAlphanum = true ∧ c.isUpper = true
  | [], _ => by simp [wordsOf]
  | [c], h => by
    rw [wordsOf_cons (h c List.mem_cons_self)]
    simp [joinsNext, wordsOf]
  | c :: d :: rest, h => by
    obtain ⟨hc, hrest⟩ := List.forall_mem_cons.mp h
    have hd := hrest d List.mem_cons_self
    have ih := exists_upper_of_mem_tail hrest
    obtain ⟨first, others, hwords⟩ := exists_wordsOf_cons hd rest
    rw [wordsOf_cons hc, joinsNext_cons hd]
    rw [hwords] at ih ⊢
    cases hboundary : isBoundary c d rest.head? with
    | false => exact ih
    | true =>
      have hupper : d.isUpper = true := by
        simp only [isBoundary, isUpper_eq hd, Bool.or_eq_true, Bool.and_eq_true] at hboundary
        rcases hboundary with ⟨-, hupper⟩ | ⟨⟨-, hupper⟩, -⟩ <;> exact hupper
      exact List.forall_mem_cons.mpr ⟨⟨d, first, rfl, hd, hupper⟩, ih⟩

theorem wordsOf_eq_self_iff (hc : c.isAlphanum = true) (hd : d.isAlphanum = true) :
    wordsOf (c :: d :: rest) = [c :: d :: rest] ↔ isBoundary c d rest.head? = false ∧ wordsOf (d :: rest) = [d :: rest] := by
  rw [wordsOf_cons hc, joinsNext_cons hd]
  obtain ⟨first, others, hwords⟩ := exists_wordsOf_cons hd rest
  rw [hwords]
  cases isBoundary c d rest.head? <;> simp

/-- A letter of either case. -/
def IsLetter (c : Char) : Prop := c.isLower = true ∨ c.isUpper = true

theorem IsLetter.isAlphanum (h : IsLetter c) : c.isAlphanum = true := by
  have hcases : c.isAlphanum = (c.isUpper || c.isLower || c.isDigit) := rfl
  rcases h with h | h <;> simp [hcases, h]

theorem lower_of_single : ∀ {rest : List Char} {c : Char}, c.isLower = true → (∀ x ∈ rest, IsLetter x) →
    wordsOf (c :: rest) = [c :: rest] → ∀ x ∈ rest, x.isLower = true
  | [], _, _, _, _ => by simp
  | d :: rest, c, hc, h, hsingle => by
    obtain ⟨hd, hrest⟩ := List.forall_mem_cons.mp h
    have halphanum : c.isAlphanum = true := IsLetter.isAlphanum (.inl hc)
    obtain ⟨hboundary, hnext⟩ := (wordsOf_eq_self_iff halphanum hd.isAlphanum).mp hsingle
    have hlower : d.isLower = true := by
      refine hd.resolve_right fun hupper => ?_
      rw [isBoundary, isLower_eq halphanum, isUpper_eq hd.isAlphanum, hc, hupper] at hboundary
      cases hboundary
    exact List.forall_mem_cons.mpr ⟨hlower, lower_of_single hlower hrest hnext⟩

theorem upper_of_single : ∀ {rest : List Char} {c d : Char}, c.isUpper = true → d.isUpper = true →
    (∀ x ∈ rest, IsLetter x) → wordsOf (c :: d :: rest) = [c :: d :: rest] → ∀ x ∈ rest, x.isUpper = true
  | [], _, _, _, _, _, _ => by simp
  | e :: rest, c, d, hc, hd, h, hsingle => by
    obtain ⟨he, hrest⟩ := List.forall_mem_cons.mp h
    have hc' : c.isAlphanum = true := IsLetter.isAlphanum (.inr hc)
    have hd' : d.isAlphanum = true := IsLetter.isAlphanum (.inr hd)
    obtain ⟨hboundary, hnext⟩ := (wordsOf_eq_self_iff hc' hd').mp hsingle
    have hupper : e.isUpper = true := by
      refine he.resolve_left fun hlower => ?_
      rw [isBoundary, isUpper_eq hc', isUpper_eq hd', hc, hd, List.head?_cons, Option.any_some,
        isLower_eq he.isAlphanum, hlower] at hboundary
      simp at hboundary
    exact List.forall_mem_cons.mpr ⟨hupper, upper_of_single hd hupper hrest hnext⟩

theorem isLetter_of_toLower (h : c.toLower.isLower = true) : IsLetter c := by
  rw [Char.isLower_toLower_eq_isAlpha, Char.isAlpha, Bool.or_eq_true] at h
  exact h.symm

theorem toUpper_of_isUpper (h : c.isUpper = true) : c.toUpper = c :=
  Char.toUpper_eq_of_not_isLower (Char.not_isLower_of_isUpper h)

theorem map_toLower_of_lower (hs : ∀ c ∈ s, c.isLower = true) : s.map Char.toLower = s := by
  have hsame : ∀ c ∈ s, c.toLower = id c := fun c hc =>
    Char.toLower_eq_of_not_isUpper (Char.not_isUpper_of_isLower (hs c hc))
  rw [List.map_congr_left hsame, List.map_id]

theorem map_toUpper_of_upper (hs : ∀ c ∈ s, c.isUpper = true) : (s.map Char.toLower).map Char.toUpper = s := by
  have hsame : ∀ c ∈ s, (Char.toUpper ∘ Char.toLower) c = id c := fun c hc =>
    (Char.toUpper_toLower_eq_toUpper c).trans (toUpper_of_isUpper (hs c hc))
  rw [List.map_map, List.map_congr_left hsame, List.map_id]

theorem single_of_lower : ∀ {rest : List Char} {c : Char}, IsLetter c → (∀ x ∈ rest, x.isLower = true) →
    wordsOf (c :: rest) = [c :: rest]
  | [], c, hc, _ => by
    rw [wordsOf_cons hc.isAlphanum]
    rfl
  | d :: rest, c, hc, h => by
    obtain ⟨hd, hrest⟩ := List.forall_mem_cons.mp h
    have hletter : IsLetter d := .inl hd
    have hsmall : d.isUpper = false := by simpa using Char.not_isUpper_of_isLower hd
    refine (wordsOf_eq_self_iff hc.isAlphanum hletter.isAlphanum).mpr ⟨?_, single_of_lower hletter hrest⟩
    simp [isBoundary, isUpper_eq hletter.isAlphanum, hsmall]

theorem single_of_upper : ∀ {rest : List Char} {c : Char}, c.isUpper = true → (∀ x ∈ rest, x.isUpper = true) →
    wordsOf (c :: rest) = [c :: rest]
  | [], c, hc, _ => single_of_lower (.inr hc) (List.forall_mem_nil _)
  | d :: rest, c, hc, h => by
    obtain ⟨hd, hrest⟩ := List.forall_mem_cons.mp h
    have hnot {x : Char} (hx : x.isUpper = true) : isLower x = false := by
      rw [isLower_eq (IsLetter.isAlphanum (.inr hx))]
      simpa using Char.not_isLower_of_isUpper hx
    have hdigit : c.isDigit = false := by
      refine Bool.eq_false_iff.mpr fun hdigit => ?_
      simp only [Char.isUpper, Char.isDigit, Bool.and_eq_true, decide_eq_true_eq, UInt32.le_iff_toNat_le] at hc hdigit
      exact absurd (Nat.le_trans hc.1 hdigit.2) (by decide)
    have hnext : rest.head?.any isLower = false := by
      cases rest with
      | nil => rfl
      | cons e rest => exact hnot (hrest e List.mem_cons_self)
    refine (wordsOf_eq_self_iff (IsLetter.isAlphanum (.inr hc)) (IsLetter.isAlphanum (.inr hd))).mpr
      ⟨?_, single_of_upper hd hrest⟩
    simp [isBoundary, hnot hc, hdigit, hnext]

theorem mem_styles_of_single (hs : ∀ c ∈ s, IsLetter c) (hsingle : wordsOf s = [s]) : s ∈ styles (s.map Char.toLower) := by
  cases s with
  | nil => cases hsingle
  | cons c rest =>
    obtain ⟨hc, hrest⟩ := List.forall_mem_cons.mp hs
    rcases hc with hlower | hupper
    · have hlowers : ∀ x ∈ c :: rest, x.isLower = true :=
        List.forall_mem_cons.mpr ⟨hlower, lower_of_single hlower hrest hsingle⟩
      rw [map_toLower_of_lower hlowers]
      exact List.mem_cons_self
    have hback : c.toLower.toUpper = c := (Char.toUpper_toLower_eq_toUpper c).trans (toUpper_of_isUpper hupper)
    cases rest with
    | nil => simp [styles, hback]
    | cons d rest =>
      obtain ⟨hd, hrest⟩ := List.forall_mem_cons.mp hrest
      obtain ⟨-, hnext⟩ := (wordsOf_eq_self_iff (IsLetter.isAlphanum (.inr hupper)) hd.isAlphanum).mp hsingle
      rcases hd with hlower | hupper'
      · have hlowers : ∀ x ∈ d :: rest, x.isLower = true :=
          List.forall_mem_cons.mpr ⟨hlower, lower_of_single hlower hrest hnext⟩
        rw [List.map_cons, map_toLower_of_lower hlowers]
        simp [styles, hback]
      · have huppers : ∀ x ∈ c :: d :: rest, x.isUpper = true :=
          List.forall_mem_cons.mpr ⟨hupper, List.forall_mem_cons.mpr ⟨hupper', upper_of_single hupper hupper' hrest hsingle⟩⟩
        have hmem : ((c :: d :: rest).map Char.toLower).map Char.toUpper ∈ styles ((c :: d :: rest).map Char.toLower) :=
          .tail _ (.tail _ (.head _))
        rwa [map_toUpper_of_upper huppers] at hmem

theorem map_toLower_of_mem_styles {word : List Char} (hword : ∀ c ∈ word, c.isLower = true) (h : s ∈ styles word) :
    s.map Char.toLower = word := by
  have hsame := map_toLower_of_lower hword
  simp only [styles, List.mem_cons, List.not_mem_nil, or_false] at h
  rcases h with rfl | rfl | rfl
  · exact hsame
  · cases word with
    | nil => rfl
    | cons c rest =>
      rw [List.modifyHead_cons, List.map_cons, Char.toLower_toUpper_eq_toLower, ← List.map_cons, hsame]
  · have hback : ∀ c ∈ word, (Char.toLower ∘ Char.toUpper) c = c.toLower := fun c _ => Char.toLower_toUpper_eq_toLower c
    rw [List.map_map, List.map_congr_left hback, hsame]

/-- In each of its styles a word in lower case is one word of letters. -/
theorem single_of_mem_styles (hword : ∀ x ∈ c :: rest, x.isLower = true) (h : s ∈ styles (c :: rest)) :
    (∀ x ∈ s, IsLetter x) ∧ wordsOf s = [s] := by
  obtain ⟨hc, hrest⟩ := List.forall_mem_cons.mp hword
  have hletters : ∀ x ∈ rest, IsLetter x := fun x hx => .inl (hrest x hx)
  have hcapital : ∀ x : Char, x.isLower = true → x.toUpper.isUpper = true := fun x hx => by
    rw [Char.isUpper_toUpper_eq_isAlpha, Char.isAlpha, hx, Bool.or_true]
  have hcapitals : ∀ x ∈ rest.map Char.toUpper, x.isUpper = true :=
    List.forall_mem_map.mpr fun x hx => hcapital x (hrest x hx)
  simp only [styles, List.modifyHead_cons, List.map_cons, List.mem_cons, List.not_mem_nil, or_false] at h
  rcases h with rfl | rfl | rfl
  · exact ⟨List.forall_mem_cons.mpr ⟨.inl hc, hletters⟩, single_of_lower (.inl hc) hrest⟩
  · exact ⟨List.forall_mem_cons.mpr ⟨.inr (hcapital c hc), hletters⟩, single_of_lower (.inr (hcapital c hc)) hrest⟩
  · exact ⟨List.forall_mem_cons.mpr ⟨.inr (hcapital c hc), fun x hx => .inr (hcapitals x hx)⟩,
      single_of_upper (hcapital c hc) hcapitals⟩

end

/-! ### Kinds -/

/-- The first letter of a text of letters and digits stays in front, and no other characters come in. -/
theorem exists_lowerCamelChars {c : Char} {rest : List Char} (hs : ∀ x ∈ c :: rest, x.isAlphanum = true) :
    ∃ tail, lowerCamelChars (c :: rest) = c.toLower :: tail ∧ ∀ x ∈ tail, x.isAlphanum = true := by
  obtain ⟨first, words, hwords⟩ := exists_wordsOf_cons (hs c List.mem_cons_self) rest
  have hword : ∀ word ∈ (c :: first) :: words, IsWord word := fun word hmem =>
    isWord_of_mem_wordsOf hs (hwords ▸ hmem)
  have hfirst := hword _ List.mem_cons_self
  refine ⟨first.map Char.toLower ++ words.flatMap capitalize, ?_, fun x hx => ?_⟩
  · rw [lowerCamelChars, hwords]
    simp only [lowercase_eq hfirst.2]
    rfl
  · rcases List.mem_append.mp hx with hx | hx
    · obtain ⟨d, hd, rfl⟩ := List.mem_map.mp hx
      exact (isAlphanum_toLower_toUpper (hfirst.2 d (List.mem_cons_of_mem _ hd))).1
    · obtain ⟨word, hmem, hx⟩ := List.mem_flatMap.mp hx
      exact (hword word (List.mem_cons_of_mem _ hmem)).capitalize.2 x hx

theorem mem_styles_of_lowerCamelChars {s word : List Char} (hs : ∀ c ∈ s, c.isAlphanum = true)
    (hword : ∀ c ∈ word, c.isLower = true) (h : lowerCamelChars s = word) : s ∈ styles word := by
  obtain ⟨hflat, -⟩ := wordsOf_of_isAlphanum hs
  have htail := exists_upper_of_mem_tail hs
  unfold lowerCamelChars at h
  split at h
  · next hwords =>
    rw [hwords] at hflat
    subst h
    rw [← hflat]
    exact List.mem_cons_self
  · next first words hwords =>
    rw [hwords] at hflat htail
    have hnone : words = [] := by
      refine List.eq_nil_iff_forall_not_mem.mpr fun second hsecond => ?_
      obtain ⟨c, rest, rfl, hc, hupper⟩ := htail second hsecond
      have hmem : c ∈ word := by
        rw [← h]
        refine List.mem_append_right _ (List.mem_flatMap.mpr ⟨c :: rest, hsecond, ?_⟩)
        simp [capitalize, upper_eq hc, toUpper_of_isUpper hupper]
      exact Char.not_isLower_of_isUpper hupper (hword c hmem)
    subst hnone
    have hsingle : first = s := by simpa using hflat
    subst hsingle
    have hlower : first.map Char.toLower = word := by
      rw [← lowercase_eq hs]
      simpa using h
    have hletters : ∀ c ∈ first, IsLetter c := fun c hc =>
      isLetter_of_toLower (hword _ (hlower ▸ List.mem_map_of_mem hc))
    rw [← hlower]
    exact mem_styles_of_single hletters hwords

theorem lowerCamelChars_of_mem_styles {s word : List Char} (hword : ∀ c ∈ word, c.isLower = true) (h : s ∈ styles word) :
    lowerCamelChars s = word := by
  cases word with
  | nil =>
    have hempty : s = [] := by simpa [styles] using h
    rw [hempty]
    rfl
  | cons c rest =>
    obtain ⟨hletters, hsingle⟩ := single_of_mem_styles hword h
    rw [lowerCamelChars, hsingle]
    simp only [lowercase_eq fun x hx => (hletters x hx).isAlphanum, List.flatMap_nil, List.append_nil]
    exact map_toLower_of_mem_styles hword h

theorem lowerCamel_mem_iff {kind : String} (h : ∀ c ∈ kind.toList, c.isAlphanum = true) :
    lowerCamel kind ∈ goKeywords ↔ ∃ word ∈ goKeywords, kind.toList ∈ styles word.toList := by
  constructor
  · intro hmem
    refine ⟨_, hmem, mem_styles_of_lowerCamelChars h (isLower_of_mem_goKeywords _ hmem) ?_⟩
    rw [lowerCamel, String.toList_ofList]
  · rintro ⟨word, hword, hstyle⟩
    rw [lowerCamel, lowerCamelChars_of_mem_styles (isLower_of_mem_goKeywords word hword) hstyle, String.ofList_toList]
    exact hword

/-! ### Phases -/

theorem packageName_mem_iff (name : String) :
    packageName name ∈ goKeywords ↔ ∃ word ∈ goKeywords, asciiName? name.toList = some word.toList := by
  have hletters : ∀ word ∈ goKeywords, ∀ c ∈ word.toList, c.isAlphanum = true := fun word hword c hc =>
    IsLetter.isAlphanum (.inl (isLower_of_mem_goKeywords word hword c hc))
  simp only [asciiName?_eq, ascii?_eq_some, String.toList_inj]
  constructor
  · exact fun hmem => ⟨_, hmem, rfl, hletters _ hmem⟩
  · rintro ⟨word, hword, rfl, -⟩
    exact hword

end Scaffold.Naming
