import Scaffold.Descriptor.Basic
import Scaffold.Proofs.Naming.Keywords
import Scaffold.Proofs.Naming.Segments

/-! Names that differ in case or separators only. Of a name in ASCII a package name keeps the letters and digits, in lower
    case (`packageName_of_ascii`): where the name is cut into words does not show in it. Words in lower case that are joined
    by separators are found again (`wordsOf_joinWith`), for no capital is left that would cut them elsewhere; so the joined
    forms of a name have the words of that name, and one form can be made from the other (`workerPackage_tells`). -/

namespace Scaffold.Naming
open Text

/-! ### Words in lower case -/

/-- A word without capitals, which therefore is not cut. -/
def Small (word : List Char) : Prop := word ≠ [] ∧ ∀ c ∈ word, isAlphanumeric c = true ∧ isUpper c = false

section
variable {c d : Char} {sep : Char} {s word after : List Char}

theorem isBoundary_of_not_isUpper (hd : isUpper d = false) (next : Option Char) : isBoundary c d next = false := by
  simp [isBoundary, hd]

/-- A word without capitals ends where a separator stands. -/
theorem wordsOf_append_of_small (hafter : ∀ c ∈ after.head?, isAlphanumeric c = false) :
    ∀ {word : List Char}, Small word → wordsOf (word ++ after) = word :: wordsOf after
  | [], h => absurd rfl h.1
  | [c], h => by
    have hc := (h.2 c List.mem_cons_self).1
    have hends : joinsNext c after = false := by
      cases after with
      | nil => rfl
      | cons d rest => simp [joinsNext, hafter d rfl]
    rw [List.singleton_append, wordsOf, if_pos hc, hends, if_neg Bool.false_ne_true]
  | c :: d :: rest, h => by
    obtain ⟨hc, hrest⟩ := List.forall_mem_cons.mp h.2
    obtain ⟨hd, hsmall⟩ := hrest d List.mem_cons_self
    have ih : wordsOf (d :: rest ++ after) = (d :: rest) :: wordsOf after :=
      wordsOf_append_of_small hafter ⟨List.cons_ne_nil _ _, hrest⟩
    have hjoins : joinsNext c (d :: rest ++ after) = true := by
      rw [List.cons_append, joinsNext, hd, isBoundary_of_not_isUpper hsmall]
      rfl
    rw [List.cons_append, wordsOf, if_pos hc.1, if_pos hjoins, ih]

theorem wordsOf_joinWith (hsep : isAlphanumeric sep = false) :
    ∀ {words : List (List Char)}, (∀ word ∈ words, Small word) → wordsOf (joinWith [sep] words) = words
  | [], _ => rfl
  | [word], h => by
    have hword : wordsOf (word ++ []) = [word] := wordsOf_append_of_small (by simp) (h word List.mem_cons_self)
    rwa [List.append_nil] at hword
  | word :: next :: words, h => by
    obtain ⟨hword, hwords⟩ := List.forall_mem_cons.mp h
    have hbehind : wordsOf (sep :: joinWith [sep] (next :: words)) = next :: words := by
      rw [wordsOf, hsep, if_neg Bool.false_ne_true, wordsOf_joinWith hsep hwords]
    have hends : ∀ c ∈ (sep :: joinWith [sep] (next :: words)).head?, isAlphanumeric c = false := by
      simpa using hsep
    rw [joinWith, List.append_assoc, List.singleton_append, wordsOf_append_of_small hends hword, hbehind]
    exact List.cons_ne_nil _ _

end

/-! ### Words of ASCII -/

/-- Characters of ASCII only. -/
def Ascii (s : List Char) : Prop := ∀ c ∈ s, c.toNat < 128

instance (s : List Char) : Decidable (Ascii s) := List.decidableBAll _ s

section
variable {sep : Char} {s word : List Char}

theorem isWord_of_ascii (hs : Ascii s) (h : word ∈ wordsOf s) : IsWord word := by
  refine ⟨(spaced_wordsOf s).ne_nil word h, fun c hc => ?_⟩
  obtain ⟨hmem, halphanumeric⟩ : c ∈ s ∧ isAlphanumeric c = true := by
    rw [← List.mem_filter, ← (spaced_wordsOf s).flatten]
    exact List.mem_flatten_of_mem h hc
  rwa [isAlphanumeric, if_pos (hs c hmem)] at halphanumeric

theorem small_lowercase (h : IsWord word) : Small (lowercase word) := by
  refine ⟨h.lowercase.1, fun c hc => ?_⟩
  have halphanum := h.lowercase.2 c hc
  refine ⟨isAlphanumeric_of_isAlphanum halphanum, ?_⟩
  rw [lowercase_eq h.2] at hc
  obtain ⟨d, -, rfl⟩ := List.mem_map.mp hc
  rw [isUpper_eq halphanum, Char.isUpper_toLower_eq_false]

theorem lowercase_lowercase (h : IsWord word) : lowercase (lowercase word) = lowercase word := by
  rw [lowercase_eq h.lowercase.2, lowercase_eq h.2, List.map_map]
  exact List.map_congr_left fun c _ => Char.toLower_toLower_eq_toLower c

theorem map_toLower_capitalize (h : IsWord word) : (capitalize word).map Char.toLower = word.map Char.toLower := by
  obtain ⟨c, rest, rfl⟩ := List.exists_cons_of_ne_nil h.1
  obtain ⟨hc, hrest⟩ := List.forall_mem_cons.mp h.2
  have hlower : rest.flatMap lower = rest.map Char.toLower := by
    rw [List.map_eq_flatMap]
    exact List.flatMap_congr fun d hd => lower_eq (hrest d hd)
  rw [capitalize, upper_eq hc, hlower, List.singleton_append, List.map_cons, List.map_cons, Char.toLower_toUpper_eq_toLower,
    List.map_map]
  exact congrArg _ (List.map_congr_left fun d _ => Char.toLower_toLower_eq_toLower d)

/-- The package form of a text tells its words without their cuts. -/
theorem lowercase_upperCamelChars (h : ∀ word ∈ wordsOf s, IsWord word) :
    lowercase (upperCamelChars s) = (wordsOf s).flatten.map Char.toLower := by
  have hletters : ∀ c ∈ upperCamelChars s, c.isAlphanum = true := fun c hc => by
    obtain ⟨word, hword, hc⟩ := List.mem_flatMap.mp hc
    exact (h word hword).capitalize.2 c hc
  rw [lowercase_eq hletters, upperCamelChars, List.map_flatMap, List.map_flatten, ← List.flatMap_def]
  exact List.flatMap_congr fun word hword => map_toLower_capitalize (h word hword)

theorem wordsOf_lowerJoined (hs : Ascii s) (hsep : isAlphanumeric sep = false) :
    wordsOf (lowerJoined sep s) = (wordsOf s).map lowercase :=
  wordsOf_joinWith hsep (List.forall_mem_map.mpr fun _ h => small_lowercase (isWord_of_ascii hs h))

theorem lowerJoined_lowerJoined (hs : Ascii s) (hsep : isAlphanumeric sep = false) (other : Char) :
    lowerJoined other (lowerJoined sep s) = lowerJoined other s := by
  rw [lowerJoined, wordsOf_lowerJoined hs hsep, List.map_map, lowerJoined]
  exact congrArg _ (List.map_congr_left fun word h => lowercase_lowercase (isWord_of_ascii hs h))

theorem upperCamelChars_lowerJoined (hs : Ascii s) (hsep : isAlphanumeric sep = false) :
    lowercase (upperCamelChars (lowerJoined sep s)) = lowercase (upperCamelChars s) := by
  have hwords : ∀ word ∈ wordsOf s, IsWord word := fun _ h => isWord_of_ascii hs h
  have hjoined : ∀ word ∈ wordsOf (lowerJoined sep s), IsWord word := by
    rw [wordsOf_lowerJoined hs hsep]
    exact List.forall_mem_map.mpr fun word h => (hwords word h).lowercase
  rw [lowercase_upperCamelChars hjoined, lowercase_upperCamelChars hwords, wordsOf_lowerJoined hs hsep, List.map_flatten,
    List.map_flatten, List.map_map]
  refine congrArg List.flatten (List.map_congr_left fun word h => ?_)
  rw [Function.comp_apply, ← lowercase_eq (hwords word h).lowercase.2, lowercase_lowercase (hwords word h),
    lowercase_eq (hwords word h).2]

end

/-! ### Names -/

/-- A name without separators and in lower case. -/
def plain (name : String) : String := String.ofList ((name.toList.filter Char.isAlphanum).map Char.toLower)

theorem packageName_of_ascii {name : String} (h : Ascii name.toList) : packageName name = plain name := by
  have hletters : name.toList.filter isAlphanumeric = name.toList.filter Char.isAlphanum :=
    List.filter_congr fun c hc => if_pos (h c hc)
  rw [packageName, lowercase_upperCamelChars fun _ hword => isWord_of_ascii h hword, (spaced_wordsOf _).flatten, hletters,
    plain]

/-- The forms of a name keep what tells it apart, and no form changes when it is made again from another. -/
structure FormsAgree (name : String) : Prop where
  package : packageName name = plain name
  package_snake : packageName (snakeCase name) = packageName name
  package_kebab : packageName (kebabCase name) = packageName name
  snake_snake : snakeCase (snakeCase name) = snakeCase name
  snake_kebab : snakeCase (kebabCase name) = snakeCase name
  kebab_kebab : kebabCase (kebabCase name) = kebabCase name
  kebab_snake : kebabCase (snakeCase name) = kebabCase name

theorem formsAgree {name : String} (h : Ascii name.toList) : FormsAgree name := by
  have hsnake : isAlphanumeric '_' = false := by decide
  have hkebab : isAlphanumeric '-' = false := by decide
  constructor
  · exact packageName_of_ascii h
  all_goals simp only [packageName, snakeCase, kebabCase, String.toList_ofList]
  · rw [upperCamelChars_lowerJoined h hsnake]
  · rw [upperCamelChars_lowerJoined h hkebab]
  · rw [lowerJoined_lowerJoined h hsnake]
  · rw [lowerJoined_lowerJoined h hkebab]
  · rw [lowerJoined_lowerJoined h hkebab]
  · rw [lowerJoined_lowerJoined h hsnake]

/-- Phases have the same worker package exactly if their names differ in case and separators only. -/
theorem workerPackage_tells (p q : Phase) (hp : Ascii p.name.toList) (hq : Ascii q.name.toList) :
    FormsAgree p.name ∧ (p.workerPackage = q.workerPackage ↔ plain p.name = plain q.name) := by
  refine ⟨formsAgree hp, ?_⟩
  rw [Phase.workerPackage, Phase.workerPackage, packageName_of_ascii hp, packageName_of_ascii hq]

/-- A name of three words and a name of one share a package. -/
theorem workerPackage_tells_respelled : Ascii "HTTPServer v2".toList ∧ Ascii "httpserverv2".toList ∧
    FormsAgree "HTTPServer v2" ∧ snakeCase "HTTPServer v2" = "http_server_v2" ∧
    Phase.workerPackage ⟨"HTTPServer v2", none, [], []⟩ = Phase.workerPackage ⟨"httpserverv2", none, [], []⟩ := by
  have hp : Ascii "HTTPServer v2".toList := by decide +kernel
  have hq : Ascii "httpserverv2".toList := by decide +kernel
  have htells := workerPackage_tells ⟨"HTTPServer v2", none, [], []⟩ ⟨"httpserverv2", none, [], []⟩ hp hq
  exact ⟨hp, hq, htells.1, by decide +kernel, htells.2.mpr (by decide +kernel)⟩

end Scaffold.Naming
