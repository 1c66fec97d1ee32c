import Scaffold.Proofs.Yaml.Flow
import Scaffold.Proofs.Yaml.Literal

/-! What is written for data is made of whole lines of printable characters. -/

namespace Scaffold.Yaml
open Written

/-- Every character is printable. -/
def IsClean (text : List Char) : Prop := ∀ c ∈ text, isPrintable c = true

instance (text : List Char) : Decidable (IsClean text) := List.decidableBAll _ text

theorem isClean_nil : IsClean [] := List.forall_mem_nil _

/-- Printable text through the end of a line. -/
structure IsLines (text : List Char) : Prop where
  clean : IsClean text
  last : ∃ front c, text = front ++ [c] ∧ breaksLine c = true

section
variable {text : List Char}

theorem IsClean.append {a b : List Char} (ha : IsClean a) (hb : IsClean b) : IsClean (a ++ b) :=
  List.forall_mem_append.mpr ⟨ha, hb⟩

theorem IsClean.cons {c : Char} (hc : isPrintable c = true) (h : IsClean text) : IsClean (c :: text) :=
  List.forall_mem_cons.mpr ⟨hc, h⟩

theorem isClean_spaces (n : Nat) : IsClean (spaces n) := fun _ hc => List.eq_of_mem_replicate hc ▸ by decide

theorem IsLines.prepend (h : IsLines text) {front : List Char} (hfront : IsClean front) : IsLines (front ++ text) := by
  obtain ⟨start, c, rfl, hc⟩ := h.last
  exact ⟨hfront.append h.clean, front ++ start, c, by simp, hc⟩

theorem IsLines.cons (h : IsLines text) {c : Char} (hc : isPrintable c = true) : IsLines (c :: text) :=
  h.prepend (List.forall_mem_singleton.mpr hc)

theorem IsLines.column_behind (h : IsLines text) (m : Mark) : (m.behind text).column = 0 := by
  obtain ⟨start, c, rfl, hc⟩ := h.last
  exact m.column_behind_break start ((isBreak_eq_breaksLine (h.clean c (by simp))).trans hc)

theorem isLines_endLine (h : IsClean text) : IsLines (endLine text) := by
  rcases List.eq_nil_or_concat text with rfl | ⟨front, c, hlast⟩
  · exact ⟨by decide, [], '\n', rfl, by decide⟩
  · obtain rfl : text = front ++ [c] := hlast.trans (List.concat_eq_append ..)
    cases hc : breaksLine c with
    | true =>
      rw [endLine_of_break hc]
      exact ⟨h, front, c, rfl, hc⟩
    | false =>
      rw [endLine_of_not_break hc]
      exact ⟨h.append (by decide), front ++ [c], '\n', rfl, by decide⟩

/-! ### Scalars -/

theorem isPrintable_of_plainAllowed (h : plainAllowed text = true) : ∀ d ∈ text, isPrintable d = true := by
  simp only [plainAllowed, Bool.and_eq_true, List.all_eq_true] at h
  exact h.1.1.1.1.1.1

theorem breaksLine_of_plainAllowed (h : plainAllowed text = true) : ∀ d ∈ text, breaksLine d = false := by
  simp only [plainAllowed, Bool.and_eq_true, Bool.not_eq_true', List.any_eq_false, Bool.not_eq_true] at h
  exact h.1.1.1.1.1.2

/-- Each style is used for texts that it keeps. -/
inductive IsStyled (text : String) : Style → Prop
  | literal (hne : text.toList ≠ []) (h : literalAllowed text.toList = true) : IsStyled text .literal
  | double : IsStyled text .double
  | plain (htyped : looksTyped text = false) (h : plainAllowed text.toList = true) : IsStyled text .plain
  | single (hline : text.toList.contains '\n' = false) (h : singleAllowed text.toList = true) : IsStyled text .single

theorem isStyled_styleOf (text : String) : IsStyled text (styleOf text) := by
  rw [styleOf]
  by_cases hline : text.toList.contains '\n' = true
  · rw [if_pos hline]
    split
    · next h => exact .literal (by rintro hnil; rw [hnil] at hline; cases hline) h
    · exact .double
  · rw [if_neg hline]
    split
    · next h =>
      rw [Bool.and_eq_true, Bool.not_eq_true'] at h
      exact .plain h.1 h.2
    · split
      · next h => exact .single (Bool.not_eq_true _ ▸ hline) h
      · exact .double

theorem isClean_singleFrom {indent : Nat} : ∀ {text : List Char} {broken : Bool}, IsClean text →
    IsClean (singleFrom indent broken text)
  | [], broken, _ => by
    rw [singleFrom]
    split
    · exact isClean_spaces indent
    · exact isClean_nil
  | c :: text, broken, h => by
    obtain ⟨hc, htext⟩ := List.forall_mem_cons.mp h
    rw [singleFrom]
    split
    · exact .cons hc (isClean_singleFrom htext)
    split
    · exact .cons hc (isClean_singleFrom htext)
    refine .append (.append ?_ ?_) (isClean_singleFrom htext)
    · split
      · exact isClean_spaces indent
      · exact isClean_nil
    · split
      · exact by decide
      · exact .cons hc isClean_nil

theorem isClean_literalFrom {indent : Nat} : ∀ {text : List Char} {broken : Bool}, IsClean text →
    IsClean (literalFrom indent broken text)
  | [], _, _ => isClean_nil
  | c :: text, broken, h => by
    obtain ⟨hc, htext⟩ := List.forall_mem_cons.mp h
    rw [literalFrom]
    split
    · exact .cons hc (isClean_literalFrom htext)
    refine .append ?_ (.cons hc (isClean_literalFrom htext))
    split
    · exact isClean_spaces indent
    · exact isClean_nil

theorem isClean_hexDigits : ∀ (width n : Nat), IsClean (Text.hexDigits 'A' width n)
  | 0, _ => by simp [Text.hexDigits, IsClean]
  | width + 1, n => by
    have hdigit : ∀ d < 16, isPrintable (Char.ofNat (if d < 10 then 48 + d else 'A'.toNat + (d - 10))) = true := by decide
    rw [Text.hexDigits]
    exact (isClean_hexDigits width _).append (List.forall_mem_singleton.mpr (hdigit _ (Nat.mod_lt _ (by decide))))

theorem isClean_doubleChar (c : Char) : IsClean (doubleChar c) := by
  rw [doubleChar]
  split
  · refine .cons (by decide) ?_
    rw [escapeBody]
    iterate 15 refine iteInduction (fun _ => by decide) fun _ => ?_
    refine iteInduction (fun _ => .cons (by decide) (isClean_hexDigits _ _)) fun _ => ?_
    refine iteInduction (fun _ => .cons (by decide) (isClean_hexDigits _ _)) fun _ => ?_
    exact .cons (by decide) (isClean_hexDigits _ _)
  · next h =>
    simp only [Bool.not_eq_true, Bool.or_eq_false_iff, Bool.not_eq_false'] at h
    exact List.forall_mem_singleton.mpr h.1.1.1

theorem isClean_flatMap_doubleChar (text : List Char) : IsClean (text.flatMap doubleChar) := by
  intro d hd
  obtain ⟨c, -, hc⟩ := List.mem_flatMap.mp hd
  exact isClean_doubleChar c d hc

theorem isClean_literalHeader (text : List Char) : IsClean (literalHeader text) := by
  rw [literalHeader_eq, headerEnd]
  cases beginsBlank text <;> cases endingOf text <;> decide

theorem isClean_scalar (indent : Nat) (text : String) : IsClean (scalar indent text) := by
  have hstyled := isStyled_styleOf text
  rw [scalar]
  revert hstyled
  generalize styleOf text = style
  intro hstyled
  cases hstyled with
  | literal hne h =>
    simp only [literalAllowed, Bool.and_eq_true, List.all_eq_true] at h
    exact (isClean_literalHeader _).append (.cons (by decide) (isClean_literalFrom h.1.1))
  | double => exact .cons (by decide) ((isClean_flatMap_doubleChar _).append (by decide))
  | plain htyped h => exact isPrintable_of_plainAllowed h
  | single hline h =>
    simp only [singleAllowed, Bool.and_eq_true, List.all_eq_true] at h
    exact .cons (by decide) ((isClean_singleFrom h.1.1).append (by decide))

end

/-! ### Data -/

namespace Data

/-- A word that needs no quotes. -/
def IsWord (s : String) : Prop := s ≠ "" ∧ plainAllowed s.toList = true

instance (s : String) : Decidable (IsWord s) := inferInstanceAs (Decidable (_ ∧ _))

/-- Data that may be an item: a sequence with items would stand at the column of the outer one. -/
def IsItem : Data → Prop
  | .list (_ :: _) => False
  | _ => True

/-- What is written behind the hyphen of an item. -/
def itemChars (indent : Nat) : Data → List Char
  | .record (f :: fields) => ' ' :: joinLines (indent + 2) (fieldLines (indent + 2) (f :: fields))
  | d => valueChars indent d

theorem itemLines_cons (indent : Nat) (d : Data) (items : List Data) :
    itemLines indent (d :: items) = ('-' :: itemChars indent d) :: itemLines indent items := by
  cases d with
  | record fields => cases fields <;> rfl
  | _ => rfl

mutual
/-- Data that is read back: no words that need quotes, and no sequence right inside another one. -/
def ReadsBack : Data → Prop
  | .text _ => True
  | .word s => IsWord s
  | .list items => ItemsReadBack items
  | .record fields => FieldsReadBack fields

/-- The items of a sequence that is read back. -/
def ItemsReadBack : List Data → Prop
  | [] => True
  | d :: rest => IsItem d ∧ ReadsBack d ∧ ItemsReadBack rest

/-- The fields of a mapping that is read back. -/
def FieldsReadBack : List (String × Data) → Prop
  | [] => True
  | (_, d) :: rest => ReadsBack d ∧ FieldsReadBack rest
end

theorem itemsReadBack_iff : ∀ {items : List Data}, ItemsReadBack items ↔ ∀ d ∈ items, IsItem d ∧ ReadsBack d
  | [] => by simp [ItemsReadBack]
  | d :: items => by rw [ItemsReadBack, List.forall_mem_cons, itemsReadBack_iff, and_assoc]

theorem fieldsReadBack_iff : ∀ {fields : List (String × Data)}, FieldsReadBack fields ↔ ∀ f ∈ fields, ReadsBack f.2
  | [] => by simp [FieldsReadBack]
  | (key, d) :: fields => by rw [FieldsReadBack, List.forall_mem_cons, fieldsReadBack_iff]

theorem readsBack_texts (items : List String) : ReadsBack (texts items) := by
  rw [texts, ReadsBack, itemsReadBack_iff]
  exact List.forall_mem_map.mpr fun _ _ => ⟨trivial, trivial⟩

theorem isLines_joinLines {indent : Nat} : ∀ {line : List Char} {lines : List (List Char)}, (∀ l ∈ line :: lines, IsLines l) →
    IsLines (joinLines indent (line :: lines))
  | line, [], h => h line List.mem_cons_self
  | line, next :: lines, h => by
    obtain ⟨hline, hlines⟩ := List.forall_mem_cons.mp h
    rw [joinLines, List.append_assoc]
    · exact ((isLines_joinLines hlines).prepend (isClean_spaces indent)).prepend hline.clean
    · simp

theorem isClean_keyChars (indent : Nat) (key : String) : IsClean (keyChars indent key) := by
  have hscalar := isClean_scalar (indent + 2) key
  have hmarked : IsClean (['?', ' '] ++ endLine (scalar (indent + 2) key)) := .append (by decide) (isLines_endLine hscalar).clean
  rw [keyChars]
  split
  · exact hscalar.append (by decide)
  · exact (hmarked.append (isClean_spaces indent)).append (by decide)

mutual
theorem isLines_valueChars : ∀ {d : Data}, ReadsBack d → ∀ indent, IsLines (valueChars indent d)
  | .text s, _, indent => by
    rw [valueChars]
    exact (isLines_endLine (isClean_scalar _ s)).cons (by decide)
  | .word s, h, _ => by
    have hword : IsClean (' ' :: s.toList) := .cons (by decide) (isPrintable_of_plainAllowed h.2)
    rw [valueChars]
    exact ⟨hword.append (by decide), ' ' :: s.toList, '\n', rfl, by decide⟩
  | .list [], _, _ => ⟨by rw [valueChars]; decide, [' ', '[', ']'], '\n', rfl, by decide⟩
  | .list (d :: items), h, indent => by
    rw [ReadsBack] at h
    have hlines := isLines_itemLines h indent
    rw [itemLines_cons] at hlines
    rw [valueChars, itemLines_cons]
    exact (isLines_joinLines hlines).prepend (.cons (by decide) (isClean_spaces indent))
  | .record [], _, _ => ⟨by rw [valueChars]; decide, [' ', '\x7b', '\x7d'], '\n', rfl, by decide⟩
  | .record ((key, d) :: fields), h, indent => by
    rw [ReadsBack] at h
    have hlines := isLines_fieldLines h (indent + 2)
    rw [fieldLines] at hlines
    rw [valueChars, fieldLines]
    exact (isLines_joinLines hlines).prepend (.cons (by decide) (isClean_spaces (indent + 2)))

theorem isLines_itemLines : ∀ {items : List Data}, ItemsReadBack items → ∀ indent, ∀ line ∈ itemLines indent items, IsLines line
  | [], _, indent => by simp [itemLines]
  | d :: items, h, indent => by
    rw [ItemsReadBack] at h
    have hd : IsLines (itemChars indent d) := by
      match d, h.2.1 with
      | .record ((key, d) :: fields), h =>
        rw [ReadsBack] at h
        have hlines := isLines_fieldLines h (indent + 2)
        rw [fieldLines] at hlines
        rw [itemChars, fieldLines]
        exact (isLines_joinLines hlines).cons (by decide)
      | .record [], h => exact isLines_valueChars h indent
      | .text s, h => exact isLines_valueChars h indent
      | .word s, h => exact isLines_valueChars h indent
      | .list items, h => exact isLines_valueChars h indent
    rw [itemLines_cons]
    exact List.forall_mem_cons.mpr ⟨hd.cons (by decide), isLines_itemLines h.2.2 indent⟩

theorem isLines_fieldLines : ∀ {fields : List (String × Data)}, FieldsReadBack fields → ∀ indent,
    ∀ line ∈ fieldLines indent fields, IsLines line
  | [], _, indent => by simp [fieldLines]
  | (key, d) :: fields, h, indent => by
    rw [FieldsReadBack] at h
    rw [fieldLines]
    exact List.forall_mem_cons.mpr ⟨(isLines_valueChars h.1 indent).prepend (isClean_keyChars indent key),
      isLines_fieldLines h.2 indent⟩
end

theorem isLines_fields {f : String × Data} {fields : List (String × Data)} (h : FieldsReadBack (f :: fields)) (indent : Nat) :
    IsLines (joinLines indent (fieldLines indent (f :: fields))) := by
  have hlines := isLines_fieldLines h indent
  rw [fieldLines] at hlines ⊢
  exact isLines_joinLines hlines

theorem isLines_item {d : Data} {items : List Data} (h : ItemsReadBack (d :: items)) (indent : Nat) :
    IsLines ('-' :: itemChars indent d) := by
  have hlines := isLines_itemLines h indent
  rw [itemLines_cons] at hlines
  exact hlines _ List.mem_cons_self

end Data

end Scaffold.Yaml
