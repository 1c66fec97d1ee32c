import Scaffold.GoModule.Directive
import Scaffold.Proofs.Text.Split
import Scaffold.Proofs.Text.Trim

/-! Where a `go.mod` file declares its module path (`directive?_declared`): on its first line that has the word `module`
    and a blank in front of anything else, whatever stands on the lines before and behind. A comment is cut off at its
    slashes (`beforeComment_of_commented`), and carriage returns at the ends of lines do not count
    (`findSome?_lines`). -/

namespace Scaffold.GoModule
open Text

/-! ### Comments -/

/-- The line is `code`, and behind it a comment that begins with the first two slashes, if there is one. -/
structure Commented (line code comment : List Char) : Prop where
  line_eq : line = code ++ comment
  unslashed : ¬['/', '/'] <:+: code
  begins : comment = [] ∨ ['/', '/'] <+: comment ∧ code.getLast? ≠ some '/'

section
variable {line code comment s t : List Char} {c : Char}

theorem beforeComment_cons (h : c = '/' → s.head? ≠ some '/') : beforeComment (c :: s) = c :: beforeComment s := by
  rw [beforeComment]
  rintro rest rfl rfl
  exact h rfl rfl

/-- Texts that have no two slashes in a row, also where they meet, do not change what stands before a comment. -/
theorem beforeComment_append (hs : ¬['/', '/'] <:+: s) (hmeet : s.getLast? = some '/' → t.head? ≠ some '/') :
    beforeComment (s ++ t) = s ++ beforeComment t := by
  induction s with
  | nil => rfl
  | cons c s ih =>
    have hrest : ¬['/', '/'] <:+: s := fun h => hs (h.trans (List.suffix_cons c s).isInfix)
    have hnext : c = '/' → (s ++ t).head? ≠ some '/' := by
      rintro rfl hhead
      cases s with
      | nil => exact hmeet rfl hhead
      | cons d s =>
        obtain rfl : d = '/' := by simpa using hhead
        exact hs (List.prefix_append ['/', '/'] s).isInfix
    rw [List.cons_append, beforeComment_cons hnext, List.cons_append, ih hrest fun hlast => hmeet ?_]
    cases s with
    | nil => cases hlast
    | cons d s => rwa [List.getLast?_cons_cons]

theorem beforeComment_of_begins (h : comment = [] ∨ ['/', '/'] <+: comment) : beforeComment comment = [] := by
  rcases h with rfl | ⟨note, rfl⟩ <;> rfl

theorem beforeComment_of_commented (h : Commented line code comment) : beforeComment line = code := by
  rw [h.line_eq, beforeComment_append h.unslashed, beforeComment_of_begins (h.begins.imp_right And.left), List.append_nil]
  intro hlast
  rcases h.begins with rfl | ⟨-, hcode⟩
  · simp
  · exact absurd hlast hcode

theorem beforeComment_append_of_notMem (hs : '/' ∉ s) : beforeComment (s ++ t) = s ++ beforeComment t :=
  beforeComment_append (fun h => hs (h.subset List.mem_cons_self)) fun hlast => absurd (List.mem_of_getLast? hlast) hs

theorem exists_commented (line : List Char) : ∃ comment, Commented line (beforeComment line) comment := by
  induction line using beforeComment.induct with
  | case1 => exact ⟨[], rfl, by simp [beforeComment], .inl rfl⟩
  | case2 note =>
    exact ⟨'/' :: '/' :: note, rfl, by simp [beforeComment], .inr ⟨⟨note, rfl⟩, by simp [beforeComment]⟩⟩
  | case3 c rest hslashes ih =>
    obtain ⟨comment, hcommented⟩ := ih
    have hnext : c = '/' → rest.head? ≠ some '/' := by
      rintro rfl hhead
      obtain ⟨note, rfl⟩ := List.head?_eq_some_iff.mp hhead
      exact hslashes note rfl rfl
    rw [beforeComment_cons hnext]
    generalize hcode : beforeComment rest = code at hcommented ⊢
    obtain ⟨rfl, hunslashed, hbegins⟩ := hcommented
    refine ⟨comment, rfl, fun h => ?_, hbegins.imp_right fun ⟨hslash, hlast⟩ => ⟨hslash, fun hend => ?_⟩⟩
    · rcases List.infix_cons_iff.mp h with hprefix | hinfix
      · obtain ⟨rfl, hsecond⟩ := List.cons_prefix_cons.mp hprefix
        obtain ⟨tail, rfl⟩ := hsecond
        exact hnext rfl rfl
      · exact hunslashed hinfix
    · cases code with
      | nil =>
        obtain rfl : c = '/' := by simpa using hend
        obtain ⟨note, rfl⟩ := hslash
        exact hnext rfl rfl
      | cons d code =>
        rw [List.getLast?_cons_cons] at hend
        exact hlast hend

end

/-! ### Lines -/

/-- The word that a module path follows. -/
def keyword : List Char := ['m', 'o', 'd', 'u', 'l', 'e']

/-- In front of its comment, the line has the word `module` and a blank in front of anything else. -/
def Opens (line : List Char) : Prop :=
  ∃ code comment, Commented line code comment ∧ ∃ c rest, isBlank c = true ∧ trim code = keyword ++ c :: rest

theorem opens_iff {line : List Char} : Opens line ↔
    ∃ c rest, isBlank c = true ∧ dropStart? keyword (trim (beforeComment line)) = some (c :: rest) := by
  constructor
  · rintro ⟨code, comment, hcommented, c, rest, hblank, hcode⟩
    exact ⟨c, rest, hblank, by rw [beforeComment_of_commented hcommented, hcode, dropStart?_append]⟩
  · rintro ⟨c, rest, hblank, hword⟩
    obtain ⟨comment, hcommented⟩ := exists_commented line
    exact ⟨_, comment, hcommented, c, rest, hblank, dropStart?_eq_some hword⟩

instance (line : List Char) : Decidable (Opens line) :=
  decidable_of_iff ((dropStart? keyword (trim (beforeComment line))).any (·.head?.any isBlank) = true) <| by
    simp [opens_iff, Option.any_eq_true, List.head?_eq_some_iff, and_comm]

theorem directiveOf?_of_not_opens {line : List Char} (h : ¬Opens line) : directiveOf? line = none := by
  unfold directiveOf?
  split
  · next c rest hword =>
    have hblank : ¬isBlank c = true := fun hblank => h (opens_iff.mpr ⟨c, rest, hblank, hword⟩)
    rw [if_neg hblank]
  · rfl

theorem trim_append_of_blank {after : List Char} (hafter : ∀ c ∈ after, isBlank c = true) (s : List Char) :
    trim (s ++ after) = trim s := by
  obtain ⟨front, back, hs, hfront, hback⟩ := exists_margins s
  by_cases hne : trim s = []
  · rw [hne, List.append_nil] at hs
    rw [hne, hs]
    exact trim_of_blank (List.forall_mem_append.mpr ⟨List.forall_mem_append.mpr ⟨hfront, hback⟩, hafter⟩)
  · have htrim := trim_margins (bare_trim s) hne hfront (List.forall_mem_append.mpr ⟨hback, hafter⟩)
    rwa [← List.append_assoc, ← hs] at htrim

theorem directiveOf?_carriage (line : List Char) : directiveOf? (line ++ ['\r']) = directiveOf? line := by
  have htrim : trim (beforeComment (line ++ ['\r'])) = trim (beforeComment line) := by
    obtain ⟨comment, hcommented⟩ := exists_commented line
    rcases hcommented.begins with rfl | ⟨hslash, hlast⟩
    · have hcode : line = beforeComment line := by simpa using hcommented.line_eq
      have hunslashed : ¬['/', '/'] <:+: line := hcode ▸ hcommented.unslashed
      rw [beforeComment_append hunslashed fun _ => by decide, ← hcode]
      exact trim_append_of_blank (List.forall_mem_singleton.mpr rfl) line
    · have hlonger : Commented (line ++ ['\r']) (beforeComment line) (comment ++ ['\r']) :=
        ⟨by rw [← List.append_assoc, ← hcommented.line_eq], hcommented.unslashed,
          .inr ⟨hslash.trans (List.prefix_append ..), hlast⟩⟩
      rw [beforeComment_of_commented hlonger]
  rw [directiveOf?, htrim, directiveOf?]

/-- So it does not matter how lines are ended. -/
theorem findSome?_lines (s : List Char) : (lines s).findSome? directiveOf? = (splitOn '\n' s).findSome? directiveOf? := by
  have hstrip : ∀ piece : List Char, directiveOf? (if piece.getLast? = some '\r' then piece.dropLast else piece) =
      directiveOf? piece := by
    intro piece
    split
    · next hlast =>
      obtain ⟨front, rfl⟩ := List.getLast?_eq_some_iff.mp hlast
      rw [List.dropLast_concat, directiveOf?_carriage]
    · rfl
  have hmap (l : List (List Char)) :
      (l.map fun piece => if piece.getLast? = some '\r' then piece.dropLast else piece).findSome? directiveOf? =
        l.findSome? directiveOf? := by
    rw [List.findSome?_map]
    exact congrArg (List.findSome? · l) (funext hstrip)
  unfold lines
  obtain ⟨front, last, hpieces⟩ : ∃ front last, splitOn '\n' s = front ++ [last] :=
    ⟨_, _, (List.dropLast_append_getLast (splitOn_ne_nil '\n' s)).symm⟩
  simp only [hpieces, List.getLast?_concat, List.dropLast_concat]
  split
  · next hnil =>
    cases hnil
    have hempty : directiveOf? [] = none := rfl
    rw [hmap, List.findSome?_append, List.findSome?_singleton, hempty, Option.or_none]
  · next hlast =>
    cases hlast
    rw [List.findSome?_append, hmap, List.findSome?_append]
  · next hnone => cases hnone

/-! ### The declaring line -/

/-- A text that may be declared as a module path. -/
structure ModulePath (m : List Char) : Prop where
  notEmpty : m ≠ []
  unbroken : '\n' ∉ m
  unslashed : ¬['/', '/'] <:+: m
  first : ∀ c ∈ m.head?, isBlank c = false ∧ c ≠ '"' ∧ c ≠ '`'
  last : ∀ c ∈ m.getLast?, isBlank c = false ∧ c ≠ '"' ∧ c ≠ '`'

/-- How a module path is written: as it is, or in quotes of either kind. -/
inductive Written (m : List Char) : List Char → Prop
  | plain : Written m m
  | quoted {q : Char} (hq : q = '"' ∨ q = '`') : Written m ([q] ++ m ++ [q])

/-- A line that declares the module path `m`. -/
structure Declaration (m : List Char) where
  indent : List Char
  gap : List Char
  written : List Char
  space : List Char
  comment : List Char
  isWritten : Written m written
  indent_blank : ∀ c ∈ indent, isBlank c = true
  gap_blank : ∀ c ∈ gap, isBlank c = true
  space_blank : ∀ c ∈ space, isBlank c = true
  unbroken : '\n' ∉ indent ++ gap ++ space ++ comment
  gap_ne_nil : gap ≠ []
  begins : comment = [] ∨ ['/', '/'] <+: comment
  /-- A slash right in front of the comment would be its first one. -/
  apart : comment ≠ [] → space = [] → written.getLast? ≠ some '/'

/-- The text of the line. -/
def Declaration.line {m : List Char} (d : Declaration m) : List Char :=
  d.indent ++ (keyword ++ (d.gap ++ (d.written ++ (d.space ++ d.comment))))

section
variable {m written s t : List Char} {c : Char}

theorem slash_notMem_of_blank (h : ∀ c ∈ s, isBlank c = true) : '/' ∉ s := fun hslash =>
  absurd (h '/' hslash) (by decide)

theorem Written.beforeComment_append (hw : Written m written) (hm : ModulePath m)
    (hmeet : written.getLast? = some '/' → t.head? ≠ some '/') :
    beforeComment (written ++ t) = written ++ beforeComment t := by
  cases hw with
  | plain => exact GoModule.beforeComment_append hm.unslashed hmeet
  | @quoted q hq =>
    have hslash : '/' ∉ [q] := by rcases hq with rfl | rfl <;> decide
    have hclosing : m.getLast? = some '/' → ([q] ++ t).head? ≠ some '/' := fun _ => by simpa [eq_comm] using hslash
    simp only [List.append_assoc]
    rw [beforeComment_append_of_notMem hslash, GoModule.beforeComment_append hm.unslashed hclosing,
      beforeComment_append_of_notMem hslash]

theorem Written.bare (hw : Written m written) (hm : ModulePath m) : Text.Bare written ∧ written ≠ [] := by
  cases hw with
  | plain => exact ⟨⟨fun c hc => (hm.first c hc).1, fun c hc => (hm.last c hc).1⟩, hm.notEmpty⟩
  | @quoted q hq =>
    have hblank : isBlank q = false := by rcases hq with rfl | rfl <;> decide
    have hlast : ([q] ++ m ++ [q]).getLast? = some q := List.getLast?_concat
    refine ⟨⟨by simpa using hblank, fun c hc => ?_⟩, by simp⟩
    rw [hlast] at hc
    cases hc
    exact hblank

theorem Written.unbroken (hw : Written m written) (hm : ModulePath m) : '\n' ∉ written := by
  cases hw with
  | plain => exact hm.unbroken
  | quoted hq => rcases hq with rfl | rfl <;> simp [hm.unbroken]

theorem trimChar_append {front back : List Char} (hfront : ∀ x ∈ front, x = c) (hback : ∀ x ∈ back, x = c)
    (hne : s ≠ []) (hfirst : ∀ x ∈ s.head?, x ≠ c) (hlast : ∀ x ∈ s.getLast?, x ≠ c) :
    trimChar c (front ++ s ++ back) = s := by
  obtain ⟨x, rest, rfl⟩ := List.exists_cons_of_ne_nil hne
  have hx : x ≠ c := hfirst x rfl
  rw [trimChar, List.append_assoc, List.dropWhile_append_of_pos (by simpa using hfront), List.cons_append,
    List.dropWhile_cons_of_neg (by simpa using hx), ← List.cons_append]
  exact dropEndWhile_append (by simpa using hlast) (by simpa using hback)

theorem trimChar_of_ends (hne : s ≠ []) (hfirst : ∀ x ∈ s.head?, x ≠ c) (hlast : ∀ x ∈ s.getLast?, x ≠ c) :
    trimChar c s = s := by
  have htrim : trimChar c ([] ++ s ++ []) = s :=
    trimChar_append (List.forall_mem_nil _) (List.forall_mem_nil _) hne hfirst hlast
  rwa [List.nil_append, List.append_nil] at htrim

theorem Written.unquoted (hw : Written m written) (hm : ModulePath m) : trimChar '`' (trimChar '"' written) = m := by
  have hdouble : (∀ x ∈ m.head?, x ≠ '"') ∧ ∀ x ∈ m.getLast?, x ≠ '"' :=
    ⟨fun x hx => (hm.first x hx).2.1, fun x hx => (hm.last x hx).2.1⟩
  have hback : (∀ x ∈ m.head?, x ≠ '`') ∧ ∀ x ∈ m.getLast?, x ≠ '`' :=
    ⟨fun x hx => (hm.first x hx).2.2, fun x hx => (hm.last x hx).2.2⟩
  cases hw with
  | plain => rw [trimChar_of_ends hm.notEmpty hdouble.1 hdouble.2, trimChar_of_ends hm.notEmpty hback.1 hback.2]
  | quoted hq =>
    rcases hq with rfl | rfl
    · rw [trimChar_append (by simp) (by simp) hm.notEmpty hdouble.1 hdouble.2,
        trimChar_of_ends hm.notEmpty hback.1 hback.2]
    · have hlast : (['`'] ++ m ++ ['`']).getLast? = some '`' := List.getLast?_concat
      have hkept : trimChar '"' (['`'] ++ m ++ ['`']) = ['`'] ++ m ++ ['`'] :=
        trimChar_of_ends (by simp) (by simp) (by rw [hlast]; simp)
      rw [hkept, trimChar_append (by simp) (by simp) hm.notEmpty hback.1 hback.2]

theorem Declaration.beforeComment_line (d : Declaration m) (hm : ModulePath m) :
    beforeComment d.line = d.indent ++ (keyword ++ (d.gap ++ (d.written ++ d.space))) := by
  have hmeet : d.written.getLast? = some '/' → (d.space ++ d.comment).head? ≠ some '/' := by
    intro hslash
    cases hspace : d.space with
    | nil =>
      by_cases hcomment : d.comment = []
      · simp [hcomment]
      · exact absurd hslash (d.apart hcomment hspace)
    | cons c rest =>
      have hc : c ≠ '/' := by
        rintro rfl
        exact slash_notMem_of_blank d.space_blank (hspace ▸ List.mem_cons_self)
      simpa using hc
  rw [line, beforeComment_append_of_notMem (slash_notMem_of_blank d.indent_blank),
    beforeComment_append_of_notMem (by decide), beforeComment_append_of_notMem (slash_notMem_of_blank d.gap_blank),
    d.isWritten.beforeComment_append hm hmeet, beforeComment_append_of_notMem (slash_notMem_of_blank d.space_blank),
    beforeComment_of_begins d.begins, List.append_nil]

theorem Declaration.directiveOf?_line (d : Declaration m) (hm : ModulePath m) : directiveOf? d.line = some m := by
  obtain ⟨hbare, hne⟩ := d.isWritten.bare hm
  have hbody : Text.Bare (keyword ++ (d.gap ++ d.written)) := by
    refine ⟨by simp [keyword]; decide, fun c hc => hbare.last c ?_⟩
    rwa [← List.append_assoc, List.getLast?_append_of_ne_nil _ hne] at hc
  have hcode : trim (beforeComment d.line) = keyword ++ (d.gap ++ d.written) := by
    rw [d.beforeComment_line hm, ← trim_margins hbody (by simp [keyword]) d.indent_blank d.space_blank]
    simp only [List.append_assoc]
  obtain ⟨c, gap, hgap⟩ := List.exists_cons_of_ne_nil d.gap_ne_nil
  have hblank : isBlank c = true := d.gap_blank c (hgap ▸ List.mem_cons_self)
  have hpath : trim (c :: (gap ++ d.written)) = d.written := by
    have htrim : trim (d.gap ++ d.written ++ []) = d.written :=
      trim_margins hbare hne d.gap_blank (List.forall_mem_nil _)
    rwa [List.append_nil, hgap] at htrim
  have hword : dropStart? ['m', 'o', 'd', 'u', 'l', 'e'] (keyword ++ (d.gap ++ d.written)) = some (d.gap ++ d.written) :=
    dropStart?_append keyword _
  rw [directiveOf?, hcode, hword, hgap]
  simp only [List.cons_append, hblank, if_true, hpath, d.isWritten.unquoted hm]
  obtain ⟨x, rest, rfl⟩ := List.exists_cons_of_ne_nil hm.notEmpty
  rfl

end

/-! ### Files -/

/-- A line with its end, which is a line feed, with a carriage return in front or without. -/
structure EndedLine where
  text : List Char
  mark : List Char
  unbroken : '\n' ∉ text
  mark_mem : mark ∈ [['\n'], ['\r', '\n']]

/-- The line as it stands in a file. -/
def EndedLine.chars (l : EndedLine) : List Char := l.text ++ l.mark

theorem EndedLine.findSome?_splitOn (l : EndedLine) (rest : List Char) :
    (splitOn '\n' (l.chars ++ rest)).findSome? directiveOf? =
      (directiveOf? l.text).or ((splitOn '\n' rest).findSome? directiveOf?) := by
  obtain ⟨piece, hpiece, hfree, hdirective⟩ : ∃ piece, l.chars ++ rest = piece ++ '\n' :: rest ∧ '\n' ∉ piece ∧
      directiveOf? piece = directiveOf? l.text := by
    have hmark := l.mark_mem
    simp only [List.mem_cons, List.not_mem_nil, or_false] at hmark
    rcases hmark with hmark | hmark
    · exact ⟨l.text, by simp [chars, hmark], l.unbroken, rfl⟩
    · exact ⟨l.text ++ ['\r'], by simp [chars, hmark], by simp [l.unbroken], directiveOf?_carriage _⟩
  rw [hpiece, splitOn_append_cons, splitOn_of_notMem hfree, List.findSome?_append, List.findSome?_singleton, hdirective]

theorem findSome?_after {earlier : List EndedLine} (h : ∀ line ∈ earlier, ¬Opens line.text) (rest : List Char) :
    (splitOn '\n' (earlier.flatMap EndedLine.chars ++ rest)).findSome? directiveOf? =
      (splitOn '\n' rest).findSome? directiveOf? := by
  induction earlier with
  | nil => rfl
  | cons line earlier ih =>
    obtain ⟨hline, hearlier⟩ := List.forall_mem_cons.mp h
    rw [List.flatMap_cons, List.append_assoc, line.findSome?_splitOn, directiveOf?_of_not_opens hline, Option.none_or,
      ih hearlier]

/-- The module path of a file is the one on the first line that opens a directive, however that line is written and ended. -/
theorem directive?_declared {m : List Char} (hm : ModulePath m) {earlier : List EndedLine}
    (hearlier : ∀ line ∈ earlier, ¬Opens line.text) (d : Declaration m) {later : List Char}
    (hlater : later = [] ∨ ['\n'] <+: later ∨ ['\r', '\n'] <+: later) :
    directive? (String.ofList (earlier.flatMap EndedLine.chars ++ (d.line ++ later))) = some (String.ofList m) := by
  have hunbroken : '\n' ∉ d.line := by
    have hparts := d.unbroken
    simp only [List.mem_append, not_or] at hparts
    simp [Declaration.line, keyword, hparts, d.isWritten.unbroken hm]
  have hfirst : (splitOn '\n' (d.line ++ later)).findSome? directiveOf? = some m := by
    rcases hlater with rfl | ⟨rest, rfl⟩ | ⟨rest, rfl⟩
    · rw [List.append_nil, splitOn_of_notMem hunbroken, List.findSome?_singleton, d.directiveOf?_line hm]
    · have hended := EndedLine.findSome?_splitOn ⟨d.line, ['\n'], hunbroken, by simp⟩ rest
      rwa [EndedLine.chars, d.directiveOf?_line hm, Option.some_or, List.append_assoc] at hended
    · have hended := EndedLine.findSome?_splitOn ⟨d.line, ['\r', '\n'], hunbroken, by simp⟩ rest
      rwa [EndedLine.chars, d.directiveOf?_line hm, Option.some_or, List.append_assoc] at hended
  rw [directive?, String.toList_ofList, findSome?_lines, findSome?_after hearlier, hfirst, Option.map_some]

/-! A file whose first lines only look like directives, as comments, longer words or bare words do. -/

/-- Lines that open no directive. -/
def passedLines : List EndedLine :=
  [⟨"// module a".toList, ['\n'], by decide +kernel, by decide⟩,
    ⟨"modules of a kind".toList, ['\r', '\n'], by decide +kernel, by decide⟩,
    ⟨"  module // none".toList, ['\n'], by decide +kernel, by decide⟩]

/-- An indented directive with a path in quotes and a comment. -/
def quotedDeclaration : Declaration "example.com/op".toList where
  indent := ['\t']
  gap := [' ']
  written := ['"'] ++ "example.com/op".toList ++ ['"']
  space := [' ']
  comment := "// module b".toList
  isWritten := .quoted (.inl rfl)
  indent_blank := List.forall_mem_singleton.mpr rfl
  gap_blank := List.forall_mem_singleton.mpr rfl
  space_blank := List.forall_mem_singleton.mpr rfl
  unbroken := by decide +kernel
  gap_ne_nil := by decide
  begins := .inr (by decide +kernel)
  apart := by decide +kernel

theorem directive?_declared_late : ModulePath "example.com/op".toList ∧ (∀ line ∈ passedLines, ¬Opens line.text) ∧
    directive? (String.ofList (passedLines.flatMap EndedLine.chars ++ (quotedDeclaration.line ++ "\r\nmodule c".toList))) =
      some (String.ofList "example.com/op".toList) := by
  have hpath : ModulePath "example.com/op".toList := by
    have hfirst : "example.com/op".toList.head? = some 'e' := by decide +kernel
    have hlast : "example.com/op".toList.getLast? = some 'p' := by decide +kernel
    refine ⟨by decide +kernel, by decide +kernel, by decide +kernel, ?_, ?_⟩
    · rw [hfirst]
      rintro c ⟨⟩
      decide
    · rw [hlast]
      rintro c ⟨⟩
      decide
  have hpassed : ∀ line ∈ passedLines, ¬Opens line.text := by
    simp only [passedLines, List.forall_mem_cons]
    decide +kernel
  exact ⟨hpath, hpassed, directive?_declared hpath hpassed quotedDeclaration (.inr (.inr (by decide +kernel)))⟩

end Scaffold.GoModule
