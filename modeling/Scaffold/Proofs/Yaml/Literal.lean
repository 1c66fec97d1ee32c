import Scaffold.Proofs.Yaml.Cells

/-! Literal scalars are read back. The header says how the text ends, and gives the step of the indentation where the
    first line does not show it; the lines themselves are then read one after another at a known margin. -/

namespace Scaffold.Yaml
open Written

/-! ### Headers -/

/-- How the end of a text is written. -/
def endingOf (text : List Char) : Chomping :=
  match text.reverse with
  | c :: d :: _ => if !breaksLine c then .strip else if breaksLine d then .keep else .clip
  | [c] => if breaksLine c then .keep else .strip
  | [] => .strip

def Chomping.sign : Chomping → List Char
  | .strip => ['-']
  | .clip => []
  | .keep => ['+']

/-- Whether the first line does not show the indentation. -/
def beginsBlank : List Char → Bool
  | c :: _ => c = ' ' || breaksLine c
  | [] => false

/-- What stands in a header behind the indicator. -/
def headerEnd (text : List Char) : List Char := (if beginsBlank text then ['2'] else []) ++ (endingOf text).sign

theorem literalHeader_eq (text : List Char) : literalHeader text = '|' :: headerEnd text := by
  have hbegins : (match text with
      | c :: _ => if c = ' ' || breaksLine c then ['2'] else []
      | [] => []) = if beginsBlank text then ['2'] else [] := by
    cases text with
    | nil => rfl
    | cons c text => rfl
  have hends : (match text.reverse with
      | c :: d :: _ => if !breaksLine c then ['-'] else if breaksLine d then ['+'] else []
      | [c] => if breaksLine c then ['+'] else ['-']
      | [] => ['-']) = (endingOf text).sign := by
    unfold endingOf
    split
    · split
      · rfl
      · split <;> rfl
    · split <;> rfl
    · rfl
  rw [headerEnd, ← hbegins, ← hends]
  rfl

theorem blockHeader?_headerEnd (text rest : List Char) (m : Mark) :
    blockHeader? (cellsFrom m (headerEnd text ++ '\n' :: rest)) =
      some ⟨endingOf text, if beginsBlank text then some 2 else none,
        cellsFrom (m.behind (headerEnd text ++ ['\n'])) rest⟩ := by
  unfold headerEnd
  cases beginsBlank text <;> cases endingOf text <;> rfl

/-! ### Lines -/

/-- Whether a text that goes on after a break or within a line ends with a break. -/
def breaksAfter (broken : Bool) (text : List Char) : Bool := text.foldl (fun _ c => breaksLine c) broken

/-- What has been read of a literal scalar is `text`; within a line all of it has been put down. -/
structure BlockText.Holds (b : BlockText) (broken : Bool) (text : List Char) : Prop where
  content : b.trailing ++ (b.leading.toList ++ b.text) = text.reverse
  line : broken = false → b.leading = none ∧ b.trailing = []

section
variable {b : BlockText} {chomping : Chomping} {n : Nat} {m : Mark} {c : Char} {broken : Bool} {front text tail : List Char}

/-- The margin of a line is passed over, whether it is known or still to be found. -/
theorem blockFrom_spaces {margin : Margin} : ∀ {k : Nat} {m : Mark}, (∀ column < m.column + k, margin.covers column = true) →
    blockFrom false chomping b margin false (cellsFrom m (spaces k ++ tail)) =
      blockFrom false chomping b margin false (cellsFrom (m.behind (spaces k)) tail)
  | 0, _, _ => rfl
  | k + 1, m, h => by
    have hcolumn : (m.after ' ').column = m.column + 1 := rfl
    have hcovers : margin.covers m.column = true := h _ (by omega)
    have hlater : ∀ column < (m.after ' ').column + k, margin.covers column = true := fun column hlt => h column (by omega)
    have hfirst : blockFrom false chomping b margin false (cellsFrom m (spaces (k + 1) ++ tail)) =
        blockFrom false chomping b margin false (cellsFrom (m.after ' ') (spaces k ++ tail)) := by
      simp [spaces, List.replicate_succ, cellsFrom, blockFrom, hcovers]
    rw [hfirst, blockFrom_spaces hlater]
    rfl

/-- A break ends the line, or stands on a line of its own. -/
theorem BlockText.Holds.break (h : b.Holds broken front) (chomping : Chomping) (n : Nat) (tail : List Char) (m : Mark)
    (hprintable : isPrintable c = true) (hc : breaksLine c = true) :
    ∃ b' : BlockText, b'.Holds true (front ++ [c]) ∧ (broken = false → b'.leading = some c ∧ b'.trailing = []) ∧
      blockFrom false chomping b (.known n) (!broken) (cellsFrom m (c :: tail)) =
        blockFrom false chomping b' (.known n) false (cellsFrom (m.after c) tail) := by
  have hbreak : isBreak c = true := (isBreak_eq_breaksLine hprintable).trans hc
  cases broken with
  | false =>
    obtain ⟨hleading, htrailing⟩ := h.line rfl
    refine ⟨{ b with leading := some c }, ⟨?_, by simp⟩, fun _ => ⟨rfl, htrailing⟩, by simp [cellsFrom, blockFrom, hbreak]⟩
    simpa [htrailing, hleading] using h.content
  | true =>
    have hspace : c ≠ ' ' := by
      rintro rfl
      cases hc
    have htab : c ≠ '\t' := ne_of_isPrintable hprintable (by decide)
    refine ⟨{ b with trailing := c :: b.trailing }, ⟨?_, by simp⟩, by simp, ?_⟩
    · simpa using h.content
    · simp [cellsFrom, blockFrom, hbreak, hspace, htab, Margin.widen]

/-- A character that breaks no line is put down, behind the margin of its line. -/
theorem BlockText.Holds.char (h : b.Holds broken front) (chomping : Chomping) (n : Nat) (tail : List Char)
    (hprintable : isPrintable c = true) (hc : breaksLine c = false) (hm : broken = true → m.column = 0) :
    ∃ b' : BlockText, b'.Holds false (front ++ [c]) ∧
      blockFrom false chomping b (.known n) (!broken)
        (cellsFrom m ((if broken then spaces n else []) ++ c :: tail)) =
          blockFrom false chomping b' (.known n) true
            (cellsFrom (m.behind ((if broken then spaces n else []) ++ [c])) tail) := by
  have hbreak : isBreak c = false := (isBreak_eq_breaksLine hprintable).trans hc
  cases broken with
  | false =>
    obtain ⟨hleading, htrailing⟩ := h.line rfl
    refine ⟨{ b with text := c :: b.text }, ⟨?_, fun _ => ⟨hleading, htrailing⟩⟩, ?_⟩
    · simpa [htrailing, hleading] using h.content
    · simp [cellsFrom, blockFrom, hbreak, Mark.behind]
  | true =>
    have hcolumn : (m.behind (spaces n)).column = n := by
      rw [Mark.behind_spaces, hm rfl]
      exact Nat.zero_add n
    have hcovers : ∀ column < m.column + n, (Margin.known n).covers column = true := fun column hlt => by
      simpa [Margin.covers, hm rfl] using hlt
    refine ⟨⟨c :: (b.trailing ++ (b.leading.toList ++ b.text)), none, [], isSpaceOrTab c⟩, ⟨?_, by simp⟩, ?_⟩
    · simp [h.content]
    · simp only [if_true, Bool.not_true]
      rw [blockFrom_spaces hcovers, cellsFrom, blockFrom]
      simp [hcolumn, Margin.covers, Margin.widen, Margin.width, hbreak, BlockText.beforeLine, Mark.behind_append,
        Mark.behind_cons]
      rfl

theorem BlockText.Holds.lines : ∀ {text front : List Char} {b : BlockText} {broken : Bool} {m : Mark},
    b.Holds broken front → ∀ (chomping : Chomping) (n : Nat) (tail : List Char), (∀ c ∈ text, isPrintable c = true) →
    (broken = true → m.column = 0) → ∃ b' : BlockText, b'.Holds (breaksAfter broken text) (front ++ text) ∧
      blockFrom false chomping b (.known n) (!broken) (cellsFrom m (literalFrom n broken text ++ tail)) =
        blockFrom false chomping b' (.known n) (!breaksAfter broken text)
          (cellsFrom (m.behind (literalFrom n broken text)) tail)
  | [], front, b, broken, m, h, _, _, _, _, _ => ⟨b, by simpa [breaksAfter] using h, rfl⟩
  | c :: text, front, b, broken, m, h, chomping, n, tail, htext, hm => by
    obtain ⟨hprintable, htext⟩ := List.forall_mem_cons.mp htext
    cases hc : breaksLine c with
    | true =>
      have hcolumn : (m.after c).column = 0 := by
        rw [Mark.after_of_break ((isBreak_eq_breaksLine hprintable).trans hc)]
        rfl
      obtain ⟨b₁, h₁, -, hfirst⟩ := h.break chomping n (literalFrom n true text ++ tail) m hprintable hc
      obtain ⟨b₂, h₂, hread⟩ := h₁.lines chomping n tail htext fun _ => hcolumn
      refine ⟨b₂, by simpa [breaksAfter, hc] using h₂, ?_⟩
      rw [literalFrom, if_pos hc, List.cons_append, hfirst]
      simpa [breaksAfter, hc, Mark.behind_cons] using hread
    | false =>
      obtain ⟨b₁, h₁, hfirst⟩ := h.char chomping n (literalFrom n false text ++ tail) hprintable hc hm
      obtain ⟨b₂, h₂, hread⟩ := h₁.lines (m := m.behind ((if broken then spaces n else []) ++ [c]))
        chomping n tail htext (by simp)
      refine ⟨b₂, by simpa [breaksAfter, hc] using h₂, ?_⟩
      rw [literalFrom, if_neg (by simp [hc]), List.append_assoc, List.cons_append, hfirst]
      simpa [breaksAfter, hc, Mark.behind_append, Mark.behind_cons, Mark.behind_nil] using hread

theorem BlockText.holds_nothing : BlockText.Holds ⟨[], none, [], false⟩ true [] := ⟨rfl, by simp⟩

/-- A line further to the left ends a literal scalar. -/
theorem blockFrom_end {k : Nat} (hm : m.column = 0) (hk : k < n) (htail : opensToken tail = true) :
    blockFrom false chomping b (.known n) false (cellsFrom m (spaces k ++ tail)) =
      some (b.finish chomping, cellsFrom (m.behind (spaces k)) tail) := by
  have hcolumn : (m.behind (spaces k)).column = k := by
    rw [Mark.behind_spaces, hm]
    exact Nat.zero_add k
  rw [blockFrom_spaces fun column hlt => by simp only [Margin.covers, decide_eq_true_eq]; omega]
  cases tail with
  | nil => rfl
  | cons c tail =>
    simp only [opensToken, isGapChar, isSpaceOrTab, Bool.and_eq_true, Bool.not_eq_true', Bool.or_eq_false_iff,
      decide_eq_false_iff_not] at htail
    obtain ⟨⟨⟨⟨hspace, htab⟩, hbreak⟩, -⟩, -⟩ := htail
    simp [cellsFrom, blockFrom, hspace, htab, hbreak, Margin.widen, Margin.width, hcolumn, Nat.ne_of_lt hk]

/-- The margin is found on the first line when that begins with neither blank nor break. -/
theorem blockFrom_unknown {least : Nat} (hm : m.column = 0) (hleast : least ≤ n) (hprintable : isPrintable c = true)
    (hc : beginsBlank (c :: tail) = false) :
    blockFrom false chomping b (.unknown 0 least) false (cellsFrom m (spaces n ++ c :: tail)) =
      blockFrom false chomping b (.known n) false (cellsFrom m (spaces n ++ c :: tail)) := by
  have hcolumn : (m.behind (spaces n)).column = n := by
    rw [Mark.behind_spaces, hm]
    exact Nat.zero_add n
  rw [beginsBlank, Bool.or_eq_false_iff, decide_eq_false_iff_not] at hc
  have htab : c ≠ '\t' := ne_of_isPrintable hprintable (by decide)
  have hbreak : isBreak c = false := (isBreak_eq_breaksLine hprintable).trans hc.2
  rw [blockFrom_spaces fun column hlt => rfl, blockFrom_spaces fun column hlt => by simp only [Margin.covers, decide_eq_true_eq]; omega, cellsFrom,
    blockFrom, blockFrom]
  simp [hcolumn, hc.1, htab, hbreak, Margin.widen, Margin.width, Nat.max_eq_left hleast]

theorem endLine_of_break (h : breaksLine c = true) : endLine (front ++ [c]) = front ++ [c] := by simp [endLine, h]

theorem endLine_of_not_break (h : breaksLine c = false) : endLine (front ++ [c]) = front ++ [c] ++ ['\n'] := by
  simp [endLine, h]

theorem literalFrom_append : ∀ (broken : Bool) (front text : List Char),
    literalFrom n broken (front ++ text) = literalFrom n broken front ++ literalFrom n (breaksAfter broken front) text
  | _, [], _ => rfl
  | broken, c :: front, text => by
    have hlater : breaksAfter broken (c :: front) = breaksAfter (breaksLine c) front := rfl
    rw [List.cons_append, literalFrom, literalFrom, hlater]
    cases hc : breaksLine c <;> simp [literalFrom_append]

theorem endingOf_append (front : List Char) (c : Char) :
    endingOf (front ++ [c]) = if breaksLine c then (if breaksAfter true front then .keep else .clip) else .strip := by
  have hfront : breaksAfter true front = (front.reverse.head?.map breaksLine).getD true := by
    rcases List.eq_nil_or_concat front with rfl | ⟨front, d, rfl⟩
    · rfl
    · simp [breaksAfter]
  rw [endingOf, List.reverse_append, hfront]
  cases front.reverse with
  | nil => cases hc : breaksLine c <;> simp [hc]
  | cons d back =>
    cases hc : breaksLine c
    · simp [hc]
    · cases hd : breaksLine d <;> simp [hc, hd]

theorem BlockText.Holds.finish_keep (h : b.Holds broken text) : b.finish .keep = text := by
  simp [finish, h.content]

theorem BlockText.Holds.finish_clip (h : b.Holds broken text) (htrailing : b.trailing = []) : b.finish .clip = text := by
  have hcontent := h.content
  rw [htrailing, List.nil_append] at hcontent
  simp [finish, hcontent]

theorem BlockText.Holds.finish_strip (h : b.Holds broken (text ++ [c])) (hleading : b.leading = some c)
    (htrailing : b.trailing = []) : b.finish .strip = text := by
  have hcontent := h.content
  rw [htrailing, hleading] at hcontent
  have htext : b.text = text.reverse := by simpa using hcontent
  simp [finish, htext]

/-- Reading a literal scalar through its last break and the margin of the line that follows. -/
theorem blockFrom_lines (chomping : Chomping) {k : Nat} (hprintable : ∀ d ∈ front, isPrintable d = true)
    (hc : isPrintable c = true) (hbreak : breaksLine c = true) (hm : m.column = 0) (hk : k < n)
    (htail : opensToken tail = true) :
    ∃ b : BlockText, b.Holds true (front ++ [c]) ∧
      (breaksAfter true front = false → b.leading = some c ∧ b.trailing = []) ∧
      blockFrom false chomping ⟨[], none, [], false⟩ (.known n) false
        (cellsFrom m (literalFrom n true front ++ [c] ++ (spaces k ++ tail))) =
          some (b.finish chomping, cellsFrom (m.behind (literalFrom n true front ++ [c] ++ spaces k)) tail) := by
  obtain ⟨b₁, h₁, hread⟩ := BlockText.holds_nothing.lines chomping n (c :: (spaces k ++ tail)) hprintable fun _ => hm
  obtain ⟨b₂, h₂, hshort, hlast⟩ := h₁.break chomping n (spaces k ++ tail) (m.behind (literalFrom n true front)) hc hbreak
  have hcolumn : ((m.behind (literalFrom n true front)).after c).column = 0 := by
    rw [Mark.after_of_break ((isBreak_eq_breaksLine hc).trans hbreak)]
    rfl
  refine ⟨b₂, h₂, hshort, ?_⟩
  rw [Bool.not_true] at hread
  rw [List.append_assoc, List.singleton_append, hread, hlast, blockFrom_end hcolumn hk htail]
  simp [Mark.behind_append, Mark.behind_cons]

theorem blockFrom_known {k : Nat} (hprintable : ∀ d ∈ front ++ [c], isPrintable d = true) (hm : m.column = 0)
    (hk : k < n) (htail : opensToken tail = true) :
    blockFrom false (endingOf (front ++ [c])) ⟨[], none, [], false⟩ (.known n) false
      (cellsFrom m (endLine (literalFrom n true (front ++ [c])) ++ (spaces k ++ tail))) =
        some (front ++ [c], cellsFrom (m.behind (endLine (literalFrom n true (front ++ [c])) ++ spaces k)) tail) := by
  rw [endingOf_append]
  cases hc : breaksLine c with
  | true =>
    obtain ⟨b, hb, hshort, hread⟩ := blockFrom_lines
      (if breaksAfter true front then .keep else .clip) (fun d hd => hprintable d (List.mem_append_left _ hd))
      (hprintable c (by simp)) hc hm hk htail
    have hfinish : b.finish (if breaksAfter true front then .keep else .clip) = front ++ [c] := by
      cases hfront : breaksAfter true front with
      | true => exact hb.finish_keep
      | false => exact hb.finish_clip (hshort hfront).2
    have hlines : literalFrom n true (front ++ [c]) = literalFrom n true front ++ [c] := by
      rw [literalFrom_append, literalFrom, if_pos hc, literalFrom]
    rw [hlines, endLine_of_break hc, if_pos rfl, hread, hfinish]
  | false =>
    obtain ⟨b, hb, hshort, hread⟩ := blockFrom_lines .strip hprintable (by decide) (by decide) hm hk htail (c := '\n')
    have hwithin : breaksAfter true (front ++ [c]) = false := by simp [breaksAfter, hc]
    have hlines : endLine (literalFrom n true (front ++ [c])) = literalFrom n true (front ++ [c]) ++ ['\n'] := by
      rw [literalFrom_append, literalFrom, if_neg (by simp [hc]), literalFrom, ← List.append_assoc, endLine_of_not_break hc]
    rw [hlines, if_neg Bool.false_ne_true, hread, hb.finish_strip (hshort hwithin).1 (hshort hwithin).2]

theorem blockFrom_literal {least k : Nat} (htext : text ≠ []) (hprintable : ∀ d ∈ text, isPrintable d = true)
    (hm : m.column = 0) (hleast : least ≤ n) (hk : k < n) (htail : opensToken tail = true) :
    blockFrom false (endingOf text) ⟨[], none, [], false⟩ (if beginsBlank text then .known n else .unknown 0 least) false
      (cellsFrom m (endLine (literalFrom n true text) ++ (spaces k ++ tail))) =
        some (text, cellsFrom (m.behind (endLine (literalFrom n true text) ++ spaces k)) tail) := by
  obtain ⟨front, last, rfl⟩ : ∃ front last, text = front ++ [last] :=
    ⟨_, _, (List.dropLast_concat_getLast htext).symm⟩
  rw [← blockFrom_known hprintable hm hk htail]
  split
  · rfl
  · next hblank =>
    obtain ⟨c, rest, htext⟩ := List.exists_cons_of_ne_nil htext
    rw [htext] at hprintable hblank ⊢
    have hc : breaksLine c = false := by
      simp only [beginsBlank, Bool.not_eq_true, Bool.or_eq_false_iff] at hblank
      exact hblank.2
    obtain ⟨tail', hlines⟩ : ∃ tail', endLine (literalFrom n true (c :: rest)) ++ (spaces k ++ tail) =
        spaces n ++ c :: tail' := by
      rw [literalFrom, if_neg (by simp [hc]), if_pos rfl, endLine]
      split <;> simp
    rw [hlines, blockFrom_unknown hm hleast (hprintable c (by simp)) (by simpa [beginsBlank] using hblank)]

end

end Scaffold.Yaml
