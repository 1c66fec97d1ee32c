import Scaffold.Yaml.Data
import Scaffold.Yaml.Scan

/-! The cells of a text that is written. Written texts hold printable characters only, so each of these is a cell of
    its own, and the place of a cell is told by what stands in front of it. -/

namespace Scaffold.Yaml
open Written

/-! ### Places -/

/-- The place behind a character. -/
def Mark.after (m : Mark) (c : Char) : Mark := if isBreak c then m.nextLine 1 else m.next

/-- The place behind a text. -/
def Mark.behind (m : Mark) (text : List Char) : Mark := text.foldl Mark.after m

/-- The cells of a text that begins at `m`. -/
def cellsFrom (m : Mark) : List Char → List Cell
  | [] => []
  | c :: text => ⟨c, m⟩ :: cellsFrom (m.after c) text

section
variable {m : Mark} {c : Char} {text : List Char}

theorem Mark.behind_nil (m : Mark) : m.behind [] = m := rfl

theorem Mark.behind_append (m : Mark) (a b : List Char) : m.behind (a ++ b) = (m.behind a).behind b :=
  List.foldl_append

theorem Mark.behind_cons (m : Mark) (c : Char) (text : List Char) : m.behind (c :: text) = (m.after c).behind text := rfl

theorem cellsFrom_append : ∀ (m : Mark) (a b : List Char), cellsFrom m (a ++ b) = cellsFrom m a ++ cellsFrom (m.behind a) b
  | _, [], _ => rfl
  | m, c :: a, b => by
    rw [List.cons_append, cellsFrom, cellsFrom, cellsFrom_append, List.cons_append, Mark.behind_cons]

theorem length_cellsFrom : ∀ (m : Mark) (text : List Char), (cellsFrom m text).length = text.length
  | _, [] => rfl
  | m, c :: text => by rw [cellsFrom, List.length_cons, List.length_cons, length_cellsFrom]

theorem Mark.after_of_break (h : isBreak c = true) : m.after c = m.nextLine 1 := if_pos h

theorem Mark.after_of_not_break (h : isBreak c = false) : m.after c = m.next := by
  rw [after, h]
  rfl

theorem Mark.index_behind : ∀ (m : Mark) (text : List Char), (m.behind text).index = m.index + text.length
  | _, [] => rfl
  | m, c :: text => by
    have hafter : (m.after c).index = m.index + 1 := by
      rw [after]
      split <;> rfl
    rw [behind_cons, index_behind, hafter, List.length_cons]
    omega

theorem Mark.behind_of_line (m : Mark) : ∀ {text : List Char}, (∀ c ∈ text, isBreak c = false) →
    m.behind text = ⟨m.index + text.length, m.line, m.column + text.length⟩
  | [], _ => rfl
  | c :: text, h => by
    obtain ⟨hc, htext⟩ := List.forall_mem_cons.mp h
    rw [behind_cons, after_of_not_break hc, behind_of_line m.next htext, next, List.length_cons]
    simp only [mk.injEq, true_and]
    omega

theorem Mark.line_le_behind : ∀ (m : Mark) (text : List Char), m.line ≤ (m.behind text).line
  | _, [] => Nat.le_refl _
  | m, c :: text => by
    have hafter : m.line ≤ (m.after c).line := by
      rw [after]
      split
      · exact Nat.le_succ _
      · exact Nat.le_refl _
    exact Nat.le_trans hafter (line_le_behind _ text)

theorem Mark.line_lt_behind (m : Mark) (hc : isBreak c = true) (h : c ∈ text) : m.line < (m.behind text).line := by
  obtain ⟨front, back, rfl⟩ := List.mem_iff_append.mp h
  rw [behind_append, behind_cons, after_of_break hc]
  calc m.line < (m.behind front).line + 1 := Nat.lt_succ_of_le (line_le_behind m front)
    _ ≤ _ := line_le_behind ((m.behind front).nextLine 1) back

theorem Mark.column_behind_break (m : Mark) (text : List Char) (hc : isBreak c = true) :
    (m.behind (text ++ [c])).column = 0 := by
  rw [behind_append, behind_cons, after_of_break hc]
  rfl

/-! ### Characters -/

theorem ne_of_isPrintable {d : Char} (h : isPrintable c = true) (hd : isPrintable d = false) : c ≠ d := by
  rintro rfl
  rw [h] at hd
  cases hd

theorem isBreak_eq_breaksLine (h : isPrintable c = true) : isBreak c = breaksLine c := by
  have hreturn := ne_of_isPrintable h (d := '\r') (by decide)
  have hnext := ne_of_isPrintable h (d := '\u0085') (by decide)
  simp [isBreak, breaksLine, hreturn, hnext]

theorem isSpaceOrTab_of_isPrintable (h : isPrintable c = true) : isSpaceOrTab c = decide (c = ' ') := by
  have htab := ne_of_isPrintable h (d := '\t') (by decide)
  simp [isSpaceOrTab, htab]

theorem isAllowed_of_isPrintable (h : isPrintable c = true) : isAllowed c = true := by
  simp only [isPrintable, isAllowed, Bool.or_eq_true, Bool.and_eq_true, decide_eq_true_eq] at h ⊢
  omega

theorem isBreak_space : isBreak ' ' = false := by decide

theorem isBreak_of_mem_spaces {n : Nat} (h : c ∈ spaces n) : isBreak c = false :=
  List.eq_of_mem_replicate h ▸ isBreak_space

theorem Mark.behind_spaces (m : Mark) (n : Nat) : m.behind (spaces n) = ⟨m.index + n, m.line, m.column + n⟩ := by
  rw [behind_of_line m fun _ => isBreak_of_mem_spaces, spaces, List.length_replicate]

theorem placeFrom_of_isPrintable : ∀ {m : Mark} {text : List Char}, (∀ c ∈ text, isPrintable c = true) →
    placeFrom m text = (cellsFrom m text, m.behind text)
  | _, [], _ => rfl
  | m, c :: text, h => by
    obtain ⟨hc, htext⟩ := List.forall_mem_cons.mp h
    have hreturn := ne_of_isPrintable hc (d := '\r') (by decide)
    have hnext := ne_of_isPrintable hc (d := '\u0085') (by decide)
    rw [placeFrom, cellsFrom, Mark.behind_cons]
    · by_cases hline : c = '\n'
      · subst hline
        simp [placeFrom_of_isPrintable htext, Mark.after, isBreak]
      · by_cases hseparator : isSeparator c = true
        · simp [placeFrom_of_isPrintable htext, Mark.after, isBreak, hline, hreturn, hnext, hseparator]
        · simp [placeFrom_of_isPrintable htext, Mark.after, isBreak, hline, hreturn, hnext, hseparator]
    · intro rest hreturned
      exact absurd hreturned hreturn

/-! ### Gaps between tokens -/

/-- Whether a token or the end of the text comes first. -/
def opensToken : List Char → Bool
  | [] => true
  | c :: _ => !isGapChar c && c ≠ '#' && c ≠ '\uFEFF'

theorem skipGap_of_opensToken {inFlow keyAllowed : Bool} (h : opensToken text = true) :
    Scanner.skipGap inFlow keyAllowed false (cellsFrom m text) = (keyAllowed, cellsFrom m text) := by
  cases text with
  | nil => rfl
  | cons c text =>
    simp only [opensToken, isGapChar, isSpaceOrTab, Bool.and_eq_true, Bool.not_eq_true', Bool.or_eq_false_iff,
      decide_eq_false_iff_not, decide_eq_true_eq, ne_eq] at h
    obtain ⟨⟨⟨⟨hspace, htab⟩, hbreak⟩, hsign⟩, horder⟩ := h
    simp [cellsFrom, Scanner.skipGap, hbreak, hspace, htab, hsign, horder]

theorem skipGap_spaces {inFlow keyAllowed : Bool} (text : List Char) : ∀ (m : Mark) (n : Nat),
    Scanner.skipGap inFlow keyAllowed false (cellsFrom m (spaces n ++ text)) =
      Scanner.skipGap inFlow keyAllowed false (cellsFrom (m.behind (spaces n)) text)
  | _, 0 => rfl
  | m, n + 1 => by
    have hspace : Scanner.skipGap inFlow keyAllowed false (cellsFrom m (spaces (n + 1) ++ text)) =
        Scanner.skipGap inFlow keyAllowed false (cellsFrom (m.after ' ') (spaces n ++ text)) := by
      simp [spaces, List.replicate_succ, cellsFrom, Scanner.skipGap, isBreak_space]
    rw [hspace, skipGap_spaces text _ n]
    rfl

theorem skipGap_newline (keyAllowed : Bool) (m : Mark) (text : List Char) :
    Scanner.skipGap false keyAllowed false (cellsFrom m ('\n' :: text)) =
      Scanner.skipGap false true false (cellsFrom (m.after '\n') text) := by
  have hbreak : isBreak '\n' = true := by decide
  simp [cellsFrom, Scanner.skipGap, hbreak]

end

end Scaffold.Yaml
