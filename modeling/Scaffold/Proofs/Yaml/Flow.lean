import Mathlib.Algebra.Group.Nat.Defs
import Scaffold.Proofs.Yaml.Cells

/-! Flow scalars are read back: a plain text where it is allowed, and what is written in single or double quotes for
    every text that these styles are used for. A reader of a quoted scalar is inside a word or in a gap; what the gap
    comes to is part of the text once a word or the closing quote follows. -/

namespace Scaffold.Yaml
open Written

/-- A gap within a line, with its blanks. -/
def Gap.within (blanks : List Char) : Gap := ⟨blanks, false, none, []⟩

theorem Gap.add_within (blanks : List Char) : (Gap.within blanks).add ' ' = .within (' ' :: blanks) := by
  simp [add, within, isBreak_space]

theorem Gap.broken_within (blanks : List Char) : (Gap.within blanks).broken = false := rfl

theorem Gap.folded_within (blanks : List Char) : (Gap.within blanks).folded = blanks := rfl

theorem atDocumentLine_of_column {c : Cell} {rest : List Cell} (h : 0 < c.mark.column) :
    atDocumentLine (c :: rest) = false := by
  unfold atDocumentLine
  split
  · next heq =>
    obtain ⟨rfl, -⟩ := List.cons.inj heq
    simp [Nat.ne_of_gt h]
  · rfl

theorem atDocumentLine_of_ne {c : Char} {m : Mark} {rest : List Cell} (hhyphen : c ≠ '-') (hdot : c ≠ '.') :
    atDocumentLine (⟨c, m⟩ :: rest) = false := by
  unfold atDocumentLine
  split
  · next heq =>
    obtain ⟨rfl, -⟩ := List.cons.inj heq
    simp [hhyphen, hdot]
  · rfl

theorem isGapChar_of_isPrintable {c : Char} (h : isPrintable c = true) (hbreak : breaksLine c = false) :
    isGapChar c = decide (c = ' ') := by
  rw [isGapChar, isSpaceOrTab_of_isPrintable h, isBreak_eq_breaksLine h, hbreak, Bool.or_false]

/-! ### Plain scalars -/

/-- A plain scalar is read on through a text that a gap may stand in front of, and that does not end in one. -/
def StaysPlain : Bool → List Char → Prop
  | gap, [] => gap = false
  | gap, c :: text =>
    isPrintable c = true ∧ breaksLine c = false ∧ (c = ':' → isGapEnd text.head? = false) ∧ (gap = true → c ≠ '#') ∧
      StaysPlain (decide (c = ' ')) text

theorem staysPlain_of_inner : ∀ {c : Char} {text : List Char} {gap : Bool}, (∀ x ∈ c :: text, isPrintable x = true) →
    (∀ x ∈ c :: text, breaksLine x = false) → (c :: text).getLast? ≠ some ' ' → hasInnerIndicator (c :: text) = false →
    (c = ':' → isGapEnd text.head? = false) → (gap = true → c ≠ '#') → StaysPlain gap (c :: text)
  | c, [], gap, hprintable, hlines, hlast, _, hcolon, hsign => by
    refine ⟨hprintable c (by simp), hlines c (by simp), hcolon, hsign, ?_⟩
    simpa [StaysPlain] using hlast
  | c, d :: text, gap, hprintable, hlines, hlast, hinner, hcolon, hsign => by
    rw [hasInnerIndicator, Bool.or_eq_false_iff, Bool.or_eq_false_iff] at hinner
    obtain ⟨⟨hcolon', hsign'⟩, hinner⟩ := hinner
    obtain ⟨hc, hprintable⟩ := List.forall_mem_cons.mp hprintable
    obtain ⟨hcLine, hlines⟩ := List.forall_mem_cons.mp hlines
    refine ⟨hc, hcLine, hcolon, hsign, staysPlain_of_inner hprintable hlines ?_ hinner ?_ ?_⟩
    · simpa [List.getLast?_cons] using hlast
    · rintro rfl
      simpa using hcolon'
    · intro hspace hd
      rw [of_decide_eq_true hspace, hd] at hsign'
      revert hsign'
      decide

/-- A text that may be plain is read on through, even if a colon follows. -/
theorem staysPlain_of_allowed {c : Char} {text : List Char} (h : plainAllowed (c :: text) = true) :
    StaysPlain false (c :: text) := by
  simp only [plainAllowed, Bool.and_eq_true, Bool.not_eq_true', decide_eq_true_eq, List.all_eq_true,
    List.any_eq_false, Bool.not_eq_true] at h
  obtain ⟨⟨⟨⟨⟨⟨hprintable, hlines⟩, -⟩, hlast⟩, -⟩, hstart⟩, hinner⟩ := h
  refine staysPlain_of_inner hprintable hlines hlast hinner ?_ (by simp)
  rintro rfl
  simp only [startsAsIndicator, Bool.or_eq_false_iff, Bool.and_eq_false_iff] at hstart
  rcases hstart.2 with hcolon | hgap
  · exact absurd hcolon (by decide)
  · exact hgap

section
variable {m : Mark} {c : Char} {text tail acc : List Char} {indent : Nat}

theorem atGap_of_isGapEnd (h : isGapEnd text.head? = false) : atGap (cellsFrom m (text ++ tail)) = false := by
  cases text with
  | nil => cases h
  | cons d text =>
    simp only [List.head?_cons, isGapEnd, breaksLine, Bool.or_eq_false_iff] at h
    obtain ⟨⟨hspace, ⟨⟨hline, -⟩, -⟩, hseparator⟩, -⟩ := h
    simp [cellsFrom, atGap, isGapChar, isBreak, hspace, hline, hseparator]

theorem plainFrom_append (tail : List Char) : ∀ (text : List Char) (m : Mark) (acc : List Char) (blanks : Option (List Char)),
    StaysPlain blanks.isSome text → indent ≤ m.column + 1 →
    (blanks.isSome = true → indent ≤ m.column ∧ 0 < m.column) →
    plainFrom false indent acc (blanks.map .within) (cellsFrom m (text ++ tail)) =
      plainFrom false indent (text.reverse ++ (blanks.getD [] ++ acc)) none (cellsFrom (m.behind text) tail)
  | [], m, acc, blanks, hstays, _, _ => by
    cases blanks with
    | none => rfl
    | some b => cases hstays
  | c :: text, m, acc, blanks, hstays, hindent, hgap => by
    obtain ⟨hprintable, hline, hcolon, hsign, hstays⟩ := hstays
    have hbreak : isBreak c = false := by rw [isBreak_eq_breaksLine hprintable, hline]
    have hcolumn : (m.after c).column = m.column + 1 := by
      rw [Mark.after_of_not_break hbreak]
      rfl
    rw [List.cons_append, cellsFrom, Mark.behind_cons, plainFrom, isGapChar_of_isPrintable hprintable hline]
    -- blanks wait, and are put down with the next character that is none
    by_cases hspace : c = ' '
    · subst hspace
      have hnext := plainFrom_append tail text (m.after ' ') acc (some (' ' :: blanks.getD [])) hstays (by omega)
        fun _ => by omega
      have hgapped : (blanks.map Gap.within).getD Gap.empty = .within (blanks.getD []) := by cases blanks <;> rfl
      simp only [decide_true, if_true, hgapped, Gap.broken_within, Bool.false_and, Bool.false_eq_true, if_false,
        Gap.add_within]
      simpa using hnext
    · have hgo : ((blanks.map Gap.within).isSome && ((!false && decide (m.column < indent)) ||
          atDocumentLine (⟨c, m⟩ :: cellsFrom (m.after c) (text ++ tail)) || decide (c = '#'))) = false := by
        cases blanks with
        | none => rfl
        | some b =>
          obtain ⟨hleft, hright⟩ := hgap rfl
          have hdocument : atDocumentLine (⟨c, m⟩ :: cellsFrom (m.after c) (text ++ tail)) = false :=
            atDocumentLine_of_column hright
          simp [hdocument, hsign rfl, Nat.not_lt.mpr hleft]
      have hends : endsPlain false ⟨c, m⟩ (cellsFrom (m.after c) (text ++ tail)) = false := by
        by_cases hc : c = ':'
        · simp [endsPlain, atGap_of_isGapEnd (hcolon hc)]
        · simp [endsPlain, hc]
      have hnext := plainFrom_append tail text (m.after c) (c :: (blanks.getD [] ++ acc)) none
        (by simpa [hspace] using hstays) (by omega) (by simp)
      have hfolded : ((blanks.map Gap.within).map Gap.folded).getD [] = blanks.getD [] := by cases blanks <;> rfl
      rw [if_neg (by simpa using hspace)]
      simp only [hgo, Bool.false_eq_true, if_false, isStrayColon, Bool.false_and, hends, hfolded]
      simpa using hnext

theorem plainFrom_key (htext : StaysPlain false text) (hindent : indent ≤ m.column + 1)
    (htail : atGap (cellsFrom ((m.behind text).after ':') tail) = true) :
    plainFrom false indent [] none (cellsFrom m (text ++ ':' :: tail)) =
      some ⟨text, cellsFrom (m.behind text) (':' :: tail), false⟩ := by
  have hread := plainFrom_append (':' :: tail) text m [] none htext hindent (by simp)
  have hcolon : isGapChar ':' = false := by decide
  rw [Option.map_none] at hread
  rw [hread, cellsFrom, plainFrom]
  simp [hcolon, isStrayColon, endsPlain, htail]

theorem Gap.add_over {g : Gap} (h : g.broken = true) : g.add ' ' = g := by
  rw [add, isBreak_space]
  simp [h]

theorem plainFrom_spaces {g : Gap} (h : g.broken = true) : ∀ (m : Mark) (n : Nat),
    plainFrom false indent acc (some g) (cellsFrom m (spaces n ++ tail)) =
      plainFrom false indent acc (some g) (cellsFrom (m.behind (spaces n)) tail)
  | _, 0 => rfl
  | m, n + 1 => by
    have hgap : isGapChar ' ' = true := by decide
    have hspace : plainFrom false indent acc (some g) (cellsFrom m (spaces (n + 1) ++ tail)) =
        plainFrom false indent acc (some g) (cellsFrom (m.after ' ') (spaces n ++ tail)) := by
      simp [spaces, List.replicate_succ, cellsFrom, plainFrom, hgap, Gap.add_over h]
    rw [hspace, plainFrom_spaces h _ n]
    rfl

/-- A plain scalar ends with its line if the next one stands further left. -/
theorem plainFrom_line {column : Nat} (htext : StaysPlain false text) (hindent : indent ≤ m.column + 1)
    (hcolumn : column < indent) (htail : opensToken tail = true) :
    plainFrom false indent [] none (cellsFrom m (text ++ '\n' :: (spaces column ++ tail))) =
      some ⟨text, cellsFrom (m.behind (text ++ '\n' :: spaces column)) tail, true⟩ := by
  have hread := plainFrom_append ('\n' :: (spaces column ++ tail)) text m [] none htext hindent (by simp)
  have hgap : isGapChar '\n' = true := by decide
  have hbreak : isBreak '\n' = true := by decide
  have hadd : Gap.empty.add '\n' = ⟨[], true, some '\n', []⟩ := rfl
  have hempty : Gap.empty.broken = false := rfl
  rw [Option.map_none] at hread
  rw [hread, cellsFrom, plainFrom, if_pos hgap]
  simp only [Option.getD_none, hempty, Bool.false_and, Bool.false_eq_true, if_false, hadd]
  rw [plainFrom_spaces rfl, Mark.behind_append, Mark.behind_cons]
  cases tail with
  | nil => simp [cellsFrom, plainFrom]
  | cons d tail =>
    have hplace : (((m.behind text).after '\n').behind (spaces column)).column = column := by
      rw [Mark.behind_spaces, Mark.after_of_break hbreak]
      exact Nat.zero_add column
    simp only [opensToken, Bool.and_eq_true, Bool.not_eq_true'] at htail
    simp [cellsFrom, plainFrom, htail.1.1, hplace, hcolumn]

end

/-! ### Quoted scalars -/

/-- The gap that a reader is in, which is empty inside a word. -/
def QuotedState.gapSoFar : QuotedState → Gap
  | .gap g => g
  | _ => .empty

theorem QuotedState.gapSoFar_gap (g : Gap) : (QuotedState.gap g).gapSoFar = g := rfl

/-- A reader that is inside a word or a gap. -/
def QuotedState.Open (st : QuotedState) : Prop := st = .word ∨ ∃ g, st = .gap g

theorem QuotedState.Open.word : QuotedState.word.Open := Or.inl rfl

theorem QuotedState.Open.gap (g : Gap) : (QuotedState.gap g).Open := Or.inr ⟨g, rfl⟩

section
variable {st : QuotedState} {single : Bool} {m m' : Mark} {c : Char} {acc tail : List Char} {rest : List Cell}

theorem quotedFrom_gap (hst : st.Open) (hc : isGapChar c = true) :
    quotedFrom single acc st (⟨c, m⟩ :: rest) = quotedFrom single acc (.gap (st.gapSoFar.add c)) rest := by
  rcases hst with rfl | ⟨g, rfl⟩ <;> rw [quotedFrom, if_pos hc] <;> rfl

theorem quotedFrom_spaces {g : Gap} (hbroken : g.broken = true) : ∀ (m : Mark) (n : Nat),
    quotedFrom single acc (.gap g) (cellsFrom m (spaces n ++ tail)) =
      quotedFrom single acc (.gap g) (cellsFrom (m.behind (spaces n)) tail)
  | _, 0 => rfl
  | m, n + 1 => by
    have hspace : quotedFrom single acc (.gap g) (cellsFrom m (spaces (n + 1) ++ tail)) =
        quotedFrom single acc (.gap g) (cellsFrom (m.after ' ') (spaces n ++ tail)) := by
      rw [spaces, List.replicate_succ, List.cons_append, cellsFrom, quotedFrom_gap (.gap g) (by decide)]
      simp only [QuotedState.gapSoFar, Gap.add_over hbroken, spaces]
    rw [hspace, quotedFrom_spaces hbroken _ n]
    rfl

theorem quotedFrom_char (hst : st.Open) (hcolumn : 0 < m.column) (hc : isGapChar c = false)
    (hsingle : single = true → c ≠ '\'') (hdouble : single = false → c ≠ '"' ∧ c ≠ '\\') :
    quotedFrom single acc st (⟨c, m⟩ :: rest) = quotedFrom single (c :: (st.gapSoFar.folded ++ acc)) .word rest := by
  have hdocument : atDocumentLine (⟨c, m⟩ :: rest) = false := atDocumentLine_of_column hcolumn
  rcases hst with rfl | ⟨g, rfl⟩ <;> cases single <;>
    simp_all [quotedFrom, QuotedState.gapSoFar, Gap.empty, Gap.folded]

/-- The quotation mark of a style. -/
def quoteOf (single : Bool) : Char := if single then '\'' else '"'

theorem quotedFrom_close (hst : st.Open) (hcolumn : 0 < m.column) (hrest : single = true → startsWith '\'' rest = false) :
    quotedFrom single acc st (⟨quoteOf single, m⟩ :: rest) = some ⟨(st.gapSoFar.folded ++ acc).reverse, rest, false⟩ := by
  have hdocument : atDocumentLine (⟨quoteOf single, m⟩ :: rest) = false := atDocumentLine_of_column hcolumn
  have hgap : isGapChar '\'' = false ∧ isGapChar '"' = false := by decide
  rcases hst with rfl | ⟨g, rfl⟩ <;> cases single <;>
    simp_all [quotedFrom, quoteOf, QuotedState.gapSoFar, Gap.empty, Gap.folded]

theorem quotedFrom_twice (hst : st.Open) (hcolumn : 0 < m.column) :
    quotedFrom true acc st (⟨'\'', m⟩ :: ⟨'\'', m'⟩ :: rest) =
      quotedFrom true ('\'' :: (st.gapSoFar.folded ++ acc)) .word rest := by
  have hdocument : atDocumentLine (⟨'\'', m⟩ :: ⟨'\'', m'⟩ :: rest) = false := atDocumentLine_of_column hcolumn
  have hgap : isGapChar '\'' = false := by decide
  rcases hst with rfl | ⟨g, rfl⟩ <;>
    simp_all [quotedFrom, startsWith, QuotedState.gapSoFar, Gap.empty, Gap.folded]

theorem quotedFrom_backslash (hst : st.Open) (hcolumn : 0 < m.column) :
    quotedFrom false acc st (⟨'\\', m⟩ :: rest) = quotedFrom false (st.gapSoFar.folded ++ acc) .escape rest := by
  have hdocument : atDocumentLine (⟨'\\', m⟩ :: rest) = false := atDocumentLine_of_column hcolumn
  have hgap : isGapChar '\\' = false := by decide
  rcases hst with rfl | ⟨g, rfl⟩ <;>
    simp_all [quotedFrom, QuotedState.gapSoFar, Gap.empty, Gap.folded]

end

/-! ### Single quotes -/

theorem hasPair_cons {p q : Char → Bool} {c : Char} {text : List Char} (h : hasPair p q (c :: text) = false) :
    hasPair p q text = false ∧ (p c = true → ∀ d ∈ text.head?, q d = false) := by
  cases text with
  | nil => exact ⟨rfl, by simp⟩
  | cons d text =>
    rw [hasPair, Bool.or_eq_false_iff, Bool.and_eq_false_iff] at h
    refine ⟨h.2, fun hc e he => ?_⟩
    obtain rfl : d = e := by simpa using he
    rcases h.1 with hp | hq
    · rw [hc] at hp
      cases hp
    · exact hq

/-- The gaps that a text in single quotes may go on from. Blanks do not stand in front of a break, nor behind one. -/
inductive SingleGap : Bool → Gap → List Char → Prop
  | within (blanks : List Char) {text : List Char} (h : blanks ≠ [] → ∀ d ∈ text.head?, breaksLine d = false) :
    SingleGap false (.within blanks) text
  | across (c : Char) (more : List Char) {text : List Char} (hc : c ≠ '\n') (h : ∀ d ∈ text.head?, d ≠ ' ') :
    SingleGap true ⟨[], true, some c, more⟩ text

theorem Gap.folded_over {c : Char} (hc : c ≠ '\n') (more : List Char) :
    (Gap.mk [] true (some c) more).folded = more ++ [c] := by
  unfold folded
  rw [if_pos rfl]
  split
  · next heq => exact absurd (Option.some.inj heq) hc
  · next heq => rw [Option.some.inj heq]
  · next heq => cases heq

theorem SingleGap.broken_eq {broken : Bool} {g : Gap} {text : List Char} (h : SingleGap broken g text) :
    g.broken = broken := by
  cases h <;> rfl

theorem SingleGap.add_break {broken : Bool} {g : Gap} {c : Char} {text : List Char} (h : SingleGap broken g (c :: text))
    (hline : breaksLine c = true) (hbreak : isBreak c = true) (hc : c ≠ '\n') (htext : ∀ d ∈ text.head?, d ≠ ' ') :
    SingleGap true (g.add c) text ∧ (g.add c).folded = c :: g.folded := by
  cases h with
  | within blanks hblanks =>
    have hnone : blanks = [] := Decidable.byContradiction fun hne => by
      rw [hblanks hne c rfl] at hline
      cases hline
    have hadd : (Gap.within blanks).add c = ⟨[], true, some c, []⟩ := by simp [Gap.add, Gap.within, hbreak]
    rw [hadd, Gap.folded_over hc, Gap.folded_within, hnone]
    exact ⟨.across c [] hc htext, rfl⟩
  | across first more hfirst _ =>
    have hadd : (Gap.mk [] true (some first) more).add c = ⟨[], true, some first, c :: more⟩ := by simp [Gap.add, hbreak]
    rw [hadd, Gap.folded_over hfirst, Gap.folded_over hfirst]
    exact ⟨.across first (c :: more) hfirst htext, rfl⟩

theorem SingleGap.add_space {broken : Bool} {g : Gap} {text : List Char} (h : SingleGap broken g (' ' :: text))
    (htext : ∀ d ∈ text.head?, breaksLine d = false) :
    broken = false ∧ SingleGap false (g.add ' ') text ∧ (g.add ' ').folded = ' ' :: g.folded := by
  cases h with
  | within blanks _ =>
    rw [Gap.add_within]
    exact ⟨rfl, .within _ fun _ => htext, rfl⟩
  | across _ _ _ hhead => exact absurd rfl (hhead ' ' rfl)

/-- What stands in front of the first character of a line. -/
def margin (indent : Nat) (broken : Bool) : List Char := if broken then spaces indent else []

theorem quotedFrom_margin {indent : Nat} (hindent : 0 < indent) {st : QuotedState} {broken : Bool} {m : Mark}
    {text : List Char} (acc : List Char) (hst : st.Open) (hgap : SingleGap broken st.gapSoFar text)
    (hcolumn : broken = false → 0 < m.column) : 0 < (m.behind (margin indent broken)).column ∧
      ∀ tail, quotedFrom true acc st (cellsFrom m (margin indent broken ++ tail)) =
        quotedFrom true acc st (cellsFrom (m.behind (margin indent broken)) tail) := by
  cases broken with
  | false => exact ⟨hcolumn rfl, fun _ => rfl⟩
  | true =>
    have hbroken := hgap.broken_eq
    rcases hst with rfl | ⟨g, rfl⟩
    · cases hbroken
    · refine ⟨?_, fun tail => quotedFrom_spaces hbroken m indent⟩
      rw [margin, if_pos rfl, Mark.behind_spaces]
      exact Nat.lt_of_lt_of_le hindent (Nat.le_add_left _ _)

theorem singleFrom_cons {indent : Nat} {broken : Bool} {c : Char} {text : List Char} (hbreak : breaksLine c = false)
    (hspace : c ≠ ' ') : singleFrom indent broken (c :: text) =
      margin indent broken ++ ((if c = '\'' then ['\'', '\''] else [c]) ++ singleFrom indent false text) := by
  rw [singleFrom, if_neg (by simp [hbreak]), if_neg hspace, margin, List.append_assoc]

/-- A character that is neither blank nor break: the margin of its line belongs to the gap, and the character, or the two
    quotes, to the word behind it. -/
theorem quotedFrom_singleFrom_cons {indent : Nat} {st : QuotedState} {broken : Bool} {c : Char} {text tail acc read : List Char}
    {m : Mark} (hindent : 0 < indent) (hst : st.Open) (hgap : SingleGap broken st.gapSoFar (c :: text))
    (hcolumn : broken = false → 0 < m.column) (hprintable : isPrintable c = true) (hbreak : breaksLine c = false)
    (hspace : c ≠ ' ')
    (hgo : ∀ m₁ : Mark, 0 < m₁.column → quotedFrom true (c :: (st.gapSoFar.folded ++ acc)) .word
      (cellsFrom m₁ (singleFrom indent false text ++ '\'' :: tail)) =
        some ⟨read, cellsFrom (m₁.behind (singleFrom indent false text ++ ['\''])) tail, false⟩) :
    quotedFrom true acc st (cellsFrom m (singleFrom indent broken (c :: text) ++ '\'' :: tail)) =
      some ⟨read, cellsFrom (m.behind (singleFrom indent broken (c :: text) ++ ['\''])) tail, false⟩ := by
  obtain ⟨hplace, hmargin⟩ := quotedFrom_margin hindent acc hst hgap hcolumn
  have hcell : isBreak c = false := (isBreak_eq_breaksLine hprintable).trans hbreak
  have hgapChar : isGapChar c = false := by simp [isGapChar_of_isPrintable hprintable hbreak, hspace]
  have hcolumn₁ : ∀ {m₁ : Mark} {d : Char}, isBreak d = false → 0 < (m₁.after d).column := fun hd => by
    rw [Mark.after_of_not_break hd]
    exact Nat.succ_pos _
  rw [singleFrom_cons hbreak hspace, List.append_assoc, hmargin, List.append_assoc, Mark.behind_append]
  by_cases hquote : c = '\''
  · subst hquote
    rw [if_pos rfl, List.cons_append, List.cons_append, List.nil_append, cellsFrom, cellsFrom,
      quotedFrom_twice hst hplace, hgo _ (hcolumn₁ hcell)]
    simp [Mark.behind_append, Mark.behind_cons]
  · rw [if_neg hquote, List.cons_append, List.nil_append, cellsFrom,
      quotedFrom_char hst hplace hgapChar (fun _ => hquote) (by simp), hgo _ (hcolumn₁ hcell)]
    simp [Mark.behind_append, Mark.behind_cons]

theorem quotedFrom_singleFrom {indent : Nat} {tail : List Char} (hindent : 0 < indent) (htail : tail.head? ≠ some '\'') :
    ∀ (text : List Char) {st : QuotedState} {broken : Bool} (m : Mark) (acc : List Char), st.Open →
      SingleGap broken st.gapSoFar text → (broken = false → 0 < m.column) →
      (∀ c ∈ text, isPrintable c = true ∧ c ≠ '\n') → hasPair breaksLine (· = ' ') text = false →
      hasPair (· = ' ') breaksLine text = false →
      quotedFrom true acc st (cellsFrom m (singleFrom indent broken text ++ '\'' :: tail)) =
        some ⟨(st.gapSoFar.folded ++ acc).reverse ++ text,
          cellsFrom (m.behind (singleFrom indent broken text ++ ['\''])) tail, false⟩
  | [], st, broken, m, acc, hst, hgap, hcolumn, _, _, _ => by
    obtain ⟨hplace, hmargin⟩ := quotedFrom_margin hindent acc hst hgap hcolumn
    have hnil : singleFrom indent broken [] = margin indent broken := rfl
    have hstarts : ∀ m', startsWith '\'' (cellsFrom m' tail) = false := by
      intro m'
      cases tail with
      | nil => rfl
      | cons d tail => simpa [cellsFrom, startsWith] using htail
    rw [hnil, hmargin, cellsFrom, List.append_nil, Mark.behind_append]
    exact quotedFrom_close hst hplace fun _ => hstarts _
  | c :: text, st, broken, m, acc, hst, hgap, hcolumn, htext, hbehind, hahead => by
    obtain ⟨⟨hprintable, hnewline⟩, hrest⟩ := List.forall_mem_cons.mp htext
    obtain ⟨hbehindRest, hbehindHead⟩ := hasPair_cons hbehind
    obtain ⟨haheadRest, haheadHead⟩ := hasPair_cons hahead
    by_cases hbreak : breaksLine c = true
    · -- a break ends the word or goes on with the gap
      have hcell : isBreak c = true := (isBreak_eq_breaksLine hprintable).trans hbreak
      obtain ⟨hnext, hfolded⟩ := hgap.add_break hbreak hcell hnewline fun d hd => by
        simpa using hbehindHead hbreak d hd
      have hread := quotedFrom_singleFrom hindent htail text (m.after c) acc (.gap (st.gapSoFar.add c)) hnext
        (by simp) hrest hbehindRest haheadRest
      rw [singleFrom, if_pos hbreak, List.cons_append, cellsFrom, quotedFrom_gap hst (by simp [isGapChar, hcell]), hread,
        QuotedState.gapSoFar_gap, hfolded]
      simp [Mark.behind_cons]
    · rw [Bool.not_eq_true] at hbreak
      have hcell : isBreak c = false := (isBreak_eq_breaksLine hprintable).trans hbreak
      by_cases hspace : c = ' '
      · subst hspace
        obtain ⟨rfl, hnext, hfolded⟩ := hgap.add_space (haheadHead (by simp))
        have hplace : 0 < (m.after ' ').column := by
          rw [Mark.after_of_not_break hcell]
          exact Nat.succ_pos _
        have hread := quotedFrom_singleFrom hindent htail text (m.after ' ') acc (.gap (st.gapSoFar.add ' ')) hnext
          (fun _ => hplace) hrest hbehindRest haheadRest
        rw [singleFrom, if_neg (by simp [hbreak]), if_pos rfl, List.cons_append, cellsFrom, quotedFrom_gap hst (by decide),
          hread, QuotedState.gapSoFar_gap, hfolded]
        simp [Mark.behind_cons]
      · refine quotedFrom_singleFrom_cons hindent hst hgap hcolumn hprintable hbreak hspace fun m₁ hcolumn₁ => ?_
        have hread := quotedFrom_singleFrom hindent htail text m₁ (c :: (st.gapSoFar.folded ++ acc)) .word
          (.within [] (by simp)) (fun _ => hcolumn₁) hrest hbehindRest haheadRest
        rw [hread]
        simp [QuotedState.gapSoFar, Gap.empty, Gap.folded]

/-! ### Double quotes -/

theorem hexValue_hexDigit : ∀ d < 16, Text.hexValue? (Char.ofNat (if d < 10 then 48 + d else 'A'.toNat + (d - 10))) = some d := by
  decide

section
variable {acc tail : List Char} {m : Mark}

theorem quotedFrom_hexDigits (acc : List Char) : ∀ (width value left n : Nat) (m : Mark) (tail : List Char), 0 < left →
    quotedFrom false acc (.hex value (width + left)) (cellsFrom m (Text.hexDigits 'A' width n ++ tail)) =
      quotedFrom false acc (.hex (value * 16 ^ width + n % 16 ^ width) left)
        (cellsFrom (m.behind (Text.hexDigits 'A' width n)) tail)
  | 0, value, left, n, m, tail, _ => by simp [Text.hexDigits, Mark.behind, Nat.mod_one]
  | width + 1, value, left, n, m, tail, hleft => by
    have hread := quotedFrom_hexDigits acc width value (left + 1) (n / 16) m
      (Char.ofNat (if n % 16 < 10 then 48 + n % 16 else 'A'.toNat + (n % 16 - 10)) :: tail) (Nat.succ_pos left)
    have hdigit := hexValue_hexDigit (n % 16) (Nat.mod_lt _ (by decide))
    have hwidth : width + 1 + left = width + (left + 1) := by omega
    have hvalue : (value * 16 ^ width + n / 16 % 16 ^ width) * 16 + n % 16 =
        value * 16 ^ (width + 1) + n % 16 ^ (width + 1) := by
      rw [Nat.pow_succ', Nat.mod_mul, Nat.mul_left_comm]
      omega
    have hmore : ¬left + 1 ≤ 1 := by omega
    rw [Text.hexDigits, List.append_assoc, List.singleton_append, hwidth, hread, cellsFrom, quotedFrom, hdigit]
    simp only [hmore, if_false, hvalue, Nat.add_sub_cancel, Mark.behind_append]
    rfl

theorem quotedFrom_number {c : Char} (width : Nat) (hc : c.toNat < 16 ^ (width + 1)) :
    quotedFrom false acc (.hex 0 (width + 1)) (cellsFrom m (Text.hexDigits 'A' (width + 1) c.toNat ++ tail)) =
      quotedFrom false (c :: acc) .word (cellsFrom (m.behind (Text.hexDigits 'A' (width + 1) c.toNat)) tail) := by
  have hread := quotedFrom_hexDigits acc width 0 1 (c.toNat / 16) m
    (Char.ofNat (if c.toNat % 16 < 10 then 48 + c.toNat % 16 else 'A'.toNat + (c.toNat % 16 - 10)) :: tail) Nat.one_pos
  have hdigit := hexValue_hexDigit (c.toNat % 16) (Nat.mod_lt _ (by decide))
  have hsmall : c.toNat / 16 % 16 ^ width = c.toNat / 16 := by
    rw [Nat.pow_succ] at hc
    exact Nat.mod_eq_of_lt (Nat.div_lt_of_lt_mul (by omega))
  have hvalue : (0 * 16 ^ width + c.toNat / 16 % 16 ^ width) * 16 + c.toNat % 16 = c.toNat := by
    rw [hsmall]
    omega
  have hchar : scalarValue? c.toNat = some c := by
    have hvalid : c.toNat.isValidChar := c.valid
    rw [scalarValue?, if_pos hvalid, Char.ofNat_toNat]
  rw [Text.hexDigits, List.append_assoc, List.singleton_append, hread, cellsFrom, quotedFrom, hdigit]
  simp only [Nat.le_refl, if_true, hvalue, hchar, Mark.behind_append]
  rfl

/-- What stands behind a backslash: one letter, or a letter and the digits of the number of the character. -/
inductive IsEscape (c : Char) : List Char → Prop
  | letter {e : Char} (h : unescaped? e = some c) (hhex : hexDigits? e = none) (hbreak : isBreak e = false) :
    IsEscape c [e]
  | number {e : Char} (width : Nat) (hhex : hexDigits? e = some (width + 1)) (hbreak : isBreak e = false)
    (hsmall : c.toNat < 16 ^ (width + 1)) : IsEscape c (e :: Text.hexDigits 'A' (width + 1) c.toNat)

theorem IsEscape.ite {c e : Char} {n : Nat} {rest : List Char} (hletter : unescaped? e = some (Char.ofNat n))
    (hhex : hexDigits? e = none) (hbreak : isBreak e = false) (hrest : IsEscape c rest) :
    IsEscape c (if c.toNat = n then [e] else rest) := by
  by_cases h : c.toNat = n
  · rw [if_pos h]
    rw [← h, Char.ofNat_toNat] at hletter
    exact .letter hletter hhex hbreak
  · rwa [if_neg h]

theorem isEscape_escapeBody (c : Char) : IsEscape c (escapeBody c) := by
  change IsEscape c (if c.toNat = 0 then _ else _)
  iterate 15 refine .ite (by decide) (by decide) (by decide) ?_
  by_cases hbyte : c.toNat ≤ 0xFF
  · rw [if_pos hbyte]
    exact .number (c := c) (e := 'x') 1 (by decide) (by decide) (by omega)
  rw [if_neg hbyte]
  by_cases hword : c.toNat ≤ 0xFFFF
  · rw [if_pos hword]
    exact .number (c := c) (e := 'u') 3 (by decide) (by decide) (by omega)
  · rw [if_neg hword]
    have hvalid : c.toNat.isValidChar := c.valid
    unfold Nat.isValidChar at hvalid
    exact .number (c := c) (e := 'U') 7 (by decide) (by decide) (by omega)

theorem quotedFrom_escape {c : Char} {body : List Char} (h : IsEscape c body) :
    quotedFrom false acc .escape (cellsFrom m (body ++ tail)) =
      quotedFrom false (c :: acc) .word (cellsFrom (m.behind body) tail) := by
  cases h with
  | letter hletter hhex hbreak =>
    rw [List.singleton_append, cellsFrom, quotedFrom, if_neg (by simp [hbreak])]
    simp only [hhex, hletter]
    rfl
  | number width hhex hbreak hsmall =>
    rw [List.cons_append, cellsFrom, quotedFrom, if_neg (by simp [hbreak])]
    simp only [hhex]
    rw [quotedFrom_number width hsmall]
    rfl

theorem isBreak_hexDigits : ∀ {width n : Nat}, ∀ c ∈ Text.hexDigits 'A' width n, isBreak c = false
  | 0, _ => by simp [Text.hexDigits]
  | width + 1, n => by
    have hdigit : ∀ d < 16, isBreak (Char.ofNat (if d < 10 then 48 + d else 'A'.toNat + (d - 10))) = false := by decide
    rw [Text.hexDigits, List.forall_mem_append, List.forall_mem_singleton]
    exact ⟨isBreak_hexDigits, hdigit _ (Nat.mod_lt _ (by decide))⟩

theorem IsEscape.isBreak {c : Char} {body : List Char} (h : IsEscape c body) : ∀ d ∈ body, isBreak d = false := by
  cases h with
  | letter _ _ hbreak => simpa using hbreak
  | number _ _ hbreak _ => exact List.forall_mem_cons.mpr ⟨hbreak, isBreak_hexDigits⟩

theorem Mark.column_pos_behind (m : Mark) {c : Char} {text : List Char} (h : ∀ d ∈ c :: text, isBreak d = false) :
    0 < (m.behind (c :: text)).column := by
  rw [behind_of_line m h, List.length_cons]
  exact Nat.succ_pos _

theorem quotedFrom_double : ∀ (text : List Char) {st : QuotedState} (m : Mark) (acc : List Char), st.Open →
    (∃ blanks, st.gapSoFar = .within blanks) → 0 < m.column →
    quotedFrom false acc st (cellsFrom m (text.flatMap doubleChar ++ '"' :: tail)) =
      some ⟨(st.gapSoFar.folded ++ acc).reverse ++ text, cellsFrom (m.behind (text.flatMap doubleChar ++ ['"'])) tail, false⟩
  | [], st, m, acc, hst, _, hcolumn => by
    rw [List.flatMap_nil, List.nil_append, List.append_nil]
    exact quotedFrom_close hst hcolumn (by simp)
  | c :: text, st, m, acc, hst, hgap, hcolumn => by
    rw [List.flatMap_cons, List.append_assoc, List.append_assoc, doubleChar]
    by_cases hescaped : (!isPrintable c || breaksLine c || c = '"' || c = '\\') = true
    · have hescape := isEscape_escapeBody c
      have hplace := m.column_pos_behind (c := '\\') (List.forall_mem_cons.mpr ⟨by decide, hescape.isBreak⟩)
      have hread := quotedFrom_double text (m.behind ('\\' :: escapeBody c)) (c :: (st.gapSoFar.folded ++ acc)) .word
        ⟨[], rfl⟩ hplace
      rw [if_pos hescaped, List.cons_append, cellsFrom, quotedFrom_backslash hst hcolumn, quotedFrom_escape hescape]
      rw [Mark.behind_cons] at hread
      rw [hread]
      simp [QuotedState.gapSoFar, Gap.empty, Gap.folded, Mark.behind_append, Mark.behind_cons]
    · simp only [Bool.not_eq_true, Bool.or_eq_false_iff, Bool.not_eq_false', decide_eq_false_iff_not] at hescaped
      obtain ⟨⟨⟨hprintable, hline⟩, hquote⟩, hslash⟩ := hescaped
      have hbreak : isBreak c = false := (isBreak_eq_breaksLine hprintable).trans hline
      have hplace : 0 < (m.after c).column := by
        rw [Mark.after_of_not_break hbreak]
        exact Nat.succ_pos _
      have hescaped : (!isPrintable c || breaksLine c || c = '"' || c = '\\') = false := by
        simp [hprintable, hline, hquote, hslash]
      rw [hescaped, if_neg Bool.false_ne_true, List.singleton_append, List.singleton_append, cellsFrom, Mark.behind_cons]
      by_cases hspace : c = ' '
      · subst hspace
        obtain ⟨blanks, hblanks⟩ := hgap
        have hadd : st.gapSoFar.add ' ' = .within (' ' :: blanks) := by rw [hblanks, Gap.add_within]
        have hread := quotedFrom_double text (m.after ' ') acc (.gap (st.gapSoFar.add ' ')) ⟨_, hadd⟩ hplace
        rw [quotedFrom_gap hst (by decide), hread, QuotedState.gapSoFar_gap, hadd, hblanks, Gap.folded_within,
          Gap.folded_within]
        simp
      · have hgapChar : isGapChar c = false := by simp [isGapChar_of_isPrintable hprintable hline, hspace]
        have hread := quotedFrom_double text (m.after c) (c :: (st.gapSoFar.folded ++ acc)) .word ⟨[], rfl⟩ hplace
        rw [quotedFrom_char hst hcolumn hgapChar (by simp) fun _ => ⟨hquote, hslash⟩, hread]
        simp [QuotedState.gapSoFar, Gap.empty, Gap.folded]

end

end Scaffold.Yaml
