import Scaffold.Proofs.Yaml.Lines
import Scaffold.Proofs.Yaml.Scan

/-! A text that is written as a scalar is read as one token, whichever style it has, and the tokenizer then stands at
    the next line. -/

namespace Scaffold.Yaml
open Written

namespace Scanner

section
variable {s : Scanner} {b : Bool} {m : Mark} {c : Char} {text tail cs : List Char} {i : Nat} {outer : List Nat}

/-! ### What comes first -/

theorem startsAsIndicator_of_plainAllowed (h : plainAllowed text = true) : startsAsIndicator text = false := by
  simp only [plainAllowed, Bool.and_eq_true, Bool.not_eq_true'] at h
  exact h.1.2

theorem isGapChar_of_plainAllowed (h : plainAllowed (c :: cs) = true) : isGapChar c = false := by
  rw [isGapChar_of_isPrintable (isPrintable_of_plainAllowed h c List.mem_cons_self)
    (breaksLine_of_plainAllowed h c List.mem_cons_self)]
  simp only [plainAllowed, Bool.and_eq_true, List.head?_cons, decide_eq_true_eq] at h
  simpa using h.1.1.1.1.2

theorem opensToken_of_plainAllowed (h : plainAllowed (c :: cs) = true) : opensToken (c :: cs ++ tail) = true := by
  have hstart := startsAsIndicator_of_plainAllowed h
  simp only [startsAsIndicator, startIndicators, Bool.or_eq_false_iff] at hstart
  have hsign : c ≠ '#' := by
    rintro rfl
    exact absurd hstart.1 (by decide)
  have horder : c ≠ '\uFEFF' := ne_of_isPrintable (isPrintable_of_plainAllowed h c List.mem_cons_self) (by decide)
  simp [opensToken, isGapChar_of_plainAllowed h, hsign, horder]

theorem fetchHere_plain (h : plainAllowed (c :: cs) = true)
    (hline : atDocumentLine (cellsFrom m (c :: cs ++ tail)) = false) :
    (s.ready b m (c :: cs ++ tail)).fetchHere = (s.ready b m (c :: cs ++ tail)).fetchPlain := by
  have hgap := isGapChar_of_plainAllowed h
  have hstart := startsAsIndicator_of_plainAllowed h
  simp only [startsAsIndicator, Bool.or_eq_false_iff, Bool.and_eq_false_iff, decide_eq_false_iff_not] at hstart
  obtain ⟨hstart, hfollowed⟩ := hstart
  simp only [startIndicators, List.contains_eq_mem, List.mem_cons, List.not_mem_nil, or_false, decide_eq_false_iff_not,
    not_or] at hstart
  obtain ⟨h1, h2, h3, h4, h5, h6, h7, h8, h9, h10, h11, h12, h13, h14, h15, h16⟩ := hstart
  rw [List.cons_append, cellsFrom] at hline
  -- the three signs that may begin a plain scalar do so in front of a word only
  rcases hfollowed with ⟨⟨hquestion, hcolon⟩, hhyphen⟩ | hword
  · have hbegins : beginsPlain false c (cellsFrom (m.after c) (cs ++ tail)) = true := by
      simp [beginsPlain, indicators, *]
    simp [fetchHere, ready, cellsFrom, inFlow, *]
  · have hnogap : ∀ m', atGap (cellsFrom m' (cs ++ tail)) = false := fun _ => atGap_of_isGapEnd hword
    have hbegins : beginsPlain false c (cellsFrom (m.after c) (cs ++ tail)) = true := by
      cases cs with
      | nil => cases hword
      | cons d cs =>
        simp only [List.head?_cons, isGapEnd, Bool.or_eq_false_iff] at hword
        have hnext : isSpaceOrTab d = false := hword.1.1
        rw [List.cons_append] at hnogap
        by_cases hhyphen : c = '-'
        · simp [beginsPlain, hhyphen, cellsFrom, hnext]
        by_cases hquestion : c = '?' <;> by_cases hcolon : c = ':' <;> simp [beginsPlain, indicators, *]
    simp [fetchHere, ready, cellsFrom, inFlow, *]

/-! ### Scalars as values -/

/-- A key that may begin to the right of the block around it is not required. -/
theorem Stands.saveKey (h : s.Stands b m text (i :: outer)) (hm : i < m.column) :
    ∃ k, (s.ready b m text).saveKey = some { s.ready b m text with keys := [k] } ∧
      ∀ p, k = some p → p.required = false ∧ p.mark = m := by
  have hmark := h.mark_ready
  have hindents : (s.ready b m text).indents = i :: outer := h.indents
  cases b with
  | false => exact ⟨none, rfl, by simp⟩
  | true =>
    refine ⟨some ⟨false, s.delivered + s.queue.length, m⟩, ?_, by simp⟩
    have hrequired : (!(s.ready true m text).inFlow && decide ((s.ready true m text).indents.head? = some m.column)) = false := by
      simp [hindents, Nat.ne_of_lt hm]
    have hallowed : (s.ready true m text).keyAllowed = true := rfl
    have hdrop : (s.ready true m text).dropKey = some (s.ready true m text) := rfl
    rw [Scanner.saveKey, if_pos hallowed, hmark, hdrop]
    show some _ = _
    rw [hrequired]
    rfl

theorem Stands.yields_scalar {b' : Bool} {m' : Mark} {text' : List Char} {cells : List Cell}
    {key : Option PossibleKey} {kind : TokenKind} {kinds : List TokenKind} (h : s.Stands b m text (i :: outer))
    (htext : opensToken text = true) (hm : i < m.column)
    (hfetch : (s.ready b m text).fetchHere = some (takeTo { s.ready b m text with keys := [key], keyAllowed := b' } kind cells))
    (hkey : ∀ p, key = some p → p.required = false ∧ p.mark = m)
    (hgap : skipGap false b' false cells = skipGap false true false (cellsFrom m' text'))
    (hfinish : m.behind text = m'.behind text') (hline : m.line < m'.line) (hshort : cells.length < text.length)
    (hreads : Reads true m' text' (i :: outer) kinds) : s.Yields (kind :: kinds) := by
  refine h.yields [⟨kind, _, _⟩] htext ?_ hfetch rfl (List.cons_ne_nil _ _) hshort
    ⟨hgap, h.finish.trans hfinish, ⟨key, rfl, fun p hp => ⟨(hkey p hp).1, ?_⟩⟩, h.indents, h.ended⟩ hreads
  · rintro _ ⟨⟩
    exact Nat.le_of_lt hm
  · rw [(hkey p hp).2]
    exact hline

/-- What is written for a value in a collection at column `i` is read as these tokens, and the tokenizer then stands
    behind the margin of the next line. -/
def ReadsValue (i : Nat) (text : List Char) (kinds : List TokenKind) : Prop :=
  ∀ (b : Bool) (m : Mark) (k : Nat) (tail : List Char) (outer : List Nat) (later : List TokenKind), i < m.column → k ≤ i →
    opensToken tail = true → Reads true (m.behind (text ++ spaces k)) tail (i :: outer) later →
      Reads b m (text ++ (spaces k ++ tail)) (i :: outer) (kinds ++ later)

theorem readsValue_plain (h : plainAllowed (c :: cs) = true) :
    ReadsValue i (c :: cs ++ ['\n']) [.scalar (String.ofList (c :: cs)) .plain] := by
  intro b m k tail outer later hm hk htail hreads
  simp only [List.append_assoc, List.singleton_append] at hreads ⊢
  intro s hs
  obtain ⟨key, hsave, hkey⟩ := hs.saveKey hm
  have hcolumn : s.contentColumn = i + 1 := by rw [contentColumn, hs.indents]
  have hline : atDocumentLine (cellsFrom m (c :: cs ++ '\n' :: (spaces k ++ tail))) = false :=
    atDocumentLine_of_column (Nat.zero_lt_of_lt hm)
  have hplain := plainFrom_line (m := m) (staysPlain_of_allowed h) (Nat.le_succ_of_le hm) (Nat.lt_succ_of_le hk) htail
  have hfetch : (s.ready b m (c :: cs ++ '\n' :: (spaces k ++ tail))).fetchHere =
      some (takeTo { s.ready b m (c :: cs ++ '\n' :: (spaces k ++ tail)) with keys := [key], keyAllowed := true }
        (.scalar (String.ofList (c :: cs)) .plain) (cellsFrom (m.behind (c :: cs ++ '\n' :: spaces k)) tail)) := by
    rw [fetchHere_plain h hline, fetchPlain, hsave]
    show Option.bind (plainFrom false s.contentColumn [] none _) _ = _
    rw [hcolumn]
    show Option.bind (plainFrom false (i + 1) [] none (cellsFrom m (c :: cs ++ '\n' :: (spaces k ++ tail)))) _ = _
    rw [hplain]
    rfl
  refine hs.yields_scalar (opensToken_of_plainAllowed h) hm hfetch hkey rfl ?_ ?_ ?_ hreads
  · rw [← Mark.behind_append, List.append_assoc]
    rfl
  · exact m.line_lt_behind (c := '\n') (by decide) (by simp)
  · simp only [length_cellsFrom, List.length_append, List.length_cons]
    omega

theorem fetchHere_quoted {single : Bool} :
    (s.ready b m (quoteOf single :: text)).fetchHere = (s.ready b m (quoteOf single :: text)).fetchQuoted single := by
  have hquote : quoteOf single ≠ '-' ∧ quoteOf single ≠ '.' := by cases single <;> decide
  have hline : atDocumentLine (⟨quoteOf single, m⟩ :: cellsFrom (m.after (quoteOf single)) text) = false :=
    atDocumentLine_of_ne hquote.1 hquote.2
  cases single <;> simp_all [fetchHere, ready, cellsFrom, inFlow, quoteOf]

theorem readsValue_quoted (single : Bool) {body : List Char}
    (hread : ∀ (m : Mark) (tail : List Char), 0 < m.column → tail.head? ≠ some '\'' →
      quotedFrom single [] .word (cellsFrom m (body ++ quoteOf single :: tail)) =
        some ⟨cs, cellsFrom (m.behind (body ++ [quoteOf single])) tail, false⟩) :
    ReadsValue i (quoteOf single :: body ++ [quoteOf single] ++ ['\n'])
      [.scalar (String.ofList cs) (if single then .single else .double)] := by
  intro b m k tail outer later hm hk htail hreads
  simp only [List.append_assoc, List.cons_append, List.nil_append] at hreads ⊢
  intro s hs
  obtain ⟨key, hsave, hkey⟩ := hs.saveKey hm
  have hquote : isBreak (quoteOf single) = false := by cases single <;> rfl
  have hafter : (m.after (quoteOf single)).column = m.column + 1 := by
    rw [Mark.after_of_not_break hquote]
    rfl
  have hbody := hread (m.after (quoteOf single)) ('\n' :: (spaces k ++ tail)) (by omega) (by simp)
  have hopens : opensToken (quoteOf single :: (body ++ quoteOf single :: '\n' :: (spaces k ++ tail))) = true := by
    cases single <;> rfl
  obtain ⟨m₁, hm₁⟩ : ∃ m₁, m₁ = (m.after (quoteOf single)).behind (body ++ [quoteOf single]) := ⟨_, rfl⟩
  rw [← hm₁] at hbody
  have hplace : (m₁.after '\n').behind (spaces k) =
      m.behind (quoteOf single :: (body ++ quoteOf single :: '\n' :: spaces k)) := by
    rw [hm₁]
    simp [Mark.behind_append, Mark.behind_cons, Mark.behind_nil]
  have hfetch : (s.ready b m (quoteOf single :: (body ++ quoteOf single :: '\n' :: (spaces k ++ tail)))).fetchHere =
      some (takeTo { s.ready b m (quoteOf single :: (body ++ quoteOf single :: '\n' :: (spaces k ++ tail))) with
        keys := [key], keyAllowed := false } (.scalar (String.ofList cs) (if single then .single else .double))
          (cellsFrom m₁ ('\n' :: (spaces k ++ tail)))) := by
    rw [fetchHere_quoted, fetchQuoted, hsave]
    show Option.bind (quotedFrom single [] .word
      (cellsFrom (m.after (quoteOf single)) (body ++ quoteOf single :: '\n' :: (spaces k ++ tail)))) _ = _
    rw [hbody]
    rfl
  refine hs.yields_scalar hopens hm hfetch hkey (skipGap_newline false m₁ _) ?_ ?_ ?_ (Reads.spaces (hplace ▸ hreads))
  · rw [hm₁]
    simp [Mark.behind_append, Mark.behind_cons, Mark.behind_nil]
  · rw [hm₁]
    refine Nat.lt_succ_of_le (Nat.le_trans ?_ (Mark.line_le_behind _ _))
    rw [Mark.after_of_not_break hquote]
    exact Nat.le_refl _
  · simp only [length_cellsFrom, List.length_append, List.length_cons]
    omega

theorem readsValue_single (hprintable : ∀ d ∈ cs, isPrintable d = true ∧ d ≠ '\n')
    (hbehind : hasPair breaksLine (· = ' ') cs = false) (hahead : hasPair (· = ' ') breaksLine cs = false) (indent : Nat) :
    ReadsValue i ('\'' :: singleFrom (indent + 1) false cs ++ ['\''] ++ ['\n']) [.scalar (String.ofList cs) .single] :=
  readsValue_quoted true fun _ _ hm htail =>
    quotedFrom_singleFrom (Nat.succ_pos indent) htail _ _ _ .word (.within [] (by simp)) (fun _ => hm) hprintable hbehind hahead

theorem readsValue_double :
    ReadsValue i ('"' :: cs.flatMap doubleChar ++ ['"'] ++ ['\n']) [.scalar (String.ofList cs) .double] :=
  readsValue_quoted false fun _ _ hm _ => quotedFrom_double _ _ _ .word ⟨[], rfl⟩ hm

theorem endLine_append (h : text ≠ []) (front : List Char) : endLine (front ++ text) = front ++ endLine text := by
  obtain ⟨start, c, rfl⟩ : ∃ start c, text = start ++ [c] := ⟨_, _, (List.dropLast_concat_getLast h).symm⟩
  rw [← List.append_assoc]
  cases hc : breaksLine c with
  | true => rw [endLine_of_break hc, endLine_of_break hc, List.append_assoc]
  | false => rw [endLine_of_not_break hc, endLine_of_not_break hc, List.append_assoc, List.append_assoc, List.append_assoc]

theorem fetchHere_literal (hm : 0 < m.column) :
    (s.ready b m ('|' :: text)).fetchHere = (s.ready b m ('|' :: text)).fetchBlockScalar false := by
  have hline : atDocumentLine (⟨'|', m⟩ :: cellsFrom (m.after '|') text) = false := atDocumentLine_of_column hm
  simp [fetchHere, ready, cellsFrom, inFlow, hline]

theorem literalFrom_ne_nil (h : cs ≠ []) (n : Nat) : literalFrom n true cs ≠ [] := by
  cases cs with
  | nil => exact absurd rfl h
  | cons c cs =>
    rw [literalFrom]
    split <;> simp

theorem fetchHere_literalText {lines : List Char} (hcolumn : s.contentColumn = i + 1) (hm : 0 < m.column) (htext : cs ≠ [])
    (hprintable : ∀ d ∈ cs, isPrintable d = true) (hlines : lines = endLine (literalFrom (i + 2) true cs)) {k : Nat}
    (hk : k ≤ i) (htail : opensToken tail = true) :
    (s.ready b m ('|' :: (headerEnd cs ++ '\n' :: (lines ++ (spaces k ++ tail))))).fetchHere =
      some (takeTo { s.ready b m ('|' :: (headerEnd cs ++ '\n' :: (lines ++ (spaces k ++ tail)))) with
        keys := [none], keyAllowed := true } (.scalar (String.ofList cs) .literal)
          (cellsFrom (m.behind ('|' :: (headerEnd cs ++ '\n' :: (lines ++ spaces k)))) tail)) := by
  have hheader := blockHeader?_headerEnd cs (lines ++ (spaces k ++ tail)) (m.after '|')
  obtain ⟨m₁, hm₁⟩ : ∃ m₁, m₁ = (m.after '|').behind (headerEnd cs ++ ['\n']) := ⟨_, rfl⟩
  have hstart : m₁.column = 0 := hm₁ ▸ Mark.column_behind_break _ _ (by decide)
  have hbody := blockFrom_literal (n := i + 2) (k := k) htext hprintable hstart (Nat.le_succ (i + 1)) (by omega) htail
  have hplace : m₁.behind (lines ++ spaces k) = m.behind ('|' :: (headerEnd cs ++ '\n' :: (lines ++ spaces k))) := by
    rw [hm₁]
    simp [Mark.behind_append, Mark.behind_cons, Mark.behind_nil]
  rw [← hlines, hplace] at hbody
  rw [← hm₁] at hheader
  have hdrop : (s.ready b m ('|' :: (headerEnd cs ++ '\n' :: (lines ++ (spaces k ++ tail))))).dropKey =
    some (s.ready b m ('|' :: (headerEnd cs ++ '\n' :: (lines ++ (spaces k ++ tail))))) := rfl
  rw [fetchHere_literal hm, fetchBlockScalar, hdrop]
  show Option.bind (blockHeader? (cellsFrom (m.after '|') (headerEnd cs ++ '\n' :: (lines ++ (spaces k ++ tail))))) _ = _
  rw [hheader]
  -- the header gives the margin only if the first line would hide it
  cases hblank : beginsBlank cs with
  | true =>
    rw [hblank, if_pos rfl] at hbody
    show Option.bind (blockFrom false (endingOf cs) _ (.known (s.contentColumn - 1 + 2)) false _) _ = _
    rw [hcolumn]
    show Option.bind (blockFrom false (endingOf cs) ⟨[], none, [], false⟩ (.known (i + 2)) false
      (cellsFrom m₁ (lines ++ (spaces k ++ tail)))) _ = _
    rw [hbody]
    rfl
  | false =>
    rw [hblank, if_neg Bool.false_ne_true] at hbody
    show Option.bind (blockFrom false (endingOf cs) _ (.unknown 0 (max s.contentColumn 1)) false _) _ = _
    rw [hcolumn, Nat.max_eq_left (Nat.succ_le_succ (Nat.zero_le i))]
    show Option.bind (blockFrom false (endingOf cs) ⟨[], none, [], false⟩ (.unknown 0 (i + 1)) false
      (cellsFrom m₁ (lines ++ (spaces k ++ tail)))) _ = _
    rw [hbody]
    rfl

theorem readsValue_literal (htext : cs ≠ []) (hprintable : ∀ d ∈ cs, isPrintable d = true) :
    ReadsValue i (endLine (literalHeader cs ++ '\n' :: literalFrom (i + 2) true cs)) [.scalar (String.ofList cs) .literal] := by
  intro b m k tail outer later hm hk htail hreads
  obtain ⟨lines, hlines⟩ : ∃ lines, lines = endLine (literalFrom (i + 2) true cs) := ⟨_, rfl⟩
  have hwritten : endLine (literalHeader cs ++ '\n' :: literalFrom (i + 2) true cs) =
      '|' :: (headerEnd cs ++ '\n' :: lines) := by
    rw [List.append_cons, endLine_append (literalFrom_ne_nil htext _), ← hlines, literalHeader_eq]
    simp
  rw [hwritten] at hreads ⊢
  simp only [List.append_assoc, List.cons_append] at hreads ⊢
  intro s hs
  have hcolumn : s.contentColumn = i + 1 := by rw [contentColumn, hs.indents]
  have hfetch := fetchHere_literalText (b := b) hcolumn (Nat.zero_lt_of_lt hm) htext hprintable hlines hk htail
  refine hs.yields_scalar (by rfl) hm hfetch (by simp) rfl ?_ ?_ ?_ hreads
  · rw [← Mark.behind_append]
    simp
  · exact m.line_lt_behind (c := '\n') (by decide) (by simp)
  · simp only [length_cellsFrom, List.length_append, List.length_cons]
    omega

theorem readsValue_scalar (i : Nat) (text : String) :
    ReadsValue i (endLine (scalar (i + 2) text)) [.scalar text (styleOf text)] := by
  obtain ⟨cs, hcs⟩ : ∃ cs, cs = text.toList := ⟨_, rfl⟩
  have htext : text = String.ofList cs := by rw [hcs, String.ofList_toList]
  have hstyled := isStyled_styleOf text
  rw [scalar, ← hcs]
  revert hstyled
  generalize styleOf text = style
  intro hstyled
  -- one case for each style, and what allows it
  cases hstyled with
  | literal hne h =>
    rw [← hcs] at hne h
    simp only [literalAllowed, Bool.and_eq_true, List.all_eq_true] at h
    exact htext ▸ readsValue_literal hne h.1.1
  | double =>
    show ReadsValue i (endLine ('"' :: cs.flatMap doubleChar ++ ['"'])) _
    rw [htext, endLine_of_not_break (by decide)]
    exact readsValue_double
  | plain htyped h =>
    rw [← hcs] at h
    obtain ⟨c, rest, rfl⟩ : ∃ c rest, cs = c :: rest := by
      refine List.exists_cons_of_ne_nil ?_
      rintro rfl
      rw [htext] at htyped
      cases htyped
    show ReadsValue i (endLine (c :: rest)) _
    have hend : endLine (c :: rest) = c :: rest ++ ['\n'] := by
      rw [endLine, if_neg]
      simp only [Option.any_eq_true, not_exists, not_and, Bool.not_eq_true]
      exact fun d hd => breaksLine_of_plainAllowed h d (List.mem_of_getLast? hd)
    rw [htext, hend]
    exact readsValue_plain h
  | single hline h =>
    rw [← hcs] at hline h
    simp only [singleAllowed, Bool.and_eq_true, Bool.not_eq_true', List.all_eq_true] at h
    show ReadsValue i (endLine ('\'' :: singleFrom (i + 2) false cs ++ ['\''])) _
    rw [htext, endLine_of_not_break (by decide)]
    refine readsValue_single (fun d hd => ⟨h.1.1 d hd, ?_⟩) h.1.2 h.2 (i + 1)
    rintro rfl
    simp [hd] at hline

end

end Scanner

end Scaffold.Yaml
