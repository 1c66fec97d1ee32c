import Scaffold.Proofs.Yaml.Scalar

/-! A text is read as a key in front of a colon. One that is short and on a line of its own is held back until the colon
    is seen, and what makes it the key of a mapping is put in front of it; any other one stands behind a question mark. -/

namespace Scaffold.Yaml
open Written

namespace Scanner

/-- A key at `column` opens a mapping, unless one is open there. -/
inductive Opens (column : Nat) : List Nat → List Nat → List TokenKind → Prop
  | opened {indents : List Nat} (h : ∀ i, indents.head? = some i → i < column) :
    Opens column indents (column :: indents) [.blockMapping]
  | within {outer : List Nat} : Opens column (column :: outer) (column :: outer) []

section
variable {s : Scanner} {column : Nat} {indents indents' : List Nat} {kinds front : List TokenKind} {c : Char} {m : Mark}
  {cs tail : List Char}

theorem Opens.le (h : Opens column indents indents' front) : ∀ i, indents.head? = some i → i ≤ column := by
  cases h with
  | opened h => exact fun i hi => Nat.le_of_lt (h i hi)
  | within => simp

theorem Opens.contentColumn_le (h : Opens column s.indents indents' front) : s.contentColumn ≤ column + 1 := by
  have hle := h.le
  rw [contentColumn]
  cases hindents : s.indents with
  | nil => exact Nat.zero_le _
  | cons i outer => exact Nat.succ_le_succ (hle i (by rw [hindents]; rfl))

theorem Opens.openBlock (h : Opens column s.indents indents' front) (hkeys : s.inFlow = false) (n : Nat) (m : Mark) :
    s.openBlock column (some n) .blockMapping m =
      { s.insertAt n (front.map fun kind => ⟨kind, m, m⟩) with indents := indents' } := by
  obtain ⟨rest, finish, keys, indents, keyAllowed, queue, delivered, ended⟩ := s
  cases h with
  | opened h =>
    have hbelow : indentBelow ⟨rest, finish, keys, indents, keyAllowed, queue, delivered, ended⟩ column = true := by
      cases indents with
      | nil => rfl
      | cons i outer => exact decide_eq_true (h i rfl)
    rw [Scanner.openBlock, hkeys, hbelow]
    rfl
  | within =>
    rw [Scanner.openBlock, hkeys]
    simp [indentBelow, insertAt]

theorem Opens.openBlock_here (h : Opens column s.indents indents' front) (hkeys : s.inFlow = false) (m : Mark) :
    s.openBlock column none .blockMapping m =
      { s with queue := s.queue ++ front.map (fun kind => ⟨kind, m, m⟩), indents := indents' } := by
  obtain ⟨rest, finish, keys, indents, keyAllowed, queue, delivered, ended⟩ := s
  cases h with
  | opened h =>
    have hbelow : indentBelow ⟨rest, finish, keys, indents, keyAllowed, queue, delivered, ended⟩ column = true := by
      cases indents with
      | nil => rfl
      | cons i outer => exact decide_eq_true (h i rfl)
    rw [Scanner.openBlock, hkeys, hbelow]
    rfl
  | within =>
    rw [Scanner.openBlock, hkeys]
    simp [indentBelow]

theorem atDocumentLine_of_plainAllowed (h : plainAllowed (c :: cs) = true) :
    atDocumentLine (cellsFrom m (c :: cs ++ ':' :: tail)) = false := by
  have hstart : startsDocument (c :: cs) = false := by
    simp only [plainAllowed, Bool.and_eq_true, Bool.not_eq_true'] at h
    exact h.1.1.2
  rcases cs with _ | ⟨d, _ | ⟨e, rest⟩⟩
  · cases tail <;> simp [cellsFrom, atDocumentLine]
    rintro _ rfl
    simp
  · simp [cellsFrom, atDocumentLine]
    rintro _ rfl rfl
    simp
  · simp only [startsDocument, List.isPrefixOf, Bool.or_eq_false_iff] at hstart
    simp [cellsFrom, atDocumentLine]
    rintro _ rfl rfl hsign
    rcases hsign with rfl | rfl <;> simp at hstart

theorem deliverFrom_held {p : PossibleKey} {t : Token} (hkeys : s.keys = [some p]) : ∀ {queue : List Token} {delivered : Nat},
    delivered + queue.length = p.number → s.deliverFrom delivered (queue ++ [t]) = (queue, [t])
  | [], delivered, h => by
    have hawaits : s.awaitsKey delivered = true := by simpa [awaitsKey, hkeys] using h.symm
    rw [List.nil_append, deliverFrom, if_pos hawaits]
  | u :: queue, delivered, h => by
    rw [List.length_cons] at h
    have hawaits : s.awaitsKey delivered = false := by
      simp [awaitsKey, hkeys]
      omega
    have hnumber : delivered + 1 + queue.length = p.number := by omega
    have hlater := deliverFrom_held (t := t) hkeys hnumber
    rw [List.cons_append, deliverFrom, hawaits, hlater]
    rfl

/-- What is written for a key on one line: in front of a colon it is taken for a scalar, with which a key may begin. -/
structure KeyText (written : List Char) (key : String) (style : Style) : Prop where
  line : ∀ d ∈ written, isBreak d = false
  short : written.length ≤ 1024
  opens : ∀ tail, opensToken (written ++ tail) = true
  fetch : ∀ {s : Scanner} {m : Mark} {tail : List Char} {p : PossibleKey}, s.contentColumn ≤ m.column + 1 →
    atGap (cellsFrom ((m.behind written).after ':') tail) = true →
      (s.ready true m (written ++ ':' :: tail)).saveKey =
          some { s.ready true m (written ++ ':' :: tail) with keys := [some p] } →
        (s.ready true m (written ++ ':' :: tail)).fetchHere =
          some (takeTo { s.ready true m (written ++ ':' :: tail) with keys := [some p], keyAllowed := false }
            (.scalar key style) (cellsFrom (m.behind written) (':' :: tail)))

theorem isBreak_of_plainAllowed (h : plainAllowed cs = true) : ∀ d ∈ cs, isBreak d = false := fun d hd =>
  (isBreak_eq_breaksLine (isPrintable_of_plainAllowed h d hd)).trans (breaksLine_of_plainAllowed h d hd)

theorem keyText_plain (h : plainAllowed (c :: cs) = true) (hshort : (c :: cs).length ≤ 1024) :
    KeyText (c :: cs) (String.ofList (c :: cs)) .plain := by
  refine ⟨isBreak_of_plainAllowed h, hshort, fun _ => opensToken_of_plainAllowed h, fun {s m tail p} hcolumn hgap hsave => ?_⟩
  rw [fetchHere_plain h (atDocumentLine_of_plainAllowed h), fetchPlain, hsave]
  show Option.bind (plainFrom false s.contentColumn [] none (cellsFrom m (c :: cs ++ ':' :: tail))) _ = _
  rw [plainFrom_key (staysPlain_of_allowed h) hcolumn hgap]
  rfl

theorem keyText_quoted (single : Bool) {body : List Char} (hline : ∀ d ∈ body, isBreak d = false)
    (hshort : body.length ≤ 1022)
    (hread : ∀ (m : Mark) (tail : List Char), 0 < m.column → tail.head? ≠ some '\'' →
      quotedFrom single [] .word (cellsFrom m (body ++ quoteOf single :: tail)) =
        some ⟨cs, cellsFrom (m.behind (body ++ [quoteOf single])) tail, false⟩) :
    KeyText (quoteOf single :: body ++ [quoteOf single]) (String.ofList cs) (if single then .single else .double) := by
  have hquote : isBreak (quoteOf single) = false := by cases single <;> rfl
  refine ⟨?_, ?_, ?_, fun {s m tail p} _ _ hsave => ?_⟩
  · exact List.forall_mem_append.mpr ⟨List.forall_mem_cons.mpr ⟨hquote, hline⟩, List.forall_mem_singleton.mpr hquote⟩
  · simp only [List.length_append, List.length_cons, List.length_nil]
    omega
  · cases single <;> exact fun _ => rfl
  · have hcolumn : 0 < (m.after (quoteOf single)).column := by
      rw [Mark.after_of_not_break hquote]
      exact Nat.succ_pos _
    have hbody := hread (m.after (quoteOf single)) (':' :: tail) hcolumn (by simp)
    have hwritten : quoteOf single :: body ++ [quoteOf single] ++ ':' :: tail =
        quoteOf single :: (body ++ quoteOf single :: ':' :: tail) := by simp
    rw [hwritten] at hsave ⊢
    rw [fetchHere_quoted, fetchQuoted, hsave]
    show Option.bind (quotedFrom single [] .word
      (cellsFrom (m.after (quoteOf single)) (body ++ quoteOf single :: ':' :: tail))) _ = _
    rw [hbody]
    rfl

theorem Stands.fetch_key {written : List Char} {key : String} {style : Style}
    (hs : s.Stands true m (written ++ ':' :: tail) indents) (h : KeyText written key style)
    (hopens : Opens m.column indents indents' front)
    (hgap : atGap (cellsFrom ((m.behind written).after ':') tail) = true) :
    ∃ p : PossibleKey, p.number = s.delivered + s.queue.length ∧ p.mark = m ∧
      s.fetch = some (takeTo { s.ready true m (written ++ ':' :: tail) with keys := [some p], keyAllowed := false }
        (.scalar key style) (cellsFrom (m.behind written) (':' :: tail))) := by
  have hcolumn : s.contentColumn ≤ m.column + 1 :=
    (hs.indents ▸ hopens : Opens m.column s.indents indents' front).contentColumn_le
  have hallowed : (s.ready true m (written ++ ':' :: tail)).keyAllowed = true := rfl
  have hdrop : (s.ready true m (written ++ ':' :: tail)).dropKey = some (s.ready true m (written ++ ':' :: tail)) := rfl
  refine ⟨⟨decide (s.indents.head? = some m.column), s.delivered + s.queue.length, m⟩, rfl, rfl, ?_⟩
  rw [hs.fetch_within (h.opens _) hopens.le]
  refine h.fetch hcolumn hgap ?_
  rw [Scanner.saveKey, if_pos hallowed, hs.mark_ready, hdrop]
  rfl

/-- The tokenizer at the colon of a text that is held back. -/
def atColon (finish : Mark) (p : PossibleKey) (t : Token) (indents : List Nat) (m : Mark) (tail : List Char) : Scanner :=
  ⟨cellsFrom m (':' :: tail), finish, [some p], indents, false, [t], p.number, false⟩

theorem dropStaleKeys_of_fresh {p : PossibleKey} (hkeys : s.keys = [some p]) (hline : p.mark.line = s.mark.line)
    (hindex : s.mark.index ≤ p.mark.index + 1024) : s.dropStaleKeys = some { s with keys := [some p] } := by
  rw [dropStaleKeys]
  generalize s.mark = m at hline hindex
  simp [hkeys, hline, Nat.not_lt.mpr hindex]

theorem deliver_atColon {finish : Mark} {p : PossibleKey} {t : Token} {queue : List Token} {delivered : Nat}
    (hnumber : p.number = delivered + queue.length) (hline : p.mark.line = m.line) (hindex : m.index ≤ p.mark.index + 1024) :
    deliver ⟨cellsFrom m (':' :: tail), finish, [some p], indents, false, queue ++ [t], delivered, false⟩ =
      some (queue, atColon finish p t indents m tail) := by
  have hdrop := dropStaleKeys_of_fresh (s := ⟨cellsFrom m (':' :: tail), finish, [some p], indents, false, queue ++ [t],
    delivered, false⟩) rfl hline hindex
  rw [deliver_of_keys (by simp) hdrop]
  simp only [deliverFrom_held (s := ⟨cellsFrom m (':' :: tail), finish, [some p], indents, false, queue ++ [t],
    delivered, false⟩) rfl hnumber.symm, ← hnumber]
  rfl

/-- A colon makes a key of the text that is held back. -/
theorem fetch_atColon (finish : Mark) {p : PossibleKey} (t : Token) (hopens : Opens p.mark.column indents indents' front)
    (hline : p.mark.line = m.line) (hindex : m.index ≤ p.mark.index + 1024) (hcolumn : p.mark.column ≤ m.column)
    (hgap : atGap (cellsFrom (m.after ':') tail) = true) :
    ∃ stop, (atColon finish p t indents m tail).fetch = some ⟨cellsFrom (m.after ':') tail, finish, [none], indents', false,
      front.map (fun kind => ⟨kind, p.mark, p.mark⟩) ++ [⟨.key, p.mark, p.mark⟩, t, ⟨.value, m, stop⟩], p.number, false⟩ := by
  have hskip : skipGap false false false (cellsFrom m (':' :: tail)) = (false, cellsFrom m (':' :: tail)) :=
    skipGap_of_opensToken rfl
  have hdrop : (atColon finish p t indents m tail).dropStaleKeys = some (atColon finish p t indents m tail) :=
    dropStaleKeys_of_fresh rfl hline hindex
  have hblocks : (atColon finish p t indents m tail).closeBlocks (some m.column) = atColon finish p t indents m tail :=
    closeBlocks_of_le fun i hi => Nat.le_trans (hopens.le i hi) hcolumn
  have hfetch : (atColon finish p t indents m tail).fetch = (atColon finish p t indents m tail).fetchHere := by
    show Option.bind (dropStaleKeys { atColon finish p t indents m tail with
      keyAllowed := (skipGap false false false (cellsFrom m (':' :: tail))).1
      rest := (skipGap false false false (cellsFrom m (':' :: tail))).2 }) _ = _
    rw [hskip]
    show Option.bind (dropStaleKeys (atColon finish p t indents m tail)) _ = _
    rw [hdrop, Option.bind_some]
    show ((atColon finish p t indents m tail).closeBlocks (some m.column)).fetchHere = _
    rw [hblocks]
  have hvalue : (atColon finish p t indents m tail).fetchHere = (atColon finish p t indents m tail).fetchValue := by
    have hdocument : atDocumentLine (⟨':', m⟩ :: cellsFrom (m.after ':') tail) = false :=
      atDocumentLine_of_gap (by rfl) hgap
    simp [fetchHere, atColon, cellsFrom, hdocument, hgap]
  have hinsert : ∀ (indents : List Nat) (new queue : List Token),
      insertAt ⟨cellsFrom m (':' :: tail), finish, [some p], indents, false, queue, p.number, false⟩ p.number new =
        ⟨cellsFrom m (':' :: tail), finish, [some p], indents, false, new ++ queue, p.number, false⟩ := by
    intro indents new queue
    simp [insertAt]
  refine ⟨{ m with index := m.index + 1, column := m.column + 1 }, ?_⟩
  rw [hfetch, hvalue]
  show some (take { openBlock (insertAt (atColon finish p t indents m tail) p.number [⟨.key, p.mark, p.mark⟩])
    p.mark.column (some p.number) .blockMapping p.mark with keys := [none], keyAllowed := false } 1 .value) = _
  rw [atColon, hinsert, Opens.openBlock hopens rfl, hinsert]
  simp [take, enqueue, mark, cellsFrom]

theorem Reads.key {written : List Char} {key : String} {style : Style} (h : KeyText written key style)
    (hopens : Opens m.column indents indents' front)
    (hgap : atGap (cellsFrom ((m.behind written).after ':') tail) = true)
    (hreads : Reads false ((m.behind written).after ':') tail indents' kinds) :
    Reads true m (written ++ ':' :: tail) indents (front ++ [.key, .scalar key style, .value] ++ kinds) := by
  intro s hs
  obtain ⟨m₁, hm₁⟩ : ∃ m₁, m₁ = m.behind written := ⟨_, rfl⟩
  have hplace := hm₁.trans (m.behind_of_line h.line)
  obtain ⟨p, hnumber, hmark, hfetch⟩ := hs.fetch_key h hopens hgap
  rw [← hm₁] at hfetch hgap hreads
  have hends : s.ended = false := hs.ended
  have hfinish : s.finish = (m₁.after ':').behind tail := by
    rw [hs.finish, Mark.behind_append, ← hm₁, Mark.behind_cons]
  have hlength := hs.length_le (h.opens _)
  have hwritten : written ≠ [] := by
    rintro rfl
    exact absurd (h.opens ['#']) (by decide)
  have hpos := List.length_pos_iff.mpr hwritten
  have hshort := h.short
  rw [List.length_append, List.length_cons] at hlength
  have hline : p.mark.line = m₁.line := by rw [hmark, hplace]
  have hindex : m₁.index ≤ p.mark.index + 1024 := by
    rw [hmark, hplace]
    exact Nat.add_le_add_left hshort _
  have hcolumn : p.mark.column ≤ m₁.column := by
    rw [hmark, hplace]
    exact Nat.le_add_right _ _
  -- the text waits in the queue until the colon shows that it is a key
  let held : Token := ⟨.scalar key style, m, m₁⟩
  have hqueue : takeTo { s.ready true m (written ++ ':' :: tail) with keys := [some p], keyAllowed := false }
      (.scalar key style) (cellsFrom m₁ (':' :: tail)) =
        ⟨cellsFrom m₁ (':' :: tail), s.finish, [some p], indents, false, s.queue ++ [held], s.delivered, false⟩ := by
    have hready : Scanner.mark { s.ready true m (written ++ ':' :: tail) with keys := [some p], keyAllowed := false } = m :=
      hs.mark_ready
    rw [takeTo, hready, ← hs.indents, ← hends]
    rfl
  have hdeliver : deliver ⟨cellsFrom m₁ (':' :: tail), s.finish, [some p], indents, false, s.queue ++ [held], s.delivered,
      false⟩ = some (s.queue, atColon s.finish p held indents m₁ tail) := deliver_atColon hnumber hline hindex
  have hhead := tokens_of_deliver (hqueue ▸ hfetch) hdeliver rfl (by
    show (cellsFrom m₁ (':' :: tail)).length < _
    rw [length_cellsFrom, List.length_cons]
    omega)
  obtain ⟨stop, hvalue⟩ := fetch_atColon s.finish held (hmark ▸ hopens) hline hindex hcolumn hgap
  obtain ⟨later, hkinds, htail⟩ := tokens_of_fetch hvalue (by simp) rfl (by
    show _ < (cellsFrom m₁ (':' :: tail)).length
    rw [length_cellsFrom, length_cellsFrom, List.length_cons]
    omega) (by simp) fun f hf queue delivered => hreads _ ⟨rfl, hfinish, ⟨f none, rfl, fun p hp => by
      rcases hf none with hnone | hnone <;> cases hnone.symm.trans hp⟩, rfl, rfl⟩
  rw [htail] at hhead
  refine ⟨_, ?_, hhead⟩
  simp [held, hkinds, Function.comp_def]

/-! ### Behind a question mark -/

/-- A question mark begins a key, which opens a mapping where none is open. -/
theorem Reads.question {text : List Char} (hopens : Opens m.column indents indents' front)
    (hgap : atGap (cellsFrom (m.after '?') text) = true) (hreads : Reads true (m.after '?') text indents' kinds) :
    Reads true m ('?' :: text) indents (front ++ .key :: kinds) := by
  intro s hs
  have hline : atDocumentLine (⟨'?', m⟩ :: cellsFrom (m.after '?') text) = false :=
    atDocumentLine_of_ne (by decide) (by decide)
  have hblock := (hs.indents ▸ hopens : Opens m.column s.indents indents' front).openBlock_here
    (s := s.ready true m ('?' :: text)) rfl m
  let t : Scanner := { s with
    rest := cellsFrom (m.after '?') text, keys := [none], keyAllowed := true, indents := indents',
    queue := s.queue ++ (front.map (fun kind => ⟨kind, m, m⟩) ++
      [⟨.key, m, { m with index := m.index + 1, column := m.column + 1 }⟩]) }
  have hfetch : (s.ready true m ('?' :: text)).fetchHere = some t := by
    have hhere : (s.ready true m ('?' :: text)).fetchHere = (s.ready true m ('?' :: text)).fetchKey := by
      simp [fetchHere, ready, cellsFrom, hline, hgap]
    have hmark := hs.mark_ready
    rw [hhere, fetchKey, hmark, hblock]
    simp [ready, inFlow, dropKey, take, enqueue, mark, cellsFrom, t]
  have hyields := hs.yields (front.map (fun kind => ⟨kind, m, m⟩) ++ [⟨.key, m, _⟩]) (by rfl) hopens.le hfetch rfl (by simp)
    (Nat.lt_of_le_of_lt (Nat.le_of_eq (length_cellsFrom _ _)) (Nat.lt_succ_self _))
    ⟨rfl, hs.finish, ⟨none, rfl, by simp⟩, rfl, hs.ended⟩ hreads
  simpa [Function.comp_def] using hyields

/-- A colon at the column of the mapping around it begins the value of the key before it. -/
theorem Reads.colon {text : List Char} {i : Nat} {outer : List Nat} (hm : m.column = i)
    (hgap : atGap (cellsFrom (m.after ':') text) = true) (hreads : Reads true (m.after ':') text (i :: outer) kinds) :
    Reads true m (':' :: text) (i :: outer) (.value :: kinds) := by
  intro s hs
  have hline : atDocumentLine (⟨':', m⟩ :: cellsFrom (m.after ':') text) = false :=
    atDocumentLine_of_ne (by decide) (by decide)
  have hindents : s.indents = i :: outer := hs.indents
  let t : Scanner := { s with
    rest := cellsFrom (m.after ':') text, keys := [none], keyAllowed := true,
    queue := s.queue ++ [⟨.value, m, { m with index := m.index + 1, column := m.column + 1 }⟩] }
  have hfetch : (s.ready true m (':' :: text)).fetchHere = some t := by
    simp [fetchHere, ready, cellsFrom, hline, hgap, fetchValue, inFlow, openBlock, indentBelow, hindents, mark, hm, take,
      enqueue, t]
  refine hs.yields [_] (by rfl) (by simp [hm]) hfetch rfl (List.cons_ne_nil _ _) ?_ ?_ hreads
  · exact Nat.lt_of_le_of_lt (Nat.le_of_eq (length_cellsFrom _ _)) (Nat.lt_succ_self _)
  · exact ⟨rfl, hs.finish, ⟨none, rfl, by simp⟩, hindents, hs.ended⟩

/-! ### Keys on one line -/

theorem length_flatMap_le {f : Char → List Char} {k : Nat} (h : ∀ c, (f c).length ≤ k * c.utf8Size) : ∀ cs : List Char,
    (cs.flatMap f).length ≤ k * (String.ofList cs).utf8ByteSize
  | [] => Nat.zero_le _
  | c :: cs => by
    have hc := h c
    have hcs := length_flatMap_le h cs
    rw [List.flatMap_cons, List.length_append, String.ofList_cons, String.utf8ByteSize_append, String.utf8ByteSize_singleton,
      Nat.mul_add]
    omega

theorem utf8Size_of_wide (c : Char) : (0x7F < c.toNat → 2 ≤ c.utf8Size) ∧ (0xFFFF < c.toNat → 4 ≤ c.utf8Size) := by
  have hvalue : c.val.toNat = c.toNat := rfl
  unfold Char.utf8Size
  simp only [UInt32.le_iff_toNat_le, UInt32.toNat_ofNatLT, hvalue]
  refine ⟨fun h => ?_, fun h => ?_⟩
  · rw [if_neg (by omega)]
    split
    · exact Nat.le_refl 2
    · split <;> decide
  · exact Nat.le_of_eq (by rw [if_neg (by omega), if_neg (by omega), if_neg (by omega)])

theorem length_hexDigits (letter : Char) : ∀ width n : Nat, (Text.hexDigits letter width n).length = width
  | 0, _ => by simp [Text.hexDigits]
  | width + 1, n => by rw [Text.hexDigits, List.length_append, length_hexDigits letter width, List.length_singleton]

/-- An escape takes four characters for one byte at most, six for two and ten for four. -/
theorem length_doubleChar (c : Char) : (doubleChar c).length ≤ 4 * c.utf8Size := by
  have hpos := c.utf8Size_pos
  obtain ⟨htwo, hfour⟩ := utf8Size_of_wide c
  have hescape : (escapeBody c).length + 1 ≤ 4 * c.utf8Size := by
    have hletter : ∀ {n : Nat} {e : Char} {rest : List Char}, rest.length + 1 ≤ 4 * c.utf8Size →
        (if c.toNat = n then [e] else rest).length + 1 ≤ 4 * c.utf8Size := fun h => by
      split
      · rw [List.length_singleton]
        omega
      · exact h
    change (if c.toNat = 0 then _ else _ : List Char).length + 1 ≤ _
    iterate 15 apply hletter
    split
    · rw [List.length_cons, length_hexDigits]
      omega
    split
    · have := htwo (by omega)
      rw [List.length_cons, length_hexDigits]
      omega
    · have := hfour (by omega)
      rw [List.length_cons, length_hexDigits]
      omega
  rw [doubleChar]
  split
  · exact hescape
  · rw [List.length_singleton]
    omega

theorem isBreak_doubleChar (c : Char) : ∀ d ∈ doubleChar c, isBreak d = false := by
  rw [doubleChar]
  split
  · exact List.forall_mem_cons.mpr ⟨by decide, (isEscape_escapeBody c).isBreak⟩
  · next h =>
    simp only [Bool.not_eq_true, Bool.or_eq_false_iff, Bool.not_eq_false'] at h
    exact List.forall_mem_singleton.mpr ((isBreak_eq_breaksLine h.1.1.1).trans h.1.1.2)

theorem singleFrom_of_line (indent : Nat) : ∀ {cs : List Char}, (∀ d ∈ cs, breaksLine d = false) →
    singleFrom indent false cs = cs.flatMap fun c => if c = '\'' then ['\'', '\''] else [c]
  | [], _ => rfl
  | c :: cs, h => by
    obtain ⟨hc, hcs⟩ := List.forall_mem_cons.mp h
    have ih := singleFrom_of_line indent hcs
    by_cases hspace : c = ' '
    · subst hspace
      rw [singleFrom, if_neg (by decide), if_pos rfl, ih]
      rfl
    · rw [singleFrom_cons hc hspace, ih]
      rfl

theorem forall_mem_flatMap {p : Char → Prop} {f : Char → List Char} {cs : List Char} (h : ∀ c ∈ cs, ∀ d ∈ f c, p d) :
    ∀ d ∈ cs.flatMap f, p d := by
  intro d hd
  obtain ⟨c, hc, hmem⟩ := List.mem_flatMap.mp hd
  exact h c hc d hmem

/-- What is written for a short text without line breaks is read as a key in front of a colon. -/
theorem keyText_of_isSimpleKey {key : String} (h : Data.isSimpleKey key = true) (indent : Nat) :
    KeyText (scalar (indent + 1) key) key (styleOf key) := by
  rw [Data.isSimpleKey, Bool.and_eq_true, Bool.not_eq_true', List.any_eq_false, decide_eq_true_eq] at h
  obtain ⟨hlines, hsize⟩ := h
  simp only [Bool.not_eq_true] at hlines
  have hline : '\n' ∉ key.toList := fun hmem => absurd (hlines _ hmem) (by decide)
  have hstyled := isStyled_styleOf key
  have hstyle : styleOf key ≠ .literal := by
    rw [styleOf, if_neg (by simpa using hline)]
    split
    · simp
    split <;> simp
  obtain ⟨cs, hcs⟩ : ∃ cs, key = String.ofList cs := ⟨key.toList, String.ofList_toList.symm⟩
  subst hcs
  rw [scalar]
  rw [String.toList_ofList] at hlines hline ⊢
  revert hstyled hstyle
  generalize styleOf (String.ofList cs) = style
  intro hstyled hstyle
  -- in every style the text keeps within the bound that is set for keys
  cases hstyled with
  | literal => exact absurd rfl hstyle
  | double =>
    have hlength := length_flatMap_le length_doubleChar cs
    exact keyText_quoted false (forall_mem_flatMap fun c _ => isBreak_doubleChar c) (by omega)
      fun _ _ hm _ => quotedFrom_double _ _ _ .word ⟨[], rfl⟩ hm
  | plain htyped h =>
    rw [String.toList_ofList] at h
    have hlength := length_flatMap_le (f := fun c => [c]) (k := 1) (fun c => by have := c.utf8Size_pos; simpa) cs
    rw [List.flatMap_singleton'] at hlength
    obtain ⟨c, rest, rfl⟩ := List.exists_cons_of_ne_nil (l := cs) (by rintro rfl; cases htyped)
    exact keyText_plain h (by omega)
  | single _ h =>
    rw [String.toList_ofList] at h
    simp only [singleAllowed, Bool.and_eq_true, Bool.not_eq_true', List.all_eq_true] at h
    have hlength := length_flatMap_le (f := fun c => if c = '\'' then ['\'', '\''] else [c]) (k := 2)
      (fun c => by have := c.utf8Size_pos; split <;> simp <;> omega) cs
    have hbody := singleFrom_of_line (indent + 1) hlines
    refine keyText_quoted true (hbody ▸ forall_mem_flatMap fun c hc => ?_) (by rw [hbody]; omega) fun _ _ hm htail =>
      quotedFrom_singleFrom (Nat.succ_pos indent) htail _ _ _ .word (.within [] (by simp)) (fun _ => hm) (fun c hc =>
        ⟨h.1.1 c hc, fun heq => hline (heq ▸ hc)⟩) h.1.2 h.2
    have hbreak : isBreak c = false := (isBreak_eq_breaksLine (h.1.1 c hc)).trans (hlines c hc)
    split
    · exact List.forall_mem_cons.mpr ⟨rfl, List.forall_mem_singleton.mpr rfl⟩
    · exact List.forall_mem_singleton.mpr hbreak

end

end Scanner

end Scaffold.Yaml
