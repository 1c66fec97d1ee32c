import Scaffold.Proofs.Yaml.Flow
import Scaffold.Proofs.Yaml.Literal

/-! The tokens of written text. Tokens are handed on late, so what is said of a state of the tokenizer is what is still
    to come behind its queue. A state stands at a text when it goes on like one that has just this text before it; the
    texts that yield tokens are then built from the end of a document to its beginning. -/

namespace Scaffold.Yaml
open Written

namespace Scanner

/-! ### Handing on -/

/-- What follows the queue are tokens of these kinds, through the end of the text. -/
def Yields (s : Scanner) (kinds : List TokenKind) : Prop :=
  ∃ later, later.map Token.kind = kinds ∧ s.tokens = ⟨s.queue ++ later, true⟩

section
variable {s t u : Scanner} {kinds : List TokenKind} {new : List Token}

theorem length_skipGap (inFlow : Bool) : ∀ (cells : List Cell) (keyAllowed comment : Bool),
    (skipGap inFlow keyAllowed comment cells).2.length ≤ cells.length
  | [], _, _ => Nat.le_refl _
  | c :: rest, keyAllowed, comment => by
    have hrest := fun k b => Nat.le_succ_of_le (length_skipGap inFlow rest k b)
    rw [skipGap]
    split
    · exact hrest _ _
    split
    · exact hrest _ _
    split
    · exact hrest _ _
    split
    · exact hrest _ _
    split
    · exact hrest _ _
    · exact Nat.le_refl _

theorem deliverFrom_append (s : Scanner) : ∀ (queue : List Token) (delivered : Nat),
    (s.deliverFrom delivered queue).1 ++ (s.deliverFrom delivered queue).2 = queue
  | [], _ => rfl
  | t :: queue, delivered => by
    rw [deliverFrom]
    split
    · rfl
    · exact congrArg (t :: ·) (deliverFrom_append s queue (delivered + 1))

theorem deliver_of_keys {keys : List (Option PossibleKey)} (hqueue : t.queue ≠ [])
    (hkeys : t.dropStaleKeys = some { t with keys := keys }) :
    t.deliver = some ((deliverFrom { t with keys := keys } t.delivered t.queue).1,
      { t with
        keys := keys
        queue := (deliverFrom { t with keys := keys } t.delivered t.queue).2
        delivered := t.delivered + (deliverFrom { t with keys := keys } t.delivered t.queue).1.length }) := by
  rw [deliver, if_neg (by simpa using hqueue), hkeys]
  rfl

theorem tokens_of_deliver {out : List Token} (hfetch : s.fetch = some t) (hdeliver : t.deliver = some (out, u))
    (hended : u.ended = false) (hshort : u.rest.length < s.rest.length) :
    s.tokens = ⟨out ++ u.tokens.tokens, u.tokens.complete⟩ := by
  rw [tokens, hfetch]
  simp only [hdeliver, hended, hshort, Bool.false_eq_true, if_false, if_true]

/-- No key that does not turn up is missed. -/
theorem dropStaleKeys_of_optional (h : ∀ k, some k ∈ s.keys → k.required = false) :
    ∃ f : Option PossibleKey → Option PossibleKey, (∀ k, f k = none ∨ f k = k) ∧
      s.dropStaleKeys = some { s with keys := s.keys.map f } := by
  refine ⟨_, fun k => ?_, if_neg ?_⟩
  · show ite _ _ _ = none ∨ ite _ _ _ = k
    split
    · exact .inl rfl
    · exact .inr rfl
  · simp only [List.any_eq_true, Option.any_eq_true, Bool.and_eq_true, not_exists, not_and]
    intro k hk p hp _
    rw [h p (hp ▸ hk)]
    simp

/-- The tokens after a step are its queue and what the state without its settled tokens yields. -/
theorem tokens_of_fetch (hfetch : s.fetch = some t) (hqueue : t.queue ≠ []) (hended : t.ended = false)
    (hshort : t.rest.length < s.rest.length) (hkeys : ∀ k, some k ∈ t.keys → k.required = false)
    (hlater : ∀ f : Option PossibleKey → Option PossibleKey, (∀ k, f k = none ∨ f k = k) → ∀ queue delivered,
      Yields { t with keys := t.keys.map f, queue := queue, delivered := delivered } kinds) :
    ∃ later, later.map Token.kind = kinds ∧ s.tokens = ⟨t.queue ++ later, true⟩ := by
  obtain ⟨f, hf, hdrop⟩ := dropStaleKeys_of_optional hkeys
  have hdeliver := deliver_of_keys hqueue hdrop
  obtain ⟨later, hkinds, htokens⟩ := hlater f hf (deliverFrom { t with keys := t.keys.map f } t.delivered t.queue).2
    (t.delivered + (deliverFrom { t with keys := t.keys.map f } t.delivered t.queue).1.length)
  refine ⟨later, hkinds, ?_⟩
  rw [tokens_of_deliver hfetch hdeliver hended hshort, htokens]
  simp only [← List.append_assoc, deliverFrom_append]

theorem Yields.of_fetch (new : List Token) (hfetch : s.fetch = some t) (hqueue : t.queue = s.queue ++ new) (hnew : new ≠ [])
    (hended : t.ended = false) (hshort : t.rest.length < s.rest.length)
    (hkeys : ∀ k, some k ∈ t.keys → k.required = false)
    (hlater : ∀ f : Option PossibleKey → Option PossibleKey, (∀ k, f k = none ∨ f k = k) → ∀ queue delivered,
      Yields { t with keys := t.keys.map f, queue := queue, delivered := delivered } kinds) :
    s.Yields (new.map Token.kind ++ kinds) := by
  obtain ⟨later, hkinds, htokens⟩ := tokens_of_fetch hfetch (by simp [hqueue, hnew]) hended hshort hkeys hlater
  exact ⟨new ++ later, by rw [List.map_append, hkinds], by rw [htokens, hqueue, List.append_assoc]⟩

/-- A state that goes on the same way yields the same behind a longer queue. -/
theorem Yields.of_fetch_eq (h : t.Yields kinds) (hfetch : s.fetch = t.fetch) (hrest : s.rest = t.rest)
    (hqueue : t.queue = s.queue ++ new) : s.Yields (new.map Token.kind ++ kinds) := by
  obtain ⟨later, rfl, htokens⟩ := h
  have hsame : s.tokens = t.tokens := by
    rw [tokens, tokens, hfetch, hrest]
  exact ⟨new ++ later, List.map_append, by rw [hsame, htokens, hqueue, List.append_assoc]⟩

end

/-! ### States at a text -/

/-- The tokenizer goes on like one that has `text` before it at `m`. A key that began on an earlier line may be pending,
    but is not required. -/
structure Stands (s : Scanner) (keyAllowed : Bool) (m : Mark) (text : List Char) (indents : List Nat) : Prop where
  gap : skipGap false s.keyAllowed false s.rest = skipGap false keyAllowed false (cellsFrom m text)
  finish : s.finish = m.behind text
  key : ∃ k, s.keys = [k] ∧ ∀ p, k = some p → p.required = false ∧ p.mark.line < m.line
  indents : s.indents = indents
  ended : s.ended = false

/-- Every state that stands at the text yields these tokens. -/
def Reads (keyAllowed : Bool) (m : Mark) (text : List Char) (indents : List Nat) (kinds : List TokenKind) : Prop :=
  ∀ s : Scanner, s.Stands keyAllowed m text indents → s.Yields kinds

/-- The tokenizer with the gap in front of `text` behind it. -/
def ready (s : Scanner) (keyAllowed : Bool) (m : Mark) (text : List Char) : Scanner :=
  { s with keyAllowed := keyAllowed, rest := cellsFrom m text, keys := [none] }

section
variable {s t : Scanner} {b b' : Bool} {m m' : Mark} {text text' : List Char} {indents indents' : List Nat}
  {kinds : List TokenKind} {new : List Token} {column : Nat}

theorem Stands.mark_ready (h : s.Stands b m text indents) : (s.ready b m text).mark = m := by
  cases text with
  | nil => exact h.finish
  | cons c text => rfl

theorem Stands.dropStaleKeys (h : s.Stands b m text indents) :
    Scanner.dropStaleKeys { s with keyAllowed := b, rest := cellsFrom m text } = some (s.ready b m text) := by
  have hmark := h.mark_ready
  obtain ⟨k, hk, hold⟩ := h.key
  have hmark' : Scanner.mark { s with keyAllowed := b, rest := cellsFrom m text } = m := hmark
  rw [Scanner.dropStaleKeys, hmark']
  simp only [hk, List.any_cons, List.any_nil, Bool.or_false, List.map_cons, List.map_nil]
  cases k with
  | none => rfl
  | some p =>
    obtain ⟨hrequired, hline⟩ := hold p rfl
    simp [hrequired, hline, ready]

theorem Stands.fetch (h : s.Stands b m text indents) (htext : opensToken text = true) :
    s.fetch = ((s.ready b m text).closeBlocks (some m.column)).fetchHere := by
  have hflow : s.inFlow = false := by
    obtain ⟨k, hk, -⟩ := h.key
    simp [inFlow, hk]
  rw [Scanner.fetch, hflow, h.gap, skipGap_of_opensToken htext]
  show (Option.bind (Scanner.dropStaleKeys { s with keyAllowed := b, rest := cellsFrom m text }) _) = _
  rw [h.dropStaleKeys, Option.bind_some, h.mark_ready]

theorem Stands.length_le (h : s.Stands b m text indents) (htext : opensToken text = true) :
    text.length ≤ s.rest.length := by
  have hlength := length_skipGap false s.rest s.keyAllowed false
  rwa [h.gap, skipGap_of_opensToken htext, length_cellsFrom] at hlength

theorem closeBlocks_of_le (h : ∀ i, s.indents.head? = some i → i ≤ column) : s.closeBlocks (some column) = s := by
  have hnone : s.indents.takeWhile (fun i => decide (column < i)) = [] := by
    cases hindents : s.indents with
    | nil => rfl
    | cons i outer =>
      have hi : ¬column < i := Nat.not_lt.mpr (h i (by rw [hindents]; rfl))
      simp [hi]
  rw [closeBlocks]
  split
  · rfl
  · simp [hnone]

theorem Stands.fetch_within (h : s.Stands b m text indents) (htext : opensToken text = true)
    (hindents : ∀ i, indents.head? = some i → i ≤ m.column) : s.fetch = (s.ready b m text).fetchHere := by
  rw [h.fetch htext, closeBlocks_of_le]
  show ∀ i, s.indents.head? = some i → i ≤ m.column
  rw [h.indents]
  exact hindents

theorem Stands.yields (new : List Token) (h : s.Stands b m text indents) (htext : opensToken text = true)
    (hindents : ∀ i, indents.head? = some i → i ≤ m.column) (hfetch : (s.ready b m text).fetchHere = some t)
    (hqueue : t.queue = s.queue ++ new) (hnew : new ≠ []) (hshort : t.rest.length < text.length)
    (ht : t.Stands b' m' text' indents') (hreads : Reads b' m' text' indents' kinds) :
    s.Yields (new.map Token.kind ++ kinds) := by
  rw [← h.fetch_within htext hindents] at hfetch
  obtain ⟨k, hk, hold⟩ := ht.key
  refine .of_fetch new hfetch hqueue hnew ht.ended (Nat.lt_of_lt_of_le hshort (h.length_le htext)) ?_ ?_
  · intro p hp
    rw [hk, List.mem_singleton] at hp
    exact (hold p hp.symm).1
  · intro f hf queue delivered
    refine hreads _ ⟨ht.gap, ht.finish, ⟨f k, by rw [hk]; rfl, fun p hp => ?_⟩, ht.indents, ht.ended⟩
    rcases hf k with hnone | hsame
    · rw [hnone] at hp
      cases hp
    · exact hold p (hsame ▸ hp)

/-! ### Gaps, closing and the end -/

theorem Reads.space (h : Reads b (m.after ' ') text indents kinds) : Reads b m (' ' :: text) indents kinds := by
  intro s hs
  refine h s ⟨?_, hs.finish, hs.key, hs.indents, hs.ended⟩
  rw [hs.gap]
  exact skipGap_spaces text m 1

theorem Reads.spaces {n : Nat} (h : Reads b (m.behind (spaces n)) text indents kinds) :
    Reads b m (spaces n ++ text) indents kinds := by
  intro s hs
  refine h s ⟨hs.gap.trans (skipGap_spaces text m n), ?_, ?_, hs.indents, hs.ended⟩
  · rw [hs.finish, Mark.behind_append]
  · obtain ⟨k, hk, hold⟩ := hs.key
    exact ⟨k, hk, by simpa [Mark.behind_spaces] using hold⟩

theorem Reads.newline (h : Reads true (m.after '\n') text indents kinds) : Reads b m ('\n' :: text) indents kinds := by
  intro s hs
  refine h s ⟨hs.gap.trans (skipGap_newline b m text), hs.finish, ?_, hs.indents, hs.ended⟩
  obtain ⟨k, hk, hold⟩ := hs.key
  exact ⟨k, hk, fun p hp => ⟨(hold p hp).1, Nat.lt_succ_of_lt (hold p hp).2⟩⟩

/-- A block collection is closed in front of a token to its left. -/
theorem Reads.close {i : Nat} {outer : List Nat} (h : Reads b m text outer kinds) (htext : opensToken text = true)
    (hi : m.column < i) : Reads b m text (i :: outer) (.blockEnd :: kinds) := by
  intro s hs
  let closed : Scanner := { s with indents := outer, queue := s.queue ++ [⟨.blockEnd, m, m⟩] }
  have hclosed : closed.Stands b m text outer := ⟨hs.gap, hs.finish, hs.key, rfl, hs.ended⟩
  have hblocks : (s.ready b m text).closeBlocks (some m.column) = (closed.ready b m text).closeBlocks (some m.column) := by
    have hmark := hs.mark_ready
    have hmark' : (closed.ready b m text).mark = m := hclosed.mark_ready
    have hindents : (s.ready b m text).indents = i :: outer := hs.indents
    have hflow : (s.ready b m text).inFlow = false := rfl
    have hflow' : (closed.ready b m text).inFlow = false := rfl
    simp only [closeBlocks, hmark, hmark', hindents, hflow, hflow']
    simp [ready, closed, hi]
  have hfetch : s.fetch = closed.fetch := by rw [hs.fetch htext, hclosed.fetch htext, hblocks]
  exact (h closed hclosed).of_fetch_eq hfetch rfl rfl

theorem fetchEnd_of_keys (hkeys : s.keys = [none]) : ∃ t new, s.fetchEnd = some t ∧ t.queue = s.queue ++ new ∧
    new.map Token.kind = s.indents.map (fun _ => .blockEnd) ++ [.streamEnd] ∧ t.keys = [none] ∧ t.ended = true := by
  have hall : s.indents.takeWhile (fun i => (none : Option Nat).all fun c => decide (c < i)) = s.indents := by
    induction s.indents with
    | nil => rfl
    | cons i outer ih => exact congrArg (i :: ·) ih
  obtain ⟨m, hm⟩ : ∃ m, m = if s.finish.column = 0 then s.finish
    else { s.finish with line := s.finish.line + 1, column := 0 } := ⟨_, rfl⟩
  obtain ⟨m', hm'⟩ : ∃ m', m' = Scanner.mark { s with finish := m, keys := [none] } := ⟨_, rfl⟩
  refine ⟨{ s with
      finish := m
      keys := [none]
      indents := s.indents.drop s.indents.length
      keyAllowed := false
      ended := true
      queue := s.queue ++ s.indents.map (fun _ => ⟨.blockEnd, m', m'⟩) ++ [⟨.streamEnd, m, m⟩] }, s.indents.map (fun _ => ⟨.blockEnd, m', m'⟩) ++ [⟨.streamEnd, m, m⟩], ?_, ?_⟩
  · simp only [fetchEnd, closeBlocks, inFlow, dropKey, hkeys, List.length_singleton, Nat.lt_irrefl, decide_false,
      Bool.false_eq_true, if_false, hall, ← hm]
    rw [hm']
    rfl
  · refine ⟨?_, ?_, rfl, rfl⟩
    · exact List.append_assoc _ _ _
    · simp

theorem Reads.end : Reads b m [] [0] [.blockEnd, .streamEnd] := by
  intro s hs
  obtain ⟨t, new, hend, hqueue, hkinds, hkeys, hended⟩ := fetchEnd_of_keys (s := s.ready b m []) rfl
  have hfetch : s.fetch = some t := by
    rw [hs.fetch_within rfl (by simp)]
    exact hend
  have hindents : (s.ready b m []).indents = [0] := hs.indents
  have hdrop : t.dropStaleKeys = some { t with keys := [none] } := by
    simp [dropStaleKeys, hkeys]
  have hdeliver := deliver_of_keys (by rw [hqueue]; rintro hnil; simp_all) hdrop
  refine ⟨new, by rw [hkinds, hindents]; rfl, ?_⟩
  rw [tokens, hfetch]
  simp only [hdeliver, hended, if_true, deliverFrom_append, hqueue]
  rfl

/-! ### Entries -/

theorem atDocumentLine_of_gap {c : Cell} {rest : List Cell} (hc : isGapChar c.char = false) (h : atGap rest = true) :
    atDocumentLine (c :: rest) = false := by
  match rest, h with
  | [], _ => rfl
  | [_], _ => rfl
  | b :: _ :: _, h =>
    have hne : c.char ≠ b.char := fun hsame => by
      rw [atGap, ← hsame, hc] at h
      cases h
    simp [atDocumentLine, hne]

/-- A hyphen at the column of the block around it goes on with a sequence there. -/
theorem Reads.entry {i : Nat} {outer : List Nat} (h : Reads true (m.after '-') text (i :: outer) kinds) (hm : m.column = i)
    (hgap : atGap (cellsFrom (m.after '-') text) = true) :
    Reads true m ('-' :: text) (i :: outer) (.blockEntry :: kinds) := by
  intro s hs
  have hline : atDocumentLine (cellsFrom m ('-' :: text)) = false := atDocumentLine_of_gap (c := ⟨'-', m⟩) (by rfl) hgap
  have hindents : s.indents = i :: outer := hs.indents
  let t : Scanner := { s with
    rest := cellsFrom (m.after '-') text, keys := [none], keyAllowed := true,
    queue := s.queue ++ [⟨.blockEntry, m, { m with index := m.index + 1, column := m.column + 1 }⟩] }
  have hfetch : (s.ready true m ('-' :: text)).fetchHere = some t := by
    rw [cellsFrom] at hline
    simp [fetchHere, ready, cellsFrom, hline, hgap, fetchBlockEntry, inFlow, openBlock, indentBelow, hindents, mark, hm,
      dropKey, take, enqueue, t]
  refine hs.yields [_] (by rfl) (by simp [hm]) hfetch rfl (List.cons_ne_nil _ _) ?_ ?_ h
  · exact Nat.lt_of_le_of_lt (Nat.le_of_eq (length_cellsFrom _ _)) (Nat.lt_succ_self _)
  · exact ⟨rfl, hs.finish, ⟨none, rfl, by simp⟩, hindents, hs.ended⟩

end

end Scanner

end Scaffold.Yaml
