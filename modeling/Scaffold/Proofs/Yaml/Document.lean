import Scaffold.Proofs.Yaml.Key

/-! The tokens of a document that is written from data. Scalars, keys and hyphens are read one after another, and the
    columns at which they stand say where the block collections begin and end. -/

namespace Scaffold.Yaml
open Written

namespace Scanner

section
variable {s : Scanner} {m : Mark} {cells : List Cell}

theorem fetchHere_openBracket (hrest : s.rest = ⟨'[', m⟩ :: cells) (hm : 0 < m.column) :
    s.fetchHere = s.fetchOpen .openSequence := by
  have hline : atDocumentLine (⟨'[', m⟩ :: cells) = false := atDocumentLine_of_column hm
  simp [fetchHere, hrest, hline]

theorem fetchHere_closeBracket (hrest : s.rest = ⟨']', m⟩ :: cells) (hm : 0 < m.column) :
    s.fetchHere = s.fetchClose .closeSequence := by
  have hline : atDocumentLine (⟨']', m⟩ :: cells) = false := atDocumentLine_of_column hm
  simp [fetchHere, hrest, hline]

theorem fetchHere_openBrace (hrest : s.rest = ⟨'\x7b', m⟩ :: cells) (hm : 0 < m.column) :
    s.fetchHere = s.fetchOpen .openMapping := by
  have hline : atDocumentLine (⟨'\x7b', m⟩ :: cells) = false := atDocumentLine_of_column hm
  simp [fetchHere, hrest, hline]

theorem fetchHere_closeBrace (hrest : s.rest = ⟨'\x7d', m⟩ :: cells) (hm : 0 < m.column) :
    s.fetchHere = s.fetchClose .closeMapping := by
  have hline : atDocumentLine (⟨'\x7d', m⟩ :: cells) = false := atDocumentLine_of_column hm
  simp [fetchHere, hrest, hline]

end

/-- A pair of characters that open and close a collection in a line. -/
structure Brackets (a z : Char) (opening closing : TokenKind) : Prop where
  opens : isBreak a = false ∧ ∀ tail, opensToken (a :: tail) = true
  closes : isBreak z = false ∧ ∀ tail, opensToken (z :: tail) = true
  fetchOpen : ∀ {s : Scanner} {m : Mark} {cells : List Cell}, s.rest = ⟨a, m⟩ :: cells → 0 < m.column →
    s.fetchHere = s.fetchOpen opening
  fetchClose : ∀ {s : Scanner} {m : Mark} {cells : List Cell}, s.rest = ⟨z, m⟩ :: cells → 0 < m.column →
    s.fetchHere = s.fetchClose closing

theorem brackets_sequence : Brackets '[' ']' .openSequence .closeSequence :=
  ⟨⟨rfl, fun _ => rfl⟩, ⟨rfl, fun _ => rfl⟩, fetchHere_openBracket, fetchHere_closeBracket⟩

theorem brackets_mapping : Brackets '\x7b' '\x7d' .openMapping .closeMapping :=
  ⟨⟨rfl, fun _ => rfl⟩, ⟨rfl, fun _ => rfl⟩, fetchHere_openBrace, fetchHere_closeBrace⟩

section
variable {a z : Char} {opening closing : TokenKind} (h : Brackets a z opening closing)
include h

theorem fetch_close {s : Scanner} {text : List Char} {m : Mark} {key : Option PossibleKey}
    (hrest : s.rest = cellsFrom m (z :: text)) (hkeys : s.keys = [none, key]) (hallowed : s.keyAllowed = true)
    (hkey : ∀ p, key = some p → p.required = false) (hm : 0 < m.column) : ∃ key', (∀ p, key' = some p → key = some p) ∧ s.fetch = some
      (take { s with keys := [key'], keyAllowed := false } 1 closing) := by
  have hskip : skipGap s.inFlow s.keyAllowed false s.rest = (true, s.rest) := by
    rw [hrest, hallowed]
    exact skipGap_of_opensToken (h.closes.2 text)
  obtain ⟨f, hf, hdrop⟩ := dropStaleKeys_of_optional (s := s) (by simpa [hkeys] using fun p hp => hkey p hp.symm)
  have hnone : f none = none := by rcases hf none with h | h <;> exact h
  refine ⟨f key, fun p hp => ?_, ?_⟩
  · rcases hf key with hnone | hsame
    · cases hnone.symm.trans hp
    · exact hsame ▸ hp
  rw [fetch, hskip]
  show Option.bind (dropStaleKeys { s with keyAllowed := true }) _ = _
  have hsame : ({ s with keyAllowed := true } : Scanner) = s := by rw [← hallowed]
  rw [hsame, hdrop, Option.bind_some, hkeys, List.map_cons, List.map_cons, List.map_nil, hnone]
  obtain ⟨column, hcolumn⟩ : ∃ column, column = some (Scanner.mark { s with keys := [none, f key] }).column := ⟨_, rfl⟩
  have hblocks : closeBlocks { s with keys := [none, f key] } column = { s with keys := [none, f key] } := if_pos rfl
  show (closeBlocks { s with keys := [none, f key] } (some (Scanner.mark { s with keys := [none, f key] }).column)).fetchHere = _
  have hhere : fetchHere { s with keys := [none, f key] } = fetchClose { s with keys := [none, f key] } closing :=
    h.fetchClose hrest hm
  rw [← hcolumn, hblocks, hhere]
  rfl

/-- Behind the opening bracket the closing one ends the collection. No colon follows, so a key that may have begun in front
    of both is of no account. -/
theorem yields_close {s : Scanner} {text : List Char} {m : Mark} {key : Option PossibleKey} {indents : List Nat}
    {kinds : List TokenKind} (hrest : s.rest = cellsFrom m (z :: '\n' :: text)) (hkeys : s.keys = [none, key])
    (hallowed : s.keyAllowed = true) (hkey : ∀ p, key = some p → p.required = false ∧ p.mark.line = m.line)
    (hm : 0 < m.column) (hfinish : s.finish = m.behind (z :: '\n' :: text)) (hindents : s.indents = indents)
    (hended : s.ended = false) (hreads : Reads true ((m.after z).after '\n') text indents kinds) :
    s.Yields (closing :: kinds) := by
  obtain ⟨key', hkey', hclose⟩ := fetch_close h hrest hkeys hallowed (fun p hp => (hkey p hp).1) hm
  refine Yields.of_fetch [⟨closing, _, _⟩] hclose rfl (List.cons_ne_nil _ _) hended ?_ ?_ ?_
  · show (s.rest.drop 1).length < s.rest.length
    rw [hrest]
    exact Nat.lt_succ_self _
  · intro p hp
    have hp : some p ∈ [key'] := hp
    exact (hkey p (hkey' p (List.mem_singleton.mp hp).symm)).1
  intro f hf queue delivered
  have hgap : skipGap false false false (s.rest.drop 1) =
      skipGap false true false (cellsFrom ((m.after z).after '\n') text) := by
    rw [hrest]
    exact skipGap_newline false _ _
  refine hreads _ ⟨hgap, hfinish, ⟨f key', rfl, fun p hp => ?_⟩, hindents, hended⟩
  have hp : key' = some p := by
    rcases hf key' with hnone | hsame
    · cases hnone.symm.trans hp
    · exact hsame ▸ hp
  obtain ⟨hrequired, hline⟩ := hkey p (hkey' p hp)
  refine ⟨hrequired, ?_⟩
  rw [hline]
  refine Nat.lt_succ_of_le ?_
  rw [Mark.after_of_not_break h.closes.1]
  exact Nat.le_refl _

/-- A collection without entries is written in brackets. -/
theorem readsValue_brackets (i : Nat) :
    ReadsValue i [a, z, '\n'] [opening, closing] := by
  intro b m k tail outer later hm hk htail hreads s hs
  obtain ⟨text, htext⟩ : ∃ text, text = '\n' :: (spaces k ++ tail) := ⟨_, rfl⟩
  have hwritten : [a, z, '\n'] ++ (spaces k ++ tail) = a :: z :: text := by rw [htext]; rfl
  rw [hwritten] at hs
  have hindents : ∀ j, (i :: outer).head? = some j → j ≤ m.column := by
    rintro _ ⟨⟩
    exact Nat.le_of_lt hm
  obtain ⟨key, hsave, hkey⟩ := hs.saveKey hm
  have hafter : m.after a = { m with index := m.index + 1, column := m.column + 1 } := Mark.after_of_not_break h.opens.1
  have hopen : (s.ready b m (a :: z :: text)).fetchHere = some (take { s.ready b m (a :: z :: text) with
      keys := [none, key], keyAllowed := true } 1 opening) := by
    rw [h.fetchOpen rfl (Nat.zero_lt_of_lt hm), fetchOpen, hsave]
    rfl
  -- the first step takes the opening bracket, with which a key may begin
  refine Yields.of_fetch [⟨opening, m, { m with index := m.index + 1, column := m.column + 1 }⟩]
    ((hs.fetch_within (h.opens.2 _) hindents).trans hopen) rfl (List.cons_ne_nil _ _) hs.ended ?_ ?_ ?_
  · have hlength := hs.length_le (h.opens.2 _)
    show (cellsFrom (m.after a) (z :: text)).length < _
    rw [length_cellsFrom]
    exact hlength
  · intro p hp
    have hp : some p ∈ [none, key] := hp
    simp only [List.mem_cons, reduceCtorEq, List.not_mem_nil, or_false, false_or] at hp
    exact (hkey p hp.symm).1
  intro f hf queue delivered
  have hnone : f none = none := by rcases hf none with h | h <;> exact h
  have hplain : ∀ p, f key = some p → p.required = false ∧ p.mark.line = (m.after a).line := by
    intro p hp
    rcases hf key with h | h
    · cases h.symm.trans hp
    · obtain ⟨hrequired, hmark⟩ := hkey p (h ▸ hp)
      exact ⟨hrequired, by rw [hmark, hafter]⟩
  subst htext
  refine yields_close h rfl ?_ rfl hplain (hafter ▸ Nat.succ_pos _) hs.finish hs.indents hs.ended
    (Reads.spaces (Mark.behind_append m [a, z, '\n'] (spaces k) ▸ hreads))
  show [f none, f key] = _
  rw [hnone]

end

/-! ### Lines of a block -/

/-- Lines at column `i` are read as these tokens; the tokenizer comes from the blocks `indents`, and has the block around
    the lines open behind them. -/
def ReadsBlock (i : Nat) (indents outer : List Nat) (text : List Char) (kinds : List TokenKind) : Prop :=
  ∀ (m : Mark) (k : Nat) (tail : List Char) (later : List TokenKind), m.column = i → k ≤ i → opensToken tail = true →
    Reads true (m.behind (text ++ spaces k)) tail (i :: outer) later →
      Reads true m (text ++ (spaces k ++ tail)) indents (kinds ++ later)

section
variable {i : Nat} {indents outer : List Nat} {a b : List Char} {front kinds kinds' : List TokenKind}

theorem ReadsBlock.append (ha : ReadsBlock i indents outer a kinds) (hb : ReadsBlock i (i :: outer) outer b kinds')
    (hlines : IsLines a) (hopens : ∀ tail, opensToken (b ++ tail) = true) :
    ReadsBlock i indents outer (a ++ spaces i ++ b) (kinds ++ kinds') := by
  intro m k tail later hm hk htail hreads
  have hcolumn : (m.behind (a ++ spaces i)).column = i := by
    rw [Mark.behind_append, Mark.behind_spaces, hlines.column_behind]
    exact Nat.zero_add i
  have hplace : (m.behind (a ++ spaces i)).behind (b ++ spaces k) = m.behind (a ++ spaces i ++ b ++ spaces k) := by
    simp only [Mark.behind_append]
  have hread := ha m i (b ++ (spaces k ++ tail)) (kinds' ++ later) hm (Nat.le_refl i) (hopens _)
    (hb _ k tail later hcolumn hk htail (hplace ▸ hreads))
  rw [List.append_assoc, List.append_assoc, List.append_assoc]
  exact hread

/-- A mapping ends in front of a line that stands further to the left. -/
theorem ReadsBlock.close {m : Mark} {k : Nat} {tail : List Char} {later : List TokenKind}
    (h : ReadsBlock i outer outer a kinds) (hlines : IsLines a) (hm : m.column = i) (hk : k < i) (htail : opensToken tail = true)
    (hreads : Reads true (m.behind (a ++ spaces k)) tail outer later) :
    Reads true m (a ++ (spaces k ++ tail)) outer (kinds ++ .blockEnd :: later) := by
  have hcolumn : (m.behind (a ++ spaces k)).column = k := by
    rw [Mark.behind_append, Mark.behind_spaces, hlines.column_behind]
    exact Nat.zero_add k
  exact h m k tail _ hm (Nat.le_of_lt hk) htail (hreads.close htail (Nat.lt_of_le_of_lt (Nat.le_of_eq hcolumn) hk))

/-- A key in front of its colon, or behind a question mark, is read with its value. -/
theorem readsBlock_field (key : String) {value : List Char} (hopens : Opens i indents (i :: outer) front)
    (hvalue : ReadsValue i value kinds) (hgap : ∀ m tail, atGap (cellsFrom m (value ++ tail)) = true) :
    ReadsBlock i indents outer (Data.keyChars i key ++ value)
      (front ++ [.key, .scalar key (styleOf key), .value] ++ kinds) := by
  intro m k tail later hm hk htail hreads
  subst hm
  rw [Data.keyChars] at hreads ⊢
  -- a simple key has its colon behind it, any other one on the line after it
  by_cases hsimple : Data.isSimpleKey key = true
  · rw [if_pos hsimple] at hreads ⊢
    obtain ⟨written, hwritten⟩ : ∃ written, written = scalar (m.column + 2) key := ⟨_, rfl⟩
    have hkey : KeyText written key (styleOf key) := hwritten ▸ keyText_of_isSimpleKey hsimple (m.column + 1)
    rw [← hwritten] at hreads ⊢
    have hcolumn : m.column < ((m.behind written).after ':').column := by
      rw [m.behind_of_line hkey.line]
      exact Nat.lt_succ_of_le (Nat.le_add_right _ _)
    have hplace : ((m.behind written).after ':').behind (value ++ spaces k) =
        m.behind (written ++ [':'] ++ value ++ spaces k) := by
      simp [Mark.behind_append, Mark.behind_cons]
    have hread := Reads.key hkey hopens (hgap _ (spaces k ++ tail))
      (hvalue false _ k tail outer later hcolumn hk htail (hplace ▸ hreads))
    simp only [List.append_assoc, List.singleton_append] at hread ⊢
    exact hread
  · rw [if_neg hsimple] at hreads ⊢
    obtain ⟨written, hwritten⟩ : ∃ written, written = endLine (scalar (m.column + 2) key) := ⟨_, rfl⟩
    have hkey : ReadsValue m.column written [.scalar key (styleOf key)] := hwritten ▸ readsValue_scalar m.column key
    have hlines : IsLines written := hwritten ▸ isLines_endLine (isClean_scalar _ key)
    rw [← hwritten] at hreads ⊢
    obtain ⟨start, hstart⟩ : ∃ start, start = (m.after '?').after ' ' := ⟨_, rfl⟩
    have hcolumn : m.column < start.column := by
      rw [hstart]
      exact Nat.lt_succ_of_lt (Nat.lt_succ_self _)
    obtain ⟨m₁, hm₁⟩ : ∃ m₁, m₁ = start.behind (written ++ spaces m.column) := ⟨_, rfl⟩
    have hmargin : m₁.column = m.column := by
      rw [hm₁, Mark.behind_append, Mark.behind_spaces, hlines.column_behind]
      exact Nat.zero_add m.column
    have hplace : (m₁.after ':').behind (value ++ spaces k) =
        m.behind (['?', ' '] ++ written ++ spaces m.column ++ [':'] ++ value ++ spaces k) := by
      rw [hm₁, hstart]
      simp [Mark.behind_append, Mark.behind_cons]
    have hcolon : Reads true m₁ (':' :: (value ++ (spaces k ++ tail))) (m.column :: outer) (.value :: (kinds ++ later)) :=
      .colon hmargin (hgap _ _) (hvalue true _ k tail outer later (hmargin ▸ Nat.lt_succ_self _) hk htail (hplace ▸ hreads))
    have hread := Reads.question hopens rfl
      (hstart ▸ hkey true start m.column _ outer _ hcolumn (Nat.le_refl _) rfl (hm₁ ▸ hcolon)).space
    simp only [List.append_assoc, List.cons_append, List.nil_append] at hread ⊢
    exact hread

theorem readsBlock_item {d : Data}
    (hvalue : ∀ (m : Mark) (k : Nat) (tail : List Char) (later : List TokenKind), m.column = i + 1 → k ≤ i →
      opensToken tail = true → Reads true (m.behind (Data.itemChars i d ++ spaces k)) tail (i :: outer) later →
        Reads true m (Data.itemChars i d ++ (spaces k ++ tail)) (i :: outer) (kinds ++ later))
    (hgap : ∀ m tail, atGap (cellsFrom m (Data.itemChars i d ++ tail)) = true) :
    ReadsBlock i (i :: outer) outer ('-' :: Data.itemChars i d) (.blockEntry :: kinds) := by
  intro m k tail later hm hk htail hreads
  exact Reads.entry (hvalue _ k tail later (congrArg (· + 1) hm) hk htail hreads) hm (hgap _ _)

/-! ### Values -/

theorem ReadsValue.space (h : ReadsValue i a kinds) : ReadsValue i (' ' :: a) kinds :=
  fun b m k tail outer later hm hk htail hreads =>
    (h b (m.after ' ') k tail outer later (Nat.lt_succ_of_lt hm) hk htail hreads).space

/-- A sequence begins on the next line, at the column of the block around it. -/
theorem readsValue_sequence (h : ∀ outer, ReadsBlock i (i :: outer) outer a kinds) :
    ReadsValue i ('\n' :: spaces i ++ a) kinds := by
  intro b m k tail outer later hm hk htail hreads
  rw [List.append_assoc, List.cons_append]
  have hcolumn : ((m.after '\n').behind (spaces i)).column = i := by
    rw [Mark.behind_spaces]
    exact Nat.zero_add i
  have hplace : ((m.after '\n').behind (spaces i)).behind (a ++ spaces k) = m.behind ('\n' :: spaces i ++ a ++ spaces k) := by
    simp [Mark.behind_append, Mark.behind_cons]
  exact (h outer _ k tail later hcolumn hk htail (hplace ▸ hreads)).spaces.newline

/-- A mapping begins on the next line, further to the right than the block around it. -/
theorem readsValue_mapping (h : ∀ outer, ReadsBlock (i + 2) (i :: outer) (i :: outer) a kinds) (hlines : IsLines a) :
    ReadsValue i ('\n' :: spaces (i + 2) ++ a) (kinds ++ [.blockEnd]) := by
  intro b m k tail outer later hm hk htail hreads
  rw [List.append_assoc, List.cons_append, List.append_assoc]
  have hcolumn : ((m.after '\n').behind (spaces (i + 2))).column = i + 2 := by
    rw [Mark.behind_spaces]
    exact Nat.zero_add (i + 2)
  have hplace : ((m.after '\n').behind (spaces (i + 2))).behind (a ++ spaces k) =
      m.behind ('\n' :: spaces (i + 2) ++ a ++ spaces k) := by
    simp [Mark.behind_append, Mark.behind_cons]
  exact ((h outer).close hlines hcolumn (by omega) htail (hplace ▸ hreads)).spaces.newline

end

end Scanner

namespace Data

mutual
/-- The tokens of data. -/
def kinds : Data → List TokenKind
  | .text s => [.scalar s (styleOf s)]
  | .word s => [.scalar s .plain]
  | .list [] => [.openSequence, .closeSequence]
  | .list (d :: items) => itemKinds (d :: items)
  | .record [] => [.openMapping, .closeMapping]
  | .record (f :: fields) => .blockMapping :: fieldKinds (f :: fields) ++ [.blockEnd]

/-- The tokens of the items of a sequence. -/
def itemKinds : List Data → List TokenKind
  | [] => []
  | d :: rest => .blockEntry :: kinds d ++ itemKinds rest

/-- The tokens of the fields of a mapping. -/
def fieldKinds : List (String × Data) → List TokenKind
  | [] => []
  | (key, d) :: rest => [.key, .scalar key (styleOf key), .value] ++ kinds d ++ fieldKinds rest
end

theorem atGap_valueChars {indent : Nat} : ∀ {d : Data} (m : Mark) (tail : List Char),
    atGap (cellsFrom m (valueChars indent d ++ tail)) = true
  | .text _, _, _ => rfl
  | .word _, _, _ => rfl
  | .list [], _, _ => rfl
  | .list (_ :: _), _, _ => rfl
  | .record [], _, _ => rfl
  | .record (_ :: _), _, _ => rfl

theorem atGap_itemChars {indent : Nat} : ∀ {d : Data} (m : Mark) (tail : List Char),
    atGap (cellsFrom m (itemChars indent d ++ tail)) = true
  | .text _, _, _ => rfl
  | .word _, _, _ => rfl
  | .list [], _, _ => rfl
  | .list (_ :: _), _, _ => rfl
  | .record [], _, _ => rfl
  | .record (_ :: _), _, _ => rfl

theorem joinLines_cons (indent : Nat) (line : List Char) (lines : List (List Char)) :
    ∃ rest, joinLines indent (line :: lines) = line ++ rest := by
  cases lines with
  | nil => exact ⟨[], (List.append_nil line).symm⟩
  | cons next lines => exact ⟨_, by rw [joinLines, List.append_assoc]; simp⟩

open Scanner

theorem opensToken_items {indent : Nat} {d : Data} {items : List Data} (tail : List Char) :
    opensToken (joinLines indent (itemLines indent (d :: items)) ++ tail) = true := by
  obtain ⟨rest, hrest⟩ := joinLines_cons indent ('-' :: itemChars indent d) (itemLines indent items)
  rw [itemLines_cons, hrest]
  rfl

theorem opensToken_keyChars (indent : Nat) (key : String) (tail : List Char) :
    opensToken (keyChars indent key ++ tail) = true := by
  rw [keyChars]
  split
  · next h =>
    rw [List.append_assoc]
    exact (keyText_of_isSimpleKey h (indent + 1)).opens _
  · rfl

theorem opensToken_fields {indent : Nat} {key : String} {d : Data} {fields : List (String × Data)} (tail : List Char) :
    opensToken (joinLines indent (fieldLines indent ((key, d) :: fields)) ++ tail) = true := by
  obtain ⟨rest, hrest⟩ := joinLines_cons indent (keyChars indent key ++ valueChars indent d) (fieldLines indent fields)
  rw [fieldLines, hrest, List.append_assoc, List.append_assoc]
  exact opensToken_keyChars indent key _

theorem opens_record (i : Nat) (outer : List Nat) : Opens (i + 2) (i :: outer) ((i + 2) :: i :: outer) [.blockMapping] := by
  refine .opened ?_
  rintro _ ⟨⟩
  exact Nat.lt_add_of_pos_right (by decide)

mutual
theorem readsValue : ∀ {d : Data}, ReadsBack d → ∀ i, ReadsValue i (valueChars i d) (kinds d)
  | .text s, _, i => (readsValue_scalar i s).space
  | .word s, h, i => by
    obtain ⟨c, cs, hcs⟩ := List.exists_cons_of_ne_nil (mt String.toList_eq_nil_iff.mp h.1)
    have hplain := readsValue_plain (i := i) (hcs ▸ h.2)
    rw [← hcs, String.ofList_toList] at hplain
    exact hplain.space
  | .list [], _, i => (readsValue_brackets brackets_sequence i).space
  | .list (d :: items), h, i => readsValue_sequence fun outer => readsBlock_items h (List.cons_ne_nil _ _) i outer
  | .record [], _, i => (readsValue_brackets brackets_mapping i).space
  | .record (f :: fields), h, i => by
    rw [ReadsBack] at h
    show ReadsValue i _ ([.blockMapping] ++ fieldKinds (f :: fields) ++ [.blockEnd])
    exact readsValue_mapping (fun outer => readsBlock_fields h (List.cons_ne_nil _ _) (opens_record i outer))
      (isLines_fields h _)

theorem readsBlock_items : ∀ {items : List Data}, ItemsReadBack items → items ≠ [] → ∀ i outer,
    ReadsBlock i (i :: outer) outer (joinLines i (itemLines i items)) (itemKinds items)
  | [], _, hne, _, _ => absurd rfl hne
  | d :: items, h, _, i, outer => by
    have hlines := isLines_item h i
    rw [ItemsReadBack] at h
    have hitem : ReadsBlock i (i :: outer) outer ('-' :: itemChars i d) (.blockEntry :: kinds d) := by
      refine readsBlock_item ?_ atGap_itemChars
      intro m k tail later hm hk htail hreads
      have hcolumn : i < m.column := hm ▸ Nat.lt_succ_self i
      match d, h.2.1 with
      | .record (f :: fields), h =>
        rw [ReadsBack] at h
        have hblock := (readsBlock_fields h (List.cons_ne_nil _ _) (opens_record i outer)).close (isLines_fields h _)
          (m := m.after ' ') (congrArg (· + 1) hm) (by omega) htail hreads
        rw [kinds, List.append_assoc]
        exact hblock.space
      | .record [], h => exact readsValue h i true m k tail outer later hcolumn hk htail hreads
      | .text s, h => exact readsValue h i true m k tail outer later hcolumn hk htail hreads
      | .word s, h => exact readsValue h i true m k tail outer later hcolumn hk htail hreads
      | .list items, h => exact readsValue h i true m k tail outer later hcolumn hk htail hreads
    have hrest := fun hne => readsBlock_items h.2.2 hne i outer
    match items, hrest with
    | [], _ =>
      rw [itemLines_cons, itemLines, joinLines, itemKinds, itemKinds, List.append_nil]
      exact hitem
    | e :: items, hrest =>
      have hblock := hitem.append (hrest (List.cons_ne_nil _ _)) hlines opensToken_items
      rw [itemLines_cons, itemKinds, itemLines_cons, joinLines]
      · rw [← itemLines_cons]
        exact hblock
      · simp

theorem readsBlock_fields : ∀ {fields : List (String × Data)}, FieldsReadBack fields → fields ≠ [] →
    ∀ {i indents outer front}, Opens i indents (i :: outer) front →
      ReadsBlock i indents outer (joinLines i (fieldLines i fields)) (front ++ fieldKinds fields)
  | [], _, hne, _, _, _, _, _ => absurd rfl hne
  | (key, d) :: fields, h, _, i, indents, outer, front, hopens => by
    have hlines := isLines_fieldLines h i
    rw [FieldsReadBack] at h
    rw [fieldLines] at hlines
    have hfield := readsBlock_field key hopens (readsValue h.1 i) atGap_valueChars
    have hrest := fun hne => readsBlock_fields h.2 hne (.within : Opens i (i :: outer) (i :: outer) [])
    match fields, hrest with
    | [], _ =>
      rw [fieldLines, fieldLines, joinLines, fieldKinds, fieldKinds, List.append_nil, ← List.append_assoc]
      exact hfield
    | (key', d') :: fields, hrest =>
      have hblock := hfield.append (hrest (List.cons_ne_nil _ _)) (hlines _ List.mem_cons_self) opensToken_fields
      rw [fieldLines, fieldKinds, fieldLines, joinLines]
      · rw [← fieldLines]
        simpa only [List.append_assoc, List.nil_append] using hblock
      · simp
end

theorem document_of_ne_nil {fields : List (String × Data)} (h : fields ≠ []) :
    (document fields).toList = joinLines 0 (fieldLines 0 fields) := by
  cases fields with
  | nil => exact absurd rfl h
  | cons f fields => exact String.toList_ofList

theorem isClean_document {fields : List (String × Data)} (hne : fields ≠ []) (h : FieldsReadBack fields) :
    IsClean (document fields).toList := by
  rw [document_of_ne_nil hne]
  obtain ⟨f, fields, rfl⟩ := List.exists_cons_of_ne_nil hne
  exact (isLines_fields h 0).clean

/-- The tokens of a document are those of its fields, in one mapping. -/
theorem kinds_ofChars_document {fields : List (String × Data)} (hne : fields ≠ []) (h : FieldsReadBack fields) :
    (Tokens.ofChars (document fields).toList).tokens.map Token.kind =
      .blockMapping :: fieldKinds fields ++ [.blockEnd, .streamEnd] := by
  have hopens : Opens 0 [] [0] [.blockMapping] := .opened (by simp)
  have hreads := readsBlock_fields h hne hopens .start 0 [] [.blockEnd, .streamEnd] rfl (Nat.le_refl 0) rfl .end
  have hclean := isClean_document hne h
  rw [document_of_ne_nil hne] at hclean ⊢
  rw [spaces, List.replicate_zero, List.append_nil, List.append_nil] at hreads
  obtain ⟨later, hkinds, htokens⟩ := hreads
    ⟨cellsFrom .start _, Mark.behind .start _, [none], [], true, [], 0, false⟩ ⟨rfl, rfl, ⟨none, rfl, by simp⟩, rfl, rfl⟩
  rw [Tokens.ofChars, placeFrom_of_isPrintable hclean]
  simp only [htokens, List.nil_append, hkinds]
  rfl

end Data

end Scaffold.Yaml
