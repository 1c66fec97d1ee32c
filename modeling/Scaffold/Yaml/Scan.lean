import Scaffold.Yaml.Folding
import Scaffold.Yaml.Property

/-! From text to tokens. Block structure comes from indentation, and the tokens that a key needs are
    put in front of it once its colon is seen; a token is handed on only when that can no longer
    happen. -/

namespace Scaffold.Yaml

/-- A place at which a key may have begun without a question mark. -/
structure PossibleKey where
  /-- whether the text makes no sense unless a key begins here -/
  required : Bool
  /-- the number of the token that begins the key -/
  number : Nat
  mark : Mark

structure Scanner where
  rest : List Cell
  /-- the place after the last cell -/
  finish : Mark
  /-- the possible key of each open flow collection, innermost first, and of the block around -/
  keys : List (Option PossibleKey)
  /-- the columns of the open block collections, innermost first -/
  indents : List Nat
  /-- whether a key may begin at the next token -/
  keyAllowed : Bool
  /-- tokens that wait to be handed on -/
  queue : List Token
  /-- how many tokens have been handed on -/
  delivered : Nat
  /-- whether the last token is in the queue -/
  ended : Bool

namespace Scanner

def mark (s : Scanner) : Mark :=
  match s.rest with
  | c :: _ => c.mark
  | [] => s.finish

def inFlow (s : Scanner) : Bool := 1 < s.keys.length

/-- Whether the innermost block collection stands to the left of `column`. -/
def indentBelow (s : Scanner) (column : Nat) : Bool :=
  match s.indents with
  | [] => true
  | i :: _ => i < column

/-- The least column of the lines of a scalar. -/
def contentColumn (s : Scanner) : Nat :=
  match s.indents with
  | [] => 0
  | i :: _ => i + 1

def enqueue (s : Scanner) (t : Token) : Scanner := { s with queue := s.queue ++ [t] }

def insertAt (s : Scanner) (number : Nat) (ts : List Token) : Scanner :=
  let n := number - s.delivered
  { s with queue := s.queue.take n ++ ts ++ s.queue.drop n }

/-- Gives up the possible keys that are on an earlier line or more than 1024 characters back. Fails
    if one of them was required. -/
def dropStaleKeys (s : Scanner) : Option Scanner := do
  let m := s.mark
  let isStale (k : PossibleKey) : Bool := k.mark.line < m.line || k.mark.index + 1024 < m.index
  if s.keys.any (·.any fun k => isStale k && k.required) then none
  else return { s with keys := s.keys.map fun k => if k.any isStale then none else k }

def dropKey (s : Scanner) : Option Scanner :=
  match s.keys with
  | some k :: outer => if k.required then none else some { s with keys := none :: outer }
  | _ => some s

def saveKey (s : Scanner) : Option Scanner :=
  if s.keyAllowed then do
    let m := s.mark
    let s ← s.dropKey
    let required := !s.inFlow && s.indents.head? = some m.column
    return { s with
      keys := some ⟨required, s.delivered + s.queue.length, m⟩ :: s.keys.drop 1 }
  else some s

/-- Opens a block collection at `column` unless one stands there or further right; the token goes in
    front of token `number`, or to the end. -/
def openBlock (s : Scanner) (column : Nat) (number : Option Nat) (kind : TokenKind) (m : Mark) :
    Scanner :=
  if !s.inFlow && s.indentBelow column then
    let s := { s with indents := column :: s.indents }
    match number with
    | some n => s.insertAt n [⟨kind, m, m⟩]
    | none => s.enqueue ⟨kind, m, m⟩
  else s

/-- Closes the block collections that stand to the right of `column`; all of them for `none`. -/
def closeBlocks (s : Scanner) (column : Option Nat) : Scanner :=
  if s.inFlow then s
  else
    let deeper := s.indents.takeWhile fun i => column.all fun c => decide (c < i)
    { s with
      indents := s.indents.drop deeper.length
      queue := s.queue ++ deeper.map fun _ => ⟨.blockEnd, s.mark, s.mark⟩ }

/-- Skips blanks, comments and line breaks up to the next token. -/
def skipGap (inFlow keyAllowed : Bool) : Bool → List Cell → Bool × List Cell
  | _, [] => (keyAllowed, [])
  | comment, c :: rest =>
    if isBreak c.char then skipGap inFlow (keyAllowed || !inFlow) false rest
    else if comment then skipGap inFlow keyAllowed true rest
    else if c.char = '\uFEFF' && c.mark.column = 0 then skipGap inFlow keyAllowed false rest
    -- where the column of a key counts a tab is no blank
    else if c.char = ' ' || (c.char = '\t' && (inFlow || !keyAllowed)) then
      skipGap inFlow keyAllowed false rest
    else if c.char = '#' then skipGap inFlow keyAllowed true rest
    else (keyAllowed, c :: rest)

def take (s : Scanner) (n : Nat) (kind : TokenKind) : Scanner :=
  let t := Token.mk kind s.mark { s.mark with
    index := s.mark.index + n, column := s.mark.column + n }
  { s with rest := s.rest.drop n }.enqueue t

/-- Enqueues a token that begins where `s` stands and goes on to `rest`. -/
def takeTo (s : Scanner) (kind : TokenKind) (rest : List Cell) : Scanner :=
  let t := { s with rest := rest }
  t.enqueue ⟨kind, s.mark, t.mark⟩

/-- The end of the text, which closes everything. -/
def fetchEnd (s : Scanner) : Option Scanner := do
  -- the blocks are closed on a line of their own
  let m :=
    if s.finish.column = 0 then s.finish
    else { s.finish with line := s.finish.line + 1, column := 0 }
  let s ← ({ s with finish := m }.closeBlocks none).dropKey
  return { s with keyAllowed := false, ended := true }.enqueue ⟨.streamEnd, m, m⟩

def fetchDirective (s : Scanner) : Option Scanner := do
  let s ← (s.closeBlocks none).dropKey
  let (kind, rest) ← directive? (s.rest.drop 1)
  return { s with keyAllowed := false }.takeTo kind rest

def fetchDocumentLine (s : Scanner) (kind : TokenKind) : Option Scanner := do
  let s ← (s.closeBlocks none).dropKey
  return { s with keyAllowed := false }.take 3 kind

def fetchOpen (s : Scanner) (kind : TokenKind) : Option Scanner := do
  let s ← s.saveKey
  return { s with keys := none :: s.keys, keyAllowed := true }.take 1 kind

def fetchClose (s : Scanner) (kind : TokenKind) : Option Scanner := do
  let s ← s.dropKey
  let keys := if s.inFlow then s.keys.drop 1 else s.keys
  return { s with keys := keys, keyAllowed := false }.take 1 kind

def fetchFlowEntry (s : Scanner) : Option Scanner := do
  let s ← s.dropKey
  return { s with keyAllowed := true }.take 1 .flowEntry

def fetchBlockEntry (s : Scanner) : Option Scanner := do
  if !s.inFlow && !s.keyAllowed then none
  let s ← (s.openBlock s.mark.column none .blockSequence s.mark).dropKey
  return { s with keyAllowed := true }.take 1 .blockEntry

def fetchKey (s : Scanner) : Option Scanner := do
  if !s.inFlow && !s.keyAllowed then none
  let s ← (s.openBlock s.mark.column none .blockMapping s.mark).dropKey
  return { s with keyAllowed := !s.inFlow }.take 1 .key

/-- The colon of a value, which may turn what stands before it into a key. -/
def fetchValue (s : Scanner) : Option Scanner := do
  match s.keys with
  | some k :: outer =>
    -- the tokens of the key are in the queue, and its sign goes in front of them
    let s := s.insertAt k.number [⟨.key, k.mark, k.mark⟩]
    let s := s.openBlock k.mark.column (some k.number) .blockMapping k.mark
    return { s with keys := none :: outer, keyAllowed := false }.take 1 .value
  | _ =>
    if !s.inFlow && !s.keyAllowed then none
    let s := s.openBlock s.mark.column none .blockMapping s.mark
    return { s with keyAllowed := !s.inFlow }.take 1 .value

def fetchAnchor (s : Scanner) (kind : String → TokenKind) : Option Scanner := do
  let s ← s.saveKey
  let (name, rest) ← anchorName? (s.rest.drop 1)
  return { s with keyAllowed := false }.takeTo (kind name) rest

def fetchTag (s : Scanner) : Option Scanner := do
  let s ← s.saveKey
  let (handle, suffix, rest) ← tag? s.inFlow s.rest
  return { s with keyAllowed := false }.takeTo (.tag handle suffix) rest

def fetchBlockScalar (s : Scanner) (folded : Bool) : Option Scanner := do
  let s ← s.dropKey
  let header ← blockHeader? (s.rest.drop 1)
  let margin :=
    match header.increment with
    | some n => Margin.known (s.contentColumn - 1 + n)
    | none => .unknown 0 (max s.contentColumn 1)
  let (text, rest) ← blockFrom folded header.chomping ⟨[], none, [], false⟩ margin false header.rest
  return { s with keyAllowed := true }.takeTo
    (.scalar (String.ofList text) (if folded then .folded else .literal)) rest

def fetchQuoted (s : Scanner) (single : Bool) : Option Scanner := do
  let s ← s.saveKey
  let t ← quotedFrom single [] .word (s.rest.drop 1)
  return { s with keyAllowed := false }.takeTo
    (.scalar (String.ofList t.text) (if single then .single else .double)) t.rest

/-- A plain scalar; after a line break behind it a key may begin. -/
def fetchPlain (s : Scanner) : Option Scanner := do
  let s ← s.saveKey
  let t ← plainFrom s.inFlow s.contentColumn [] none s.rest
  return { s with keyAllowed := t.broken }.takeTo (.scalar (String.ofList t.text) .plain) t.rest

/-- Characters that do not begin a plain scalar. -/
def indicators : List Char :=
  ['-', '?', ':', ',', '[', ']', '\x7b', '\x7d', '#', '&', '*', '!', '|', '>', '\'', '"', '%', '@',
    '`']

def beginsPlain (inFlow : Bool) (c : Char) (rest : List Cell) : Bool :=
  (!indicators.contains c && !isGapChar c)
    || (c = '-' && !rest.head?.any (isSpaceOrTab ·.char))
    || (!inFlow && (c = '?' || c = ':') && !atGap rest)

def fetchHere (s : Scanner) : Option Scanner :=
  match s.rest with
  | [] => s.fetchEnd
  | cell :: rest =>
    let c := cell.char
    if cell.mark.column = 0 && c = '%' then s.fetchDirective
    else if atDocumentLine (cell :: rest) then
      s.fetchDocumentLine (if c = '-' then .documentStart else .documentEnd)
    else if c = '[' then s.fetchOpen .openSequence
    else if c = '\x7b' then s.fetchOpen .openMapping
    else if c = ']' then s.fetchClose .closeSequence
    else if c = '\x7d' then s.fetchClose .closeMapping
    else if c = ',' then s.fetchFlowEntry
    -- with text right behind them these may begin a plain scalar
    else if c = '-' && atGap rest then s.fetchBlockEntry
    else if c = '?' && (s.inFlow || atGap rest) then s.fetchKey
    else if c = ':' && (s.inFlow || atGap rest) then s.fetchValue
    else if c = '*' then s.fetchAnchor .alias
    else if c = '&' then s.fetchAnchor .anchor
    else if c = '!' then s.fetchTag
    else if c = '|' && !s.inFlow then s.fetchBlockScalar false
    else if c = '>' && !s.inFlow then s.fetchBlockScalar true
    else if c = '\'' then s.fetchQuoted true
    else if c = '"' then s.fetchQuoted false
    else if beginsPlain s.inFlow c rest then s.fetchPlain
    else none

/-- Puts the next token into the queue, with those that its place asks for. -/
def fetch (s : Scanner) : Option Scanner := do
  let (keyAllowed, rest) := skipGap s.inFlow s.keyAllowed false s.rest
  let s ← { s with keyAllowed := keyAllowed, rest := rest }.dropStaleKeys
  (s.closeBlocks (some s.mark.column)).fetchHere

def awaitsKey (s : Scanner) (number : Nat) : Bool := s.keys.any (·.any (·.number = number))

/-- Hands on the tokens of the queue that are settled. `queue` is what is left of it; the other
    results are the tokens handed on and the state, none if a required key did not turn up. -/
def deliverFrom (s : Scanner) (delivered : Nat) : List Token → List Token × List Token
  | [] => ([], [])
  | t :: queue =>
    if s.awaitsKey delivered then ([], t :: queue)
    else
      let (out, left) := deliverFrom s (delivered + 1) queue
      (t :: out, left)

/-- The settled tokens and the state without them; none if a required key did not turn up. -/
def deliver (s : Scanner) : Option (List Token × Scanner) :=
  if s.queue.isEmpty then some ([], s)
  else do
    let s ← s.dropStaleKeys
    let (out, left) := s.deliverFrom s.delivered s.queue
    return (out, { s with queue := left, delivered := s.delivered + out.length })

end Scanner

/-- The tokens of a text as far as they can be told, and whether they go on to its end. -/
structure Tokens where
  tokens : List Token
  complete : Bool

def Scanner.tokens (s : Scanner) : Tokens :=
  match s.fetch with
  | none => ⟨[], false⟩
  | some t =>
    match t.deliver with
    | none => ⟨[], false⟩
    | some (out, u) =>
      if u.ended then ⟨out ++ u.queue, true⟩
      else if u.rest.length < s.rest.length then
        let later := u.tokens
        ⟨out ++ later.tokens, later.complete⟩
      else ⟨out, false⟩
termination_by s.rest.length

def Tokens.ofChars (text : List Char) : Tokens :=
  let (cells, finish) := placeFrom .start text
  Scanner.tokens ⟨cells, finish, [none], [], true, [], 0, false⟩

end Scaffold.Yaml
