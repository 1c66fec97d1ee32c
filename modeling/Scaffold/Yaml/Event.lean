import Scaffold.Yaml.Scan

/-! From tokens to events: the scalars, collections and aliases of a stream of documents in order,
    each with the place where it starts. The grammar is a machine with a stack of states to come
    back to. -/

namespace Scaffold.Yaml

structure Scalar where
  tag : Option String
  text : String
  style : Style
  deriving DecidableEq, Repr

inductive EventKind where
  | streamEnd
  | documentStart
  | documentEnd
  | alias (name : String)
  | scalar (anchor : Option String) (s : Scalar)
  | sequenceStart (anchor tag : Option String)
  | sequenceEnd
  | mappingStart (anchor tag : Option String)
  | mappingEnd

structure Event where
  kind : EventKind
  mark : Mark

inductive State where
  | documentStart (implicit : Bool)
  | documentContent
  | documentEnd
  | blockNode
  | blockEntry (first : Bool)
  | indentlessEntry
  | blockKey (first : Bool)
  | blockValue
  | flowEntry (first : Bool)
  | pairKey
  | pairValue
  | pairEnd
  | flowKey (first : Bool)
  | flowValue
  | flowNoValue
  | finished

structure Parser where
  tokens : List Token
  state : State
  /-- the states to come back to, innermost first -/
  pending : List State
  /-- the tag handles of the document with what they stand for -/
  handles : List (String × String)

namespace Parser

def isOneOf (kinds : List TokenKind) (t : Token) : Bool := kinds.contains t.kind

/-- Goes back to the innermost pending state. -/
def pop (p : Parser) : Parser :=
  match p.pending with
  | s :: rest => { p with state := s, pending := rest }
  | [] => { p with state := .finished }

def skip (p : Parser) : Parser := { p with tokens := p.tokens.drop 1 }

def push (p : Parser) (s : State) : Parser := { p with pending := s :: p.pending }

def emptyScalar (m : Mark) : Event := ⟨.scalar none ⟨none, "", .plain⟩, m⟩

/-- The anchor and the tag in front of a node, at most one of each in either order. -/
structure Properties where
  anchor : Option String
  tag : Option (String × String)
  start : Option Mark
  rest : List Token

def properties (tokens : List Token) : Properties :=
  match tokens with
  | ⟨.anchor a, m, _⟩ :: ⟨.tag h s, _, _⟩ :: rest => ⟨some a, some (h, s), some m, rest⟩
  | ⟨.tag h s, m, _⟩ :: ⟨.anchor a, _, _⟩ :: rest => ⟨some a, some (h, s), some m, rest⟩
  | ⟨.anchor a, m, _⟩ :: rest => ⟨some a, none, some m, rest⟩
  | ⟨.tag h s, m, _⟩ :: rest => ⟨none, some (h, s), some m, rest⟩
  | rest => ⟨none, none, none, rest⟩

/-- A tag with its handle replaced by what it stands for; none if the handle is unknown. -/
def resolveTag (handles : List (String × String)) :
    Option (String × String) → Option (Option String)
  | none => some none
  | some (handle, suffix) =>
    if handle = "" then some (some suffix)
    else (handles.lookup handle).map fun start => some (start ++ suffix)

/-- A node: an alias, a scalar, or the start of a collection. `block` allows block collections, and
    `indentless` a block sequence that stands at the column of its key. -/
def node (p : Parser) (block indentless : Bool) : Option (Event × Parser) :=
  match p.tokens with
  | ⟨.alias name, m, _⟩ :: rest => some (⟨.alias name, m⟩, { p with tokens := rest }.pop)
  | tokens =>
    let props := properties tokens
    match props.rest, resolveTag p.handles props.tag with
    | t :: rest, some tag =>
      let m := props.start.getD t.start
      let p := { p with tokens := t :: rest }
      -- the sequence of a key may stand at the column of that
      if indentless && t.kind = .blockEntry then
        some (⟨.sequenceStart props.anchor tag, m⟩, { p with state := .indentlessEntry })
      else match t.kind with
        | .scalar text style =>
          let tag := if tag = some "!" then none else tag
          some (⟨.scalar props.anchor ⟨tag, text, style⟩, m⟩, p.skip.pop)
        | .openSequence =>
          some (⟨.sequenceStart props.anchor tag, m⟩, { p with state := .flowEntry true })
        | .openMapping =>
          some (⟨.mappingStart props.anchor tag, m⟩, { p with state := .flowKey true })
        | .blockSequence =>
          if block then
            some (⟨.sequenceStart props.anchor tag, m⟩, { p with state := .blockEntry true })
          else none
        | .blockMapping =>
          if block then
            some (⟨.mappingStart props.anchor tag, m⟩, { p with state := .blockKey true })
          else none
        | _ =>
          -- an anchor or a tag may be all that there is of a node
          if props.start.isSome then
            some (⟨.scalar props.anchor ⟨tag, "", .plain⟩, m⟩, p.pop)
          else none
    | _, _ => none

def directives (version : Bool) (handles : List (String × String)) :
    List Token → Option (List (String × String) × List Token)
  | ⟨.version major minor, _, _⟩ :: rest =>
    if version || major ≠ 1 || (minor ≠ 1 && minor ≠ 2) then none else directives true handles rest
  | ⟨.handle name start, _, _⟩ :: rest =>
    if (handles.lookup name).isSome then none
    else directives version (handles ++ [(name, start)]) rest
  | rest => some (handles, rest)

/-- The handles that every document has unless it defines them anew. -/
def standardHandles : List (String × String) := [("!", "!"), ("!!", "tag:yaml.org,2002:")]

def documentStart (p : Parser) (implicit : Bool) : Option (Event × Parser) :=
  let tokens := if implicit then p.tokens else p.tokens.dropWhile (·.kind = .documentEnd)
  match tokens with
  | [] => none
  | t :: rest =>
    let explicit := match t.kind with
      | .version _ _ | .handle _ _ | .documentStart => true
      | _ => false
    if t.kind = .streamEnd then
      some (⟨.streamEnd, t.start⟩, { p with tokens := rest, state := .finished })
    -- only the first document may begin without a mark
    else if implicit && !explicit then
      some (⟨.documentStart, t.start⟩,
        { p with state := .blockNode, handles := standardHandles }.push .documentEnd)
    else do
      let (handles, rest) ← directives false [] (t :: rest)
      match rest with
      | ⟨.documentStart, _, _⟩ :: rest =>
        some (⟨.documentStart, t.start⟩,
          Parser.push ⟨rest, .documentContent, p.pending, handles ++ standardHandles⟩ .documentEnd)
      | _ => none

/-- A node, or the empty scalar if one of `stops` comes next: then the state becomes `after`, and
    that is also where the parser comes back to after the node. -/
def nodeOrEmpty (p : Parser) (stops : List TokenKind) (block indentless : Bool) (m : Token → Mark)
    (after : State) : Option (Event × Parser) :=
  match p.tokens with
  | [] => none
  | t :: _ =>
    if isOneOf stops t then some (emptyScalar (m t), { p with state := after })
    else (p.push after).node block indentless

def blockEntry (p : Parser) : Option (Event × Parser) :=
  match p.tokens with
  | ⟨.blockEntry, _, stop⟩ :: rest =>
    { p with tokens := rest }.nodeOrEmpty [.blockEntry, .blockEnd] true false (fun _ => stop)
      (.blockEntry false)
  | ⟨.blockEnd, m, _⟩ :: rest => some (⟨.sequenceEnd, m⟩, { p with tokens := rest }.pop)
  | _ => none

/-- One more entry of a sequence at the column of its key. -/
def indentlessEntry (p : Parser) : Option (Event × Parser) :=
  match p.tokens with
  | ⟨.blockEntry, _, stop⟩ :: rest =>
    { p with tokens := rest }.nodeOrEmpty [.blockEntry, .key, .value, .blockEnd] true false
      (fun _ => stop) .indentlessEntry
  | t :: _ => some (⟨.sequenceEnd, t.start⟩, p.pop)
  | [] => none

def blockKey (p : Parser) : Option (Event × Parser) :=
  match p.tokens with
  | ⟨.key, _, stop⟩ :: rest =>
    { p with tokens := rest }.nodeOrEmpty [.key, .value, .blockEnd] true true
      (fun _ => stop) .blockValue
  | ⟨.blockEnd, m, _⟩ :: rest => some (⟨.mappingEnd, m⟩, { p with tokens := rest }.pop)
  | _ => none

def blockValue (p : Parser) : Option (Event × Parser) :=
  match p.tokens with
  | ⟨.value, _, stop⟩ :: rest =>
    { p with tokens := rest }.nodeOrEmpty [.key, .value, .blockEnd] true true (fun _ => stop)
      (.blockKey false)
  | t :: _ => some (emptyScalar t.start, { p with state := .blockKey false })
  | [] => none

/-- The tokens behind the comma that separates entries; the first entry has none. -/
def afterComma (first : Bool) (close : TokenKind) (tokens : List Token) : Option (List Token) :=
  match tokens with
  | [] => none
  | t :: rest =>
    if first || t.kind = close then some (t :: rest)
    else if t.kind = .flowEntry then (if rest.isEmpty then none else some rest)
    else none

/-- One more entry of a flow sequence; an entry with a key is a mapping of one pair. -/
def flowEntry (p : Parser) (first : Bool) : Option (Event × Parser) := do
  match ← afterComma first .closeSequence p.tokens with
  | [] => none
  | t :: rest =>
    let p := { p with tokens := t :: rest }
    if t.kind = .closeSequence then return (⟨.sequenceEnd, t.start⟩, p.skip.pop)
    else if t.kind = .key then
      return (⟨.mappingStart none none, t.start⟩, { p.skip with state := .pairKey })
    else (p.push (.flowEntry false)).node false false

/-- The key of a pair in a flow sequence; a key that is not written takes the next token with it. -/
def pairKey (p : Parser) : Option (Event × Parser) :=
  match p.tokens with
  | [] => none
  | t :: rest =>
    if isOneOf [.value, .flowEntry, .closeSequence] t then
      some (emptyScalar t.stop, { p with tokens := rest, state := .pairValue })
    else (p.push .pairValue).node false false

def pairValue (p : Parser) : Option (Event × Parser) :=
  match p.tokens with
  | ⟨.value, _, _⟩ :: rest =>
    { p with tokens := rest }.nodeOrEmpty [.flowEntry, .closeSequence] false false
      Token.start .pairEnd
  | t :: _ => some (emptyScalar t.start, { p with state := .pairEnd })
  | [] => none

def pairEnd (p : Parser) : Option (Event × Parser) :=
  match p.tokens with
  | t :: _ => some (⟨.mappingEnd, t.start⟩, { p with state := .flowEntry false })
  | [] => none

def flowKey (p : Parser) (first : Bool) : Option (Event × Parser) := do
  match ← afterComma first .closeMapping p.tokens with
  | [] => none
  | t :: rest =>
    let p := { p with tokens := t :: rest }
    if t.kind = .closeMapping then return (⟨.mappingEnd, t.start⟩, p.skip.pop)
    else if t.kind = .key then
      p.skip.nodeOrEmpty [.value, .flowEntry, .closeMapping] false false Token.start .flowValue
    else (p.push .flowNoValue).node false false

def flowValue (p : Parser) : Option (Event × Parser) :=
  match p.tokens with
  | ⟨.value, _, _⟩ :: rest =>
    { p with tokens := rest }.nodeOrEmpty [.flowEntry, .closeMapping] false false Token.start
      (.flowKey false)
  | t :: _ => some (emptyScalar t.start, { p with state := .flowKey false })
  | [] => none

/-- The value of an entry of a flow mapping that has no colon. -/
def flowNoValue (p : Parser) : Option (Event × Parser) :=
  match p.tokens with
  | t :: _ => some (emptyScalar t.start, { p with state := .flowKey false })
  | [] => none

def documentEnd (p : Parser) : Option (Event × Parser) :=
  match p.tokens with
  | t :: rest =>
    some (⟨.documentEnd, t.start⟩,
      { p with
        tokens := if t.kind = .documentEnd then rest else t :: rest
        state := .documentStart false })
  | [] => none

/-- The content of a document that began with `---`. -/
def documentContent (p : Parser) : Option (Event × Parser) :=
  match p.tokens with
  | [] => none
  | t :: _ =>
    let stops := match t.kind with
      | .version _ _ | .handle _ _ | .documentStart | .documentEnd | .streamEnd => true
      | _ => false
    if stops then some (emptyScalar t.start, p.pop) else p.node true false

def next (p : Parser) : Option (Event × Parser) :=
  match p.state with
  | .documentStart implicit => p.documentStart implicit
  | .documentContent => p.documentContent
  | .documentEnd => p.documentEnd
  | .blockNode => p.node true false
  | .blockEntry first => (if first then p.skip else p).blockEntry
  | .indentlessEntry => p.indentlessEntry
  | .blockKey first => (if first then p.skip else p).blockKey
  | .blockValue => p.blockValue
  | .flowEntry first => (if first then p.skip else p).flowEntry first
  | .pairKey => p.pairKey
  | .pairValue => p.pairValue
  | .pairEnd => p.pairEnd
  | .flowKey first => (if first then p.skip else p).flowKey first
  | .flowValue => p.flowValue
  | .flowNoValue => p.flowNoValue
  | .finished => none

/-- At most `limit` further events, up to the end of the stream or to what is no YAML. -/
def events (p : Parser) : Nat → List Event
  | 0 => []
  | limit + 1 =>
    match p.next with
    | some (e, p) => e :: p.events limit
    | none => []

end Parser

/-- The events of a text up to the end of the stream or to what is no YAML. Each token gives rise to
    a few events at most, which bounds their number. -/
def eventsOf (tokens : List Token) : List Event :=
  Parser.events ⟨tokens, .documentStart true, [], Parser.standardHandles⟩ (8 * tokens.length + 16)

end Scaffold.Yaml
