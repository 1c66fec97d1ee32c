import Scaffold.Yaml.Token
import Scaffold.Text.Digits

/-! The text of flow scalars. A run of blanks and breaks inside one is a gap: within a line it
    stands for itself, over lines the first break becomes a blank and further breaks stay. -/

namespace Scaffold.Yaml

/-- A run of blanks and breaks, texts in reverse. -/
structure Gap where
  /-- the blanks before any break -/
  blanks : List Char
  /-- whether the gap has gone over the end of a line -/
  broken : Bool
  /-- the first break, unless it was escaped -/
  first : Option Char
  /-- the breaks after the first -/
  more : List Char

def Gap.empty : Gap := ⟨[], false, none, []⟩

/-- The gap after an escaped line break. -/
def Gap.afterEscape : Gap := ⟨[], true, none, []⟩

def Gap.add (g : Gap) (c : Char) : Gap :=
  if isBreak c then
    if g.broken then { g with more := c :: g.more }
    else { g with blanks := [], broken := true, first := some c }
  else if g.broken then g
  else { g with blanks := c :: g.blanks }

/-- What the gap contributes to the scalar, in reverse. -/
def Gap.folded (g : Gap) : List Char :=
  if g.broken then
    match g.first with
    | some '\n' => if g.more.isEmpty then [' '] else g.more
    | some c => g.more ++ [c]
    | none => g.more
  else g.blanks

/-- A scalar that has been read: its text, what follows it, and whether a line break stood
    between. -/
structure FlowText where
  text : List Char
  rest : List Cell
  broken : Bool

/-- Whether a plain scalar ends before these cells, which do not begin with a gap. -/
def endsPlain (inFlow : Bool) (c : Cell) (rest : List Cell) : Bool :=
  (c.char = ':' && atGap rest) ||
  (inFlow && (c.char = ',' || c.char = '[' || c.char = ']' || c.char = '\x7b' || c.char = '\x7d'))

/-- A colon in a flow collection that is followed by a flow indicator. -/
def isStrayColon (inFlow : Bool) (c : Cell) (rest : List Cell) : Bool :=
  inFlow && c.char = ':' &&
    match rest with
    | d :: _ => d.char = ',' || d.char = '?' || d.char = '[' || d.char = ']' || d.char = '\x7b'
        || d.char = '\x7d'
    | [] => false

/-- A plain scalar whose lines must be indented by `indent` outside flow collections. `text` is what
    has been read, in reverse, and `gap` the gap after it; inside a word there is none. -/
def plainFrom (inFlow : Bool) (indent : Nat) (text : List Char) (gap : Option Gap) :
    List Cell → Option FlowText
  | [] => some ⟨text.reverse, [], (gap.map Gap.broken).getD false⟩
  | c :: rest =>
    if isGapChar c.char then
      let g := gap.getD Gap.empty
      if g.broken && c.char = '\t' && c.mark.column < indent then none
      else plainFrom inFlow indent text (some (g.add c.char)) rest
    else
      let stop : FlowText := ⟨text.reverse, c :: rest, (gap.map Gap.broken).getD false⟩
      if gap.isSome && ((!inFlow && c.mark.column < indent) || atDocumentLine (c :: rest)
          || c.char = '#') then some stop
      else if isStrayColon inFlow c rest then none
      else if endsPlain inFlow c rest then some stop
      else
        plainFrom inFlow indent (c.char :: ((gap.map Gap.folded).getD [] ++ text)) none rest

/-- What the reader of a quoted scalar is in the middle of. -/
inductive QuotedState where
  | word
  | gap (g : Gap)
  /-- after the first quote of two -/
  | quote
  /-- after a backslash -/
  | escape
  /-- there are `left` hexadecimal digits missing -/
  | hex (value left : Nat)

/-- The character that stands for `c` after a backslash. -/
def unescaped? (c : Char) : Option Char :=
  if c = '0' then some '\x00' else if c = 'a' then some '\x07' else if c = 'b' then some '\x08'
  else if c = 't' || c = '\t' then some '\t' else if c = 'n' then some '\n'
  else if c = 'v' then some '\x0b' else if c = 'f' then some '\x0c' else if c = 'r' then some '\r'
  else if c = 'e' then some '\x1b' else if c = ' ' then some ' ' else if c = '"' then some '"'
  else if c = '/' then some '/' else if c = '\\' then some '\\' else if c = 'N' then some '\u0085'
  else if c = '_' then some '\u00a0' else if c = 'L' then some '\u2028'
  else if c = 'P' then some '\u2029' else none

def hexDigits? (c : Char) : Option Nat :=
  if c = 'x' then some 2 else if c = 'u' then some 4 else if c = 'U' then some 8 else none

/-- The character of that number, if it is one. -/
def scalarValue? (n : Nat) : Option Char := if n.isValidChar then some (Char.ofNat n) else none

/-- A quoted scalar after its opening quote; `text` is what has been read, in reverse. -/
def quotedFrom (single : Bool) (text : List Char) : QuotedState → List Cell → Option FlowText
  | _, [] => none
  | .quote, _ :: rest => quotedFrom single ('\'' :: text) .word rest
  | .escape, c :: rest =>
    -- a break behind a backslash is no blank in the text
    if isBreak c.char then quotedFrom single text (.gap .afterEscape) rest
    else match hexDigits? c.char with
      | some n => quotedFrom single text (.hex 0 n) rest
      | none =>
        match unescaped? c.char with
        | some d => quotedFrom single (d :: text) .word rest
        | none => none
  | .hex value left, c :: rest =>
    match Text.hexValue? c.char with
    | none => none
    | some d =>
      if left ≤ 1 then
        match scalarValue? (value * 16 + d) with
        | some e => quotedFrom single (e :: text) .word rest
        | none => none
      else quotedFrom single text (.hex (value * 16 + d) (left - 1)) rest
  | .gap g, c :: rest =>
    if isGapChar c.char then quotedFrom single text (.gap (g.add c.char)) rest
    -- a document may not end inside of quotes
    else if atDocumentLine (c :: rest) then none
    else
      let text := g.folded ++ text
      if single && c.char = '\'' then
        -- two single quotes in a row stand for one
        if startsWith '\'' rest then quotedFrom single text .quote rest
        else some ⟨text.reverse, rest, false⟩
      else if !single && c.char = '"' then some ⟨text.reverse, rest, false⟩
      else if !single && c.char = '\\' then quotedFrom single text .escape rest
      else quotedFrom single (c.char :: text) .word rest
  | .word, c :: rest =>
    if isGapChar c.char then quotedFrom single text (.gap (Gap.empty.add c.char)) rest
    else if single && c.char = '\'' then
      if startsWith '\'' rest then quotedFrom single text .quote rest
      else some ⟨text.reverse, rest, false⟩
    else if !single && c.char = '"' then some ⟨text.reverse, rest, false⟩
    else if !single && c.char = '\\' then quotedFrom single text .escape rest
    else quotedFrom single (c.char :: text) .word rest

end Scaffold.Yaml
