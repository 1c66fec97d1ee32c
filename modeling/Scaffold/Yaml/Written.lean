import Scaffold.Yaml.Cell
import Scaffold.Yaml.Plain

/-! How a text is written as a scalar: plain if it would be read as the same text, in single quotes
    if it would be taken for something else, as literal lines if it has line feeds, and in double
    quotes if it holds what none of these can. -/

namespace Scaffold.Yaml.Written

/-- A line feed or another character that ends a line. -/
def breaksLine (c : Char) : Bool := c = '\n' || c = '\r' || c = '\u0085' || isSeparator c

/-- A character that stands for itself outside double quotes. -/
def isPrintable (c : Char) : Bool :=
  let n := c.toNat
  n = 10 || (32 ≤ n && n ≤ 126) || (160 ≤ n && n ≤ 55295)
    || (57344 ≤ n && n ≤ 65533 && n ≠ 65279) || 65536 ≤ n

/-- A blank, a break, or the end of the text. -/
def isGapEnd : Option Char → Bool
  | none => true
  | some c => isSpaceOrTab c || breaksLine c || c = '\x00'

/-- Whether somewhere a character that satisfies `p` stands right before one that satisfies `q`. -/
def hasPair (p q : Char → Bool) : List Char → Bool
  | c :: d :: rest => (p c && q d) || hasPair p q (d :: rest)
  | _ => false

/-- Characters that have a meaning at the start of a scalar. -/
def startIndicators : List Char :=
  ['#', ',', '[', ']', '\x7b', '\x7d', '&', '*', '!', '|', '>', '\'', '"', '%', '@', '`']

def startsAsIndicator : List Char → Bool
  | [] => false
  | c :: rest =>
    startIndicators.contains c || ((c = '?' || c = ':' || c = '-') && isGapEnd rest.head?)

/-- Whether a colon in front of a gap or a number sign behind one stands in the text. -/
def hasInnerIndicator : List Char → Bool
  | [] => false
  | c :: rest =>
    (match rest with
      | [] => false
      | d :: after => (d = ':' && isGapEnd after.head?) || (d = '#' && isGapEnd (some c)))
      || hasInnerIndicator rest

/-- Whether the text begins like the line between two documents. -/
def startsDocument (s : List Char) : Bool :=
  ['-', '-', '-'].isPrefixOf s || ['.', '.', '.'].isPrefixOf s

def plainAllowed (s : List Char) : Bool :=
  s.all isPrintable && !s.any breaksLine && s.head? ≠ some ' ' && s.getLast? ≠ some ' ' &&
  !startsDocument s && !startsAsIndicator s && !hasInnerIndicator s

/-- Whether blanks next to breaks and characters to be escaped are absent, so that single quotes
    keep the text. -/
def singleAllowed (s : List Char) : Bool :=
  s.all isPrintable && !hasPair breaksLine (· = ' ') s && !hasPair (· = ' ') breaksLine s

def literalAllowed (s : List Char) : Bool :=
  s.all isPrintable && s.getLast? ≠ some ' ' && !hasPair (· = ' ') breaksLine s

/-- Whether the plain text would be read as something other than a text. -/
def looksTyped (s : String) : Bool :=
  match Plain.meaning s with
  | .text _ => Plain.isZeroPadded s.toList
  | _ => true

def styleOf (s : String) : Style :=
  let cs := s.toList
  if cs.contains '\n' then (if literalAllowed cs then .literal else .double)
  else if !looksTyped s && plainAllowed cs then .plain
  else if singleAllowed cs then .single
  else .double

def spaces (n : Nat) : List Char := List.replicate n ' '

/-- The inside of single quotes; after a break the line is indented, and a quote is written
    twice. -/
def singleFrom (indent : Nat) (broken : Bool) : List Char → List Char
  | [] => if broken then spaces indent else []
  | c :: rest =>
    if breaksLine c then c :: singleFrom indent true rest
    else if c = ' ' then c :: singleFrom indent broken rest
    else
      (if broken then spaces indent else []) ++ (if c = '\'' then ['\'', '\''] else [c])
        ++ singleFrom indent false rest

def escapeBody (c : Char) : List Char :=
  let n := c.toNat
  if n = 0 then ['0'] else if n = 7 then ['a'] else if n = 8 then ['b'] else if n = 9 then ['t']
  else if n = 10 then ['n'] else if n = 11 then ['v'] else if n = 12 then ['f']
  else if n = 13 then ['r'] else if n = 27 then ['e'] else if n = 34 then ['"']
  else if n = 92 then ['\\'] else if n = 0x85 then ['N'] else if n = 0xA0 then ['_']
  else if n = 0x2028 then ['L'] else if n = 0x2029 then ['P']
  else if n ≤ 0xFF then 'x' :: Text.hexDigits 'A' 2 n
  else if n ≤ 0xFFFF then 'u' :: Text.hexDigits 'A' 4 n
  else 'U' :: Text.hexDigits 'A' 8 n

def doubleChar (c : Char) : List Char :=
  if !isPrintable c || breaksLine c || c = '"' || c = '\\' then '\\' :: escapeBody c else [c]

/-- The lines of a literal scalar, each indented unless it is empty. -/
def literalFrom (indent : Nat) (broken : Bool) : List Char → List Char
  | [] => []
  | c :: rest =>
    if breaksLine c then c :: literalFrom indent true rest
    else (if broken then spaces indent else []) ++ c :: literalFrom indent false rest

/-- The sign after `|`: the step of the indentation if the text begins with a blank or break, and
    how the text ends. -/
def literalHeader (s : List Char) : List Char :=
  let begins := match s with
    | c :: _ => if c = ' ' || breaksLine c then ['2'] else []
    | [] => []
  let ends := match s.reverse with
    | c :: d :: _ => if !breaksLine c then ['-'] else if breaksLine d then ['+'] else []
    | [c] => if breaksLine c then ['+'] else ['-']
    | [] => ['-']
  '|' :: begins ++ ends

/-- A text as a scalar whose further lines are indented by `indent`. -/
def scalar (indent : Nat) (s : String) : List Char :=
  let cs := s.toList
  match styleOf s with
  | .plain => cs
  | .single => '\'' :: singleFrom indent false cs ++ ['\'']
  | .literal | .folded => literalHeader cs ++ '\n' :: literalFrom indent true cs
  | .double => '"' :: cs.flatMap doubleChar ++ ['"']

def endLine (s : List Char) : List Char :=
  if s.getLast?.any breaksLine then s else s ++ ['\n']

end Scaffold.Yaml.Written
