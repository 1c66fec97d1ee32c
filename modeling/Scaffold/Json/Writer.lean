import Scaffold.Json.Basic
import Scaffold.Text.Digits
import Scaffold.Text.Split

/-! Writing JSON on one line or indented by two blanks a level. -/

namespace Scaffold.Json

/-- One character inside quotes; only quotes, backslashes and control characters are escaped. -/
def escapeChar (c : Char) : List Char :=
  if c = '"' then ['\\', '"']
  else if c = '\\' then ['\\', '\\']
  else if c = '\x08' then ['\\', 'b']
  else if c = '\x0c' then ['\\', 'f']
  else if c = '\n' then ['\\', 'n']
  else if c = '\r' then ['\\', 'r']
  else if c = '\t' then ['\\', 't']
  else if c < ' ' then '\\' :: 'u' :: Text.hexDigits 'a' 4 c.toNat
  else [c]

def quote (s : String) : List Char := '"' :: s.toList.flatMap escapeChar ++ ['"']

def scalarChars : Json → List Char
  | .null => ['n', 'u', 'l', 'l']
  | .bool b => if b then ['t', 'r', 'u', 'e'] else ['f', 'a', 'l', 's', 'e']
  | .int n => (toString n).toList
  | .float x => (Decimal.shortest x).scientific x.negative
  | .str s => quote s
  | _ => []

mutual
/-- The text without blanks or line breaks. -/
def compactChars : Json → List Char
  | .arr items => '[' :: Text.joinWith [','] (compactItems items) ++ [']']
  | .obj fields => '\x7b' :: Text.joinWith [','] (compactFields fields) ++ ['\x7d']
  | .null => scalarChars .null
  | .bool b => scalarChars (.bool b)
  | .int n => scalarChars (.int n)
  | .float x => scalarChars (.float x)
  | .str s => quote s

def compactItems : List Json → List (List Char)
  | [] => []
  | v :: rest => compactChars v :: compactItems rest

def compactFields : List (String × Json) → List (List Char)
  | [] => []
  | (name, v) :: rest => (quote name ++ ':' :: compactChars v) :: compactFields rest
end

/-- A line break and the indentation of a level. -/
def newline (level : Nat) : List Char := '\n' :: List.replicate (2 * level) ' '

/-- Texts on lines of their own between brackets; nothing stands between the brackets of none. -/
def bracketed (openChar closeChar : Char) (level : Nat) (texts : List (List Char)) : List Char :=
  if texts.isEmpty then [openChar, closeChar]
  else
    openChar :: newline (level + 1) ++ Text.joinWith (',' :: newline (level + 1)) texts
      ++ newline level ++ [closeChar]

mutual
/-- The text with one item or field a line. -/
def prettyChars (level : Nat) : Json → List Char
  | .arr items => bracketed '[' ']' level (prettyItems (level + 1) items)
  | .obj fields => bracketed '\x7b' '\x7d' level (prettyFields (level + 1) fields)
  | .null => scalarChars .null
  | .bool b => scalarChars (.bool b)
  | .int n => scalarChars (.int n)
  | .float x => scalarChars (.float x)
  | .str s => quote s

def prettyItems (level : Nat) : List Json → List (List Char)
  | [] => []
  | v :: rest => prettyChars level v :: prettyItems level rest

def prettyFields (level : Nat) : List (String × Json) → List (List Char)
  | [] => []
  | (name, v) :: rest =>
    (quote name ++ [':', ' '] ++ prettyChars level v) :: prettyFields level rest
end

def compact (v : Json) : String := String.ofList (compactChars v)

def pretty (v : Json) : String := String.ofList (prettyChars 0 v)

end Scaffold.Json
