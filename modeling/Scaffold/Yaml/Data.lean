import Scaffold.Yaml.Written

/-! Data to be written as YAML: texts, words that need no quotes, sequences and mappings, in block
    style with two blanks a level. A sequence stands at the column of its key. -/

namespace Scaffold.Yaml

inductive Data where
  | text (s : String)
  /-- a number or name that is written as it is -/
  | word (s : String)
  | list (items : List Data)
  | record (fields : List (String × Data))

namespace Data

open Written

/-- Whether a key fits in front of its colon: at most 128 bytes on one line. -/
def isSimpleKey (key : String) : Bool := !key.toList.any breaksLine && key.utf8ByteSize ≤ 128

/-- A key in a mapping at column `indent`, through its colon. -/
def keyChars (indent : Nat) (key : String) : List Char :=
  if isSimpleKey key then scalar (indent + 2) key ++ [':']
  else ['?', ' '] ++ endLine (scalar (indent + 2) key) ++ spaces indent ++ [':']

/-- Lines that all begin at column `indent`, the first one being there already. -/
def joinLines (indent : Nat) : List (List Char) → List Char
  | [] => []
  | [line] => line
  | line :: rest => line ++ spaces indent ++ joinLines indent rest

mutual
/-- What follows a key or hyphen in a collection at column `indent`, through the end of the line. -/
def valueChars (indent : Nat) : Data → List Char
  | .text s => ' ' :: endLine (scalar (indent + 2) s)
  | .word s => ' ' :: s.toList ++ ['\n']
  | .list [] => [' ', '[', ']', '\n']
  | .list (d :: items) =>
    '\n' :: spaces indent ++ joinLines indent (itemLines indent (d :: items))
  | .record [] => [' ', '\x7b', '\x7d', '\n']
  | .record (f :: fields) =>
    '\n' :: spaces (indent + 2) ++ joinLines (indent + 2) (fieldLines (indent + 2) (f :: fields))

def itemLines (indent : Nat) : List Data → List (List Char)
  | [] => []
  | .record (f :: fields) :: rest =>
    (['-', ' '] ++ joinLines (indent + 2) (fieldLines (indent + 2) (f :: fields)))
      :: itemLines indent rest
  | d :: rest => ('-' :: valueChars indent d) :: itemLines indent rest

def fieldLines (indent : Nat) : List (String × Data) → List (List Char)
  | [] => []
  | (key, d) :: rest => (keyChars indent key ++ valueChars indent d) :: fieldLines indent rest
end

def document (fields : List (String × Data)) : String :=
  match fields with
  | [] => "\x7b\x7d\n"
  | fields => String.ofList (joinLines 0 (fieldLines 0 fields))

def field? (name : String) (value : Option Data) : List (String × Data) :=
  value.toList.map fun d => (name, d)

def texts (items : List String) : Data := .list (items.map .text)

end Data

end Scaffold.Yaml
