import Scaffold.Yaml.Plain
import Scaffold.Text.Quoted

/-! What can be wrong with a YAML text that is to be read as data of a known shape, and the
    wording. -/

namespace Scaffold.Yaml

/-- One step from a node to a part of it. -/
inductive Step where
  | key (name : String)
  | index (n : Nat)
  /-- the value of a key that is no scalar -/
  | unknown
  deriving DecidableEq

/-- The steps from the root to a node, the last one first. -/
abbrev Path := List Step

/-- What was found instead of the expected data. -/
inductive Found where
  | meaning (m : Meaning)
  | sequence
  | mapping

inductive Problem where
  | wrongType (found : Found) (expected : String)
  | wrongValue (found : Found) (expected : String)
  | missingField (name : String)
  | duplicateField (name : String)
  | unknownVariant (name : String) (variants : List String)

inductive Failure where
  /-- it is not one YAML document -/
  | notOneDocument
  /-- its aliases stand for too much -/
  | tooManyAliases
  /-- its data has another shape -/
  | data (problem : Problem) (place : Option (Path × Mark))

/-- The path as it stands in front of a message; the root is a point. -/
def pathChars : Path → List Char
  | [] => ['.']
  | .index n :: parent => pathChars parent ++ '[' :: Nat.toDigits 10 n ++ [']']
  | .key name :: parent =>
    (if parent.isEmpty then [] else pathChars parent ++ ['.']) ++ name.toList
  | .unknown :: parent => (if parent.isEmpty then [] else pathChars parent ++ ['.']) ++ ['?']

/-- A value as it is named in messages. -/
def Found.message : Found → String
  | .sequence => "sequence"
  | .mapping => "map"
  | .meaning .unit => "unit value"
  | .meaning (.bool b) => "boolean `" ++ (if b then "true" else "false") ++ "`"
  | .meaning (.int n) =>
    "integer `" ++ toString n ++ "`"
      ++ (if Nat.pow 2 64 ≤ n then " as u128" else if n < -(Nat.pow 2 63) then " as i128" else "")
  | .meaning (.float x) => "floating point `" ++ String.ofList x.chars ++ "`"
  | .meaning (.text s) => "string " ++ String.ofList (Text.quoted s.toList)

def quotedNames (names : List String) : String :=
  String.intercalate ", " (names.map fun name => "`" ++ name ++ "`")

def Problem.message : Problem → String
  | .wrongType found expected => "invalid type: " ++ found.message ++ ", expected " ++ expected
  | .wrongValue found expected => "invalid value: " ++ found.message ++ ", expected " ++ expected
  | .missingField name => "missing field `" ++ name ++ "`"
  | .duplicateField name => "duplicate field `" ++ name ++ "`"
  | .unknownVariant name variants =>
    "unknown variant `" ++ name ++ "`, expected one of " ++ quotedNames variants

/-- A place as it stands behind a message: line and column from 1 on, nothing for the beginning of
    the text. -/
def Mark.message (m : Mark) : String :=
  if m.line = 0 && m.column = 0 then ""
  else " at line " ++ toString (m.line + 1) ++ " column " ++ toString (m.column + 1)

def Failure.message : Failure → String
  | .notOneDocument => "the text is not a YAML document"
  | .tooManyAliases => "repetition limit exceeded"
  | .data problem none => problem.message
  | .data problem (some (path, m)) =>
    (if path.isEmpty then "" else String.ofList (pathChars path) ++ ": ")
      ++ problem.message ++ m.message

end Scaffold.Yaml
