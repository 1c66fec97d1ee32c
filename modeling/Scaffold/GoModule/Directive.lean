import Scaffold.Text.Blank
import Scaffold.Text.Split

/-! The module directive of a `go.mod` file. -/

namespace Scaffold.GoModule

open Text

/-- What stands before the first `//`. -/
def beforeComment : List Char → List Char
  | [] => []
  | '/' :: '/' :: _ => []
  | c :: rest => c :: beforeComment rest

def trimChar (c : Char) (s : List Char) : List Char := dropEndWhile (· = c) (s.dropWhile (· = c))

/-- The module path that a line declares: the word `module`, a blank, and the path, which may be in
    quotes. -/
def directiveOf? (line : List Char) : Option (List Char) :=
  match dropStart? ['m', 'o', 'd', 'u', 'l', 'e'] (trim (beforeComment line)) with
  | some (c :: rest) =>
    if isBlank c then
      match trimChar '`' (trimChar '"' (trim (c :: rest))) with
      | [] => none
      | path => some path
    else none
  | _ => none

/-- The module path of a `go.mod` file, which its first directive declares. -/
def directive? (content : String) : Option String :=
  ((lines content.toList).findSome? directiveOf?).map String.ofList

end Scaffold.GoModule
