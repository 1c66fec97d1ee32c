import Scaffold.Descriptor.Basic
import Scaffold.Text.Blank
import Scaffold.Text.Split

/-! Phases on the command line: a name, and after colons the inputs and the outputs with commas
    between them, as in `build:spec,config:image`. -/

namespace Scaffold.PhaseArgument

open Text

/-- The items of a list, without blanks around them; empty ones do not count. -/
def listItems (s : List Char) : List String :=
  (((splitOn ',' s).map trim).filter (· ≠ [])).map String.ofList

/-- The phase of an argument, which needs a name. -/
def parse? (arg : String) : Option Phase :=
  let parts := splitAtMost ':' 2 arg.toList
  match trim (parts.getD 0 []) with
  | [] => none
  | name =>
    some ⟨String.ofList name, none, listItems (parts.getD 1 []), listItems (parts.getD 2 [])⟩

def text (p : Phase) : String :=
  p.name ++ ":" ++ String.intercalate "," p.inputs ++ ":" ++ String.intercalate "," p.outputs

end Scaffold.PhaseArgument
