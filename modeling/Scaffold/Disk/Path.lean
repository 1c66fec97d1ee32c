import Scaffold.Text.Split

/-! Paths as texts. Between slashes stand pieces; empty pieces and the piece `.` mean nothing,
    except that a relative path may begin with `.`. Joining and climbing keep the text as it was
    given, so that messages show the paths of the user. -/

namespace Scaffold.Path

open Text

/-- A part of a path that means something. -/
inductive Component where
  | root
  | here
  | up
  | name (s : List Char)
  deriving DecidableEq, Repr

/-- What a piece means; `first` says that it begins a relative path. -/
def component? (first : Bool) (piece : List Char) : Option Component :=
  if piece = [] then none
  else if piece = ['.'] then (if first then some .here else none)
  else if piece = ['.', '.'] then some .up
  else some (.name piece)

/-- Whether a path starts at the root, and its pieces after that. -/
def pieces : List Char → Bool × List (List Char)
  | '/' :: rest => (true, splitOn '/' rest)
  | s => (false, splitOn '/' s)

/-- The components of a path. -/
def components (path : String) : List Component :=
  match pieces path.toList with
  | (true, rest) => .root :: rest.filterMap (component? false)
  | (false, first :: rest) => (component? true first).toList ++ rest.filterMap (component? false)
  | (false, []) => []

def names (cs : List Component) : List (List Char) :=
  cs.filterMap fun
    | .name s => some s
    | _ => none

def allNames (cs : List Component) : Bool :=
  cs.all fun
    | .name _ => true
    | _ => false

/-- The path `rel` as seen from `base`. -/
def join (base rel : String) : String :=
  if rel.toList.head? = some '/' || base.isEmpty then rel
  else if base.toList.getLast? = some '/' then base ++ rel
  else base ++ "/" ++ rel

/-- The text of pieces that are given from the last to the first. -/
def ofReversed (absolute : Bool) (reversed : List (List Char)) : String :=
  String.ofList ((if absolute then ['/'] else []) ++ joinWith ['/'] reversed.reverse)

/-- Whether the last of the pieces, given from the last to the first, is a component. -/
def endsInComponent (absolute : Bool) (piece : List Char) (rest : List (List Char)) : Bool :=
  (component? (!absolute && rest.isEmpty) piece).isSome

/-- Pieces from the last to the first, without those at the end that mean nothing. -/
def dropEmptyEnd (absolute : Bool) : List (List Char) → List (List Char)
  | [] => []
  | piece :: rest =>
    if endsInComponent absolute piece rest then piece :: rest else dropEmptyEnd absolute rest

/-- The paths of the directories around pieces that are given from the last to the first. -/
def parentsOf (absolute : Bool) : List (List Char) → List String
  | [] => []
  | piece :: rest =>
    if endsInComponent absolute piece rest then
      ofReversed absolute (dropEmptyEnd absolute rest) :: parentsOf absolute rest
    else parentsOf absolute rest

/-- The directories around a path, innermost first. -/
def parents (path : String) : List String :=
  let (absolute, ps) := pieces path.toList
  parentsOf absolute ps.reverse

/-- The directory of a path; the root and the empty path have none. -/
def parent? (path : String) : Option String := (parents path).head?

/-- The path and the directories around it, innermost first. -/
def ancestors (path : String) : List String := path :: parents path

/-- What follows the last point of a name, which must not begin it. -/
def extension? (name : List Char) : Option (List Char) :=
  match name.reverse.span (· ≠ '.') with
  | (ending, _ :: _ :: _) => some ending.reverse
  | _ => none

end Scaffold.Path
