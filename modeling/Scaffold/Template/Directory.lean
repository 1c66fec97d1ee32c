import Scaffold.Disk.Access
import Scaffold.Template.Store

/-! Templates in a directory: the identifier is the path from the directory, so an identifier that
    could lead out of it is not one of its templates. -/

namespace Scaffold.Template

open Disk (Access Listing)

/-- Whether an identifier in normal form stays inside a directory. -/
def staysInside (id : String) : Bool :=
  (Path.components id).all fun
    | .name _ | .here => true
    | _ => false

def templateExtension : List Char := ['t', 'e', 'r', 'a']

/-- A text at its place in an ordered list. -/
def insertOrdered (s : String) : List String → List String
  | [] => [s]
  | t :: rest => if s < t then s :: t :: rest else t :: insertOrdered s rest

/-- The texts in the order of their characters. -/
def ordered (texts : List String) : List String := texts.foldr insertOrdered []

namespace Store

variable {m : Type → Type} [Monad m]

/-- The templates in a directory, which are read each time. -/
def ofDirectory [Access m] (root : String) : Store m := fun id => do
  let id := normalId id
  if !staysInside id then return .error (.notFound id)
  let path := Path.join root id
  match ← Disk.readText path with
  | .ok source => return .ok source
  | .error .notFound => return .error (.notFound id)
  | .error failure => return .error (.io id path failure)

/-- The paths of the files among entries of the directory `dir`, of which `inside` is the path from
    the root; `deeper` answers for the directories among them. -/
def filesOf (deeper : String → List String → m (Except StoreError (List (List String))))
    (dir : String) (inside : List String) :
    List (String × EntryKind) → m (Except StoreError (List (List String)))
  | [] => return .ok []
  | (name, kind) :: rest => do
    let found ← match kind with
      | .file => pure (.ok [inside ++ [name]])
      | .directory => deeper (Path.join dir name) (inside ++ [name])
    match found with
    | .error e => return .error e
    | .ok found =>
      match ← filesOf deeper dir inside rest with
      | .error e => return .error e
      | .ok more => return .ok (found ++ more)

/-- The paths of the files in a directory and in its directories, which stand inside each other at
    most that deep. -/
def filesIn [Listing m] : Nat → String → List String → m (Except StoreError (List (List String)))
  | 0, dir, _ => return .error (.io "" dir .nameTooLong)
  | depth + 1, dir, inside => do
    match ← Listing.list dir with
    | .error failure => return .error (.io "" dir failure)
    | .ok entries => filesOf (filesIn depth) dir inside entries

/-- How deep directories can stand inside each other before their paths are too long. -/
def maxDepth : Nat := Disk.maxPathSize

def isTemplate (path : List String) : Bool :=
  match path.getLast? with
  | some name => Path.extension? name.toList = some templateExtension
  | none => false

/-- The identifiers of the templates in a directory, in order; none if it is not there. -/
def idsIn [Access m] [Listing m] (root : String) : m (Except StoreError (List String)) := do
  if !(← Disk.isThere root) then return .ok []
  match ← filesIn maxDepth root [] with
  | .error e => return .error e
  | .ok paths =>
    return .ok (ordered ((paths.filter isTemplate).map fun path =>
      normalId (String.intercalate "/" path)))

end Store

end Scaffold.Template
