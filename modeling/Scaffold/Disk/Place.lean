import Scaffold.Disk.Basic
import Scaffold.Disk.Failure
import Scaffold.Text.Split

/-! Where paths lead on a disk. A path is looked up piece by piece, so every piece but the last has
    to be a directory. -/

namespace Scaffold.Disk

/-- The greatest length of a name, in bytes. -/
def maxNameSize : Nat := 255

/-- The length from which on a path is refused, in bytes. -/
def maxPathSize : Nat := 4096

/-- Where a piece of a path leads from a directory: into another one. -/
def enter (d : Disk) (dir : d.Directory) (piece : List Char) : Except Failure d.Directory :=
  if piece = [] || piece = ['.'] then .ok dir
  else if piece = ['.', '.'] then .ok (d.parent dir)
  else
    let name := String.ofList piece
    if maxNameSize < name.utf8ByteSize then .error .nameTooLong
    else match h : d.get? (name :: dir.1) with
      | some .directory => .ok ⟨name :: dir.1, h⟩
      | some (.file _) => .error .notDirectory
      | none => .error .notFound

/-- Where pieces of a path lead from a directory. -/
def enterAll (d : Disk) : d.Directory → List (List Char) → Except Failure d.Directory
  | dir, [] => .ok dir
  | dir, piece :: rest => do d.enterAll (← d.enter dir piece) rest

/-- Where a path begins: at the root, or in the current directory if that is still there. -/
def startOf (d : Disk) (absolute : Bool) : Except Failure d.Directory :=
  if absolute then .ok d.root
  else if h : d.get? d.current = some .directory then .ok ⟨d.current, h⟩
  else .error .notFound

/-- A place that a path leads to: a directory, or a name in one, which is there or not. -/
structure Place (d : Disk) where
  dir : d.Directory
  name : Option String
  /-- whether the path ends with a slash -/
  slash : Bool

/-- The place that a path leads to. -/
def place (d : Disk) (path : String) : Except Failure (Place d) :=
  let s := path.toList
  if s.contains '\x00' then .error .nulInName
  else if s = [] then .error .notFound
  else if maxPathSize ≤ path.utf8ByteSize then .error .nameTooLong
  else do
    let start ← d.startOf (s.head? = some '/')
    let pieces := (Text.splitOn '/' s).filter (· ≠ [])
    match pieces.getLast? with
    | none => return ⟨start, none, true⟩
    | some last =>
      let dir ← d.enterAll start pieces.dropLast
      if last = ['.'] || last = ['.', '.'] then return ⟨← d.enter dir last, none, true⟩
      else if maxNameSize < (String.ofList last).utf8ByteSize then throw .nameTooLong
      else return ⟨dir, some (String.ofList last), s.getLast? = some '/'⟩

/-- What stands at the end of a path, and where. -/
structure Found (d : Disk) where
  location : Location
  entry : Entry
  here : d.get? location = some entry

/-- What stands at the end of a path; with a slash at its end it has to be a directory. -/
def find (d : Disk) (path : String) : Except Failure (Found d) := do
  let p ← d.place path
  match p.name with
  | none => return ⟨p.dir.1, .directory, p.dir.2⟩
  | some name =>
    match h : d.get? (name :: p.dir.1) with
    | none => throw .notFound
    | some .directory => return ⟨name :: p.dir.1, .directory, h⟩
    | some (.file f) =>
      if p.slash then throw .notDirectory else return ⟨name :: p.dir.1, .file f, h⟩

end Scaffold.Disk
