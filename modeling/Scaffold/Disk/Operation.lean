import Scaffold.Disk.Place

/-! Operations on a disk by path. Each either fails and changes nothing or answers the disk after
    it. -/

namespace Scaffold.Disk

def newFileMode : Nat := 0o644

def executableMode : Nat := 0o755

def read (d : Disk) (path : String) : Except Failure ByteArray := do
  match (← d.find path).entry with
  | .file f => return f.bytes
  | .directory => throw .isDirectory

/-- Puts content into a file, which keeps its mode if it is there and is made if it is not. -/
def write (d : Disk) (path : String) (bytes : ByteArray) : Except Failure Disk := do
  let p ← d.place path
  match p.name with
  | none => throw .isDirectory
  | some name =>
    if p.slash then throw .isDirectory
    match h : d.get? (name :: p.dir.1) with
    | some .directory => throw .isDirectory
    | some (.file f) => return d.put name p.dir (.file ⟨bytes, f.mode⟩) (by simp [h])
    | none => return d.put name p.dir (.file ⟨bytes, newFileMode⟩) (by simp [h])

def makeDir (d : Disk) (path : String) : Except Failure Disk := do
  let p ← d.place path
  match p.name with
  | none => throw .exists
  | some name =>
    match h : d.get? (name :: p.dir.1) with
    | some _ => throw .exists
    | none => return d.put name p.dir .directory (by simp [h])

/-- The disk with a file moved to a name in a directory, over another file if need be. -/
def moveFile (d : Disk) (loc : Location) (f : File) (here : d.get? loc = some (.file f))
    (name : String) (dir : d.Directory) (free : d.get? (name :: dir.1) ≠ some .directory) : Disk :=
  have hdir : (d.removeFile loc f here).get? dir.1 = some .directory := by
    rw [get?_removeFile]
    split
    · rename_i heq
      exact absurd ((heq ▸ dir.2 : d.get? loc = some .directory).symm.trans here) (by simp)
    · exact dir.2
  (d.removeFile loc f here).put name ⟨dir.1, hdir⟩ (.file f) (by
    rw [get?_removeFile]
    split
    · simp
    · exact free)

def rename (d : Disk) (source target : String) : Except Failure Disk := do
  match ← d.find source with
  | ⟨_, .directory, _⟩ => throw .isDirectory
  | ⟨loc, .file f, here⟩ =>
    let p ← d.place target
    match p.name with
    | none => throw .isDirectory
    | some name =>
      if h : d.get? (name :: p.dir.1) = some .directory then throw .isDirectory
      else if p.slash then throw .notDirectory
      else return d.moveFile loc f here name p.dir h

def remove (d : Disk) (path : String) : Except Failure Disk := do
  match ← d.find path with
  | ⟨loc, .file f, here⟩ => return d.removeFile loc f here
  | ⟨_, .directory, _⟩ => throw .isDirectory

def removeTree (d : Disk) (path : String) : Except Failure Disk := do
  return d.removeInside (← d.find path).location

def setMode (d : Disk) (path : String) (mode : Nat) : Except Failure Disk := do
  match ← d.find path with
  | ⟨name :: dir, .file f, here⟩ =>
    return d.put name ⟨dir, d.parent_isDirectory here⟩ (.file { f with mode }) (by simp [here])
  | _ => return d

/-- The names in a directory, with what they are names of. -/
def list (d : Disk) (path : String) : Except Failure (List (String × Entry)) := do
  match ← d.find path with
  | ⟨_, .file _, _⟩ => throw .notDirectory
  | ⟨dir, .directory, _⟩ =>
    let names := d.entries.filterMap fun
      | (name :: parent, _) => if parent = dir then some name else none
      | ([], _) => none
    return names.eraseDups.filterMap fun name => (d.get? (name :: dir)).map (name, ·)

/-- The path of a location from the root. -/
def pathOf (loc : Location) : String := "/" ++ String.intercalate "/" loc.reverse

/-- The path from the root of a file or directory. -/
def canonical (d : Disk) (path : String) : Except Failure String := do
  return pathOf (← d.find path).location

end Scaffold.Disk
