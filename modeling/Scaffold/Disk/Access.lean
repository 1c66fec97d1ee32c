import Scaffold.Disk.Operation
import Scaffold.Disk.Path
import Scaffold.Text.Utf8

/-! Access to files from a monad: programs that work on files are written once, and run on a `Disk`
    as well as on the disk of a computer. -/

namespace Scaffold

inductive EntryKind where
  | file
  | directory
  deriving DecidableEq, Repr

namespace Disk

/-- Operations on files; each answers why it failed, if it did. -/
class Access (m : Type → Type) where
  kind? : String → m (Option EntryKind)
  read : String → m (Except Failure ByteArray)
  write : String → ByteArray → m (Except Failure Unit)
  makeDir : String → m (Except Failure Unit)
  rename : String → String → m (Except Failure Unit)
  remove : String → m (Except Failure Unit)
  makeExecutable : String → m (Except Failure Unit)
  canonical : String → m (Except Failure String)

/-- The names in directories, with what they are names of. -/
class Listing (m : Type → Type) where
  list : String → m (Except Failure (List (String × EntryKind)))

def kindOf : Entry → EntryKind
  | .file _ => .file
  | .directory => .directory

def ask {α : Type} (question : Disk → α) : StateM Disk α := fun d => (question d, d)

def change (step : Disk → Except Failure Disk) : StateM Disk (Except Failure Unit) := fun d =>
  match step d with
  | .ok d => (.ok (), d)
  | .error e => (.error e, d)

instance : Access (StateM Disk) where
  kind? path := ask fun d => match d.find path with
    | .ok found => some (kindOf found.entry)
    | .error _ => none
  read path := ask fun d => d.read path
  write path bytes := change fun d => d.write path bytes
  makeDir path := change fun d => d.makeDir path
  rename source target := change fun d => d.rename source target
  remove path := change fun d => d.remove path
  makeExecutable path := change fun d => d.setMode path executableMode
  canonical path := ask fun d => d.canonical path

instance : Listing (StateM Disk) where
  list path := ask fun d => (d.list path).map fun entries =>
    entries.map fun (name, e) => (name, kindOf e)

section
variable {m : Type → Type} [Monad m] [Access m]

def isThere (path : String) : m Bool := do return (← Access.kind? path).isSome

def isDirectory (path : String) : m Bool := do return (← Access.kind? path) = some .directory

/-- The content of a file that has to be UTF-8. -/
def readText (path : String) : m (Except Failure String) := do
  match ← Access.read path with
  | .error e => return .error e
  | .ok bytes =>
    match Text.decode? bytes with
    | some s => return .ok s
    | none => return .error .notText

/-- Makes the first of these directories, each of which stands in the next, and those that are
    missing around it. -/
def makeFirstDir : List String → m (Except Failure Unit)
  | [] => return .ok ()
  | path :: around => do
    if path.isEmpty then return .ok ()
    match ← Access.makeDir path with
    | .ok _ => return .ok ()
    | .error .notFound =>
      match ← makeFirstDir around with
      | .error e => return .error e
      | .ok _ =>
        match ← Access.makeDir path with
        | .ok _ => return .ok ()
        | .error e => if ← isDirectory path then return .ok () else return .error e
    | .error e => if ← isDirectory path then return .ok () else return .error e

/-- Makes a directory and those around it, as far as they are missing. -/
def makeDirs (path : String) : m (Except Failure Unit) := makeFirstDir (Path.ancestors path)

end

end Disk

end Scaffold
