import Scaffold.Disk.Access
import Scaffold.Output.Failure
import Scaffold.Plan.Generate

/-! Where a generated file goes, and what is there already. Texts are compared with their line ends
    made uniform. -/

namespace Scaffold.Output

open Disk (Access)

/-- The text with `\n` for every `\r\n`. -/
def uniform (text : String) : String := String.ofList (Text.unifyNewlines text.toList)

/-- The path of a generated file under a root; it has to consist of names alone. -/
def location (root rel : String) : Except Failure String :=
  if !rel.isEmpty && Path.allNames (Path.components rel) then .ok (Path.join root rel)
  else .error (.unsafePath rel)

/-- A generated file at its place. -/
structure Target where
  file : GeneratedFile
  /-- the path under the root, which is its name in the ledger -/
  rel : String
  path : String

def target (root moduleRoot : String) (file : GeneratedFile) : Except Failure Target := do
  let rel := file.relativePath moduleRoot
  return ⟨file, rel, ← location root rel⟩

variable {m : Type → Type} [Monad m] [Access m]

/-- The text of a file, none if it is not there. Bytes that are not UTF-8 are replaced. -/
def existingText (path : String) : m (Except Failure (Option String)) := do
  match ← Access.read path with
  | .ok bytes => return .ok (some (uniform (Text.decodeRepaired bytes)))
  | .error .notFound => return .ok none
  | .error e => return .error (.io path e)

/-- Whether the file belongs to its editor by now. -/
def isKept (t : Target) : m Bool :=
  if t.file.skipIfExists then Disk.isThere t.path else return false

end Scaffold.Output
