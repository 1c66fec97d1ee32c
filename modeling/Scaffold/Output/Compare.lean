import Scaffold.Diff.Unified
import Scaffold.Output.Target

/-! Comparing generated files with what is under a root: the differences that writing them would
    make. -/

namespace Scaffold.Output

open Disk (Access)

/-- How a file would change. -/
structure FileDiff where
  path : String
  unified : String
  deriving DecidableEq, Repr

variable {m : Type → Type} [Monad m] [Access m]

/-- How a file would change; none if it would not. A file that is not there counts as empty. -/
def compareTarget (t : Target) : m (Except Failure (Option FileDiff)) := do
  if ← isKept t then return .ok none
  else
    match ← existingText t.path with
    | .error e => return .error e
    | .ok existing =>
      let old := existing.getD ""
      let new := uniform t.file.content
      if old = new then return .ok none
      else return .ok (some ⟨t.path, Diff.unified ("a/" ++ t.rel) ("b/" ++ t.rel) old new⟩)

/-- How generated files would change what is under a root, each looked at in turn. -/
def compare (root moduleRoot : String) : List GeneratedFile → m (Except Failure (List FileDiff))
  | [] => return .ok []
  | file :: rest => do
    match target root moduleRoot file with
    | .error e => return .error e
    | .ok t =>
      match ← compareTarget t with
      | .error e => return .error e
      | .ok diff =>
        match ← compare root moduleRoot rest with
        | .error e => return .error e
        | .ok diffs => return .ok (diff.toList ++ diffs)

end Scaffold.Output
