import Scaffold.Digest.Sha256
import Scaffold.Output.LedgerFile
import Scaffold.Output.Target

/-! Writing generated files under a root. Every path is checked before anything is changed; a file
    is replaced as a whole, by moving a complete one to its place; the ledger is recorded at the
    end, so a run that fails leaves the old one. -/

namespace Scaffold.Output

open Disk (Access)

inductive Outcome where
  | written
  | unchanged
  | skipped
  | wouldWrite
  deriving DecidableEq, Repr

/-- A value or a failure, with the warnings on the way there. -/
structure Logged (α : Type) where
  warnings : List String
  result : Except Failure α

def lostChanges (path : String) : String :=
  path ++ " was modified since it was last generated; local changes will be overwritten"

/-- Whether a file with the digest `current` differs from what was recorded for it. -/
def wasModified (current recorded : Option String) : Bool :=
  match current, recorded with
  | some c, some r => c ≠ r
  | _, _ => false

variable {m : Type → Type} [Monad m] [Access m]

/-- The file that becomes the one at `path` once it is complete. -/
def draftPath (path : String) : String := path ++ ".pilot.tmp"

/-- Turns the draft into the file, and removes it if that fails. -/
def finish (path : String) (executable : Bool) : m (Except Failure Unit) := do
  let draft := draftPath path
  let ready ← if executable then Access.makeExecutable draft else pure (.ok ())
  match ready with
  | .error e =>
    let _ ← Access.remove draft
    return .error (.io draft e)
  | .ok _ =>
    match ← Access.rename draft path with
    | .error e =>
      let _ ← Access.remove draft
      return .error (.io path e)
    | .ok _ => return .ok ()

/-- Puts a text at a path, and makes the directories around it. -/
def place (path text : String) (executable : Bool) : m (Except Failure Unit) := do
  let parent := (Path.parent? path).getD ""
  match ← Disk.makeDirs parent with
  | .error e => return .error (.io parent e)
  | .ok _ =>
    match ← Access.write (draftPath path) (Text.encode text) with
    | .error e => return .error (.io (draftPath path) e)
    | .ok _ => finish path executable

def markExecutable (path : String) (executable : Bool) : m (Except Failure Unit) := do
  if executable then
    match ← Access.makeExecutable path with
    | .error e => return .error (.io path e)
    | .ok _ => return .ok ()
  else return .ok ()

/-- Writes one file, unless its text is there already; answers the ledger with its digest. -/
def writeTarget (t : Target) (dryRun : Bool) (ledger : Ledger) : m (Logged (Outcome × Ledger)) := do
  let text := uniform t.file.content
  let digest := Sha256.ofText text
  match ← existingText t.path with
  | .error e => return ⟨[], .error e⟩
  | .ok existing =>
    let current := existing.map Sha256.ofText
    if current = some digest then
      match ← markExecutable t.path (t.file.executable && !dryRun) with
      | .error e => return ⟨[], .error e⟩
      | .ok _ => return ⟨[], .ok (.unchanged, ledger.record t.rel digest)⟩
    else
      -- the warning is given whether or not the file is replaced then
      let warnings :=
        if wasModified current (ledger.digest? t.rel) then [lostChanges t.path] else []
      if dryRun then return ⟨warnings, .ok (.wouldWrite, ledger)⟩
      else
        match ← place t.path text t.file.executable with
        | .error e => return ⟨warnings, .error e⟩
        | .ok _ => return ⟨warnings, .ok (.written, ledger.record t.rel digest)⟩

/-- Writes one file unless it belongs to its editor. -/
def writeUnlessKept (t : Target) (dryRun : Bool) (ledger : Ledger) :
    m (Logged (Outcome × Ledger)) := do
  if ← isKept t then return ⟨[], .ok (.skipped, ledger)⟩ else writeTarget t dryRun ledger

def writeTargets (dryRun : Bool) :
    List Target → Ledger → m (Logged (List (Outcome × String) × Ledger))
  | [], ledger => return ⟨[], .ok ([], ledger)⟩
  | t :: rest, ledger => do
    let first ← writeUnlessKept t dryRun ledger
    match first.result with
    | .error e => return ⟨first.warnings, .error e⟩
    | .ok (outcome, ledger) =>
      let more ← writeTargets dryRun rest ledger
      return ⟨first.warnings ++ more.warnings,
        more.result.map fun (outcomes, ledger) => ((outcome, t.path) :: outcomes, ledger)⟩

/-- Writes generated files under a root and answers what became of each. A dry run only says what
    would become of them. -/
def write (files : List GeneratedFile) (root moduleRoot : String) (dryRun : Bool) (now : Instant) :
    m (Logged (List (Outcome × String))) := do
  match ← loadLedger root now with
  | .error e => return ⟨[], .error e⟩
  | .ok ledger =>
    match files.mapM (target root moduleRoot) with
    | .error e => return ⟨[], .error e⟩
    | .ok targets =>
      let run ← writeTargets dryRun targets ledger
      match run.result with
      -- what has been written stays, but nothing is recorded
      | .error e => return ⟨run.warnings, .error e⟩
      | .ok (outcomes, ledger) =>
        if dryRun then return ⟨run.warnings, .ok outcomes⟩
        else
          match ← saveLedger root { ledger with generatedAt := now } with
          | .error e => return ⟨run.warnings, .error e⟩
          | .ok _ => return ⟨run.warnings, .ok outcomes⟩

end Scaffold.Output
