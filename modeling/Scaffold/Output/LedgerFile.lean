import Scaffold.Disk.Access
import Scaffold.Ledger.Basic
import Scaffold.Output.Failure

/-! The file in which an output root keeps its ledger. -/

namespace Scaffold.Output

open Disk (Access)

def ledgerDir (root : String) : String := Path.join root ".pilot"

def ledgerPath (root : String) : String := Path.join (ledgerDir root) "hashes.json"

/-- The file that becomes the ledger once it is complete. -/
def ledgerDraftPath (root : String) : String := Path.join (ledgerDir root) "hashes.json.tmp"

variable {m : Type → Type} [Monad m] [Access m]

/-- The ledger of a root, empty if none is recorded. -/
def loadLedger (root : String) (now : Instant) : m (Except Failure Ledger) := do
  let path := ledgerPath root
  if !(← Disk.isThere path) then return .ok (.empty now)
  match ← Disk.readText path with
  | .error e => return .error (.io path e)
  | .ok text =>
    match Ledger.parse? text with
    | some ledger => return .ok ledger
    | none => return .error .badLedger

def saveLedger (root : String) (ledger : Ledger) : m (Except Failure Unit) := do
  match ← Disk.makeDirs (ledgerDir root) with
  | .error e => return .error (.io (ledgerDir root) e)
  | .ok _ =>
    match ← Access.write (ledgerDraftPath root) (Text.encode ledger.toText) with
    | .error e => return .error (.io (ledgerDraftPath root) e)
    | .ok _ =>
      match ← Access.rename (ledgerDraftPath root) (ledgerPath root) with
      | .error e => return .error (.io (ledgerPath root) e)
      | .ok _ => return .ok ()

end Scaffold.Output
