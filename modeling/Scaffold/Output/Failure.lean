import Scaffold.Disk.Failure

/-! Why generated files cannot be written or compared, and the wording. -/

namespace Scaffold.Output

inductive Failure where
  /-- a path that does not stay under the root -/
  | unsafePath (path : String)
  | io (path : String) (failure : Disk.Failure)
  /-- the recorded ledger is none -/
  | badLedger
  deriving DecidableEq, Repr

def Failure.message : Failure → String
  | .unsafePath path => "refusing to write '" ++ path ++ "': path must stay under the output root"
  | .io path failure => "I/O error at " ++ path ++ ": " ++ failure.message
  | .badLedger => "hash store JSON error"

end Scaffold.Output
