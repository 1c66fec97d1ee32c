import Scaffold.CommandLine.Run
import Std.Time.DateTime.Timestamp

/-! The program on the disk of the computer. -/

namespace Scaffold

open Disk (Access Failure)

/-- The number that an error carries. -/
def errorCode? : IO.Error → Option UInt32
  | .alreadyExists _ n _ | .otherError n _ | .resourceBusy n _ | .resourceVanished n _
  | .unsupportedOperation n _ | .hardwareFault n _ | .unsatisfiedConstraints n _
  | .illegalOperation n _ | .protocolError n _ | .timeExpired n _ | .interrupted _ n _
  | .noFileOrDirectory _ n _ | .invalidArgument _ n _ | .permissionDenied _ n _
  | .resourceExhausted _ n _ | .inappropriateType _ n _ | .noSuchThing _ n _ => some n
  | .unexpectedEof | .userError _ => none

/-- The number that the system gives an error; some operations carry its negative. -/
def errorNumber? (e : IO.Error) : Option UInt32 :=
  (errorCode? e).map fun n => if n < 0x80000000 then n else 0 - n

/-- The failure that an error of the system is. -/
def failureOf (e : IO.Error) : Failure :=
  match errorNumber? e with
  | some 2 => .notFound
  | some 17 => .exists
  | some 20 => .notDirectory
  | some 21 => .isDirectory
  | some 22 => .invalidArgument
  | some 36 => .nameTooLong
  | some 39 => .notEmpty
  | _ => .other (toString e)

def attempt {α : Type} (operation : IO α) : IO (Except Failure α) := do
  match ← operation.toBaseIO with
  | .ok a => return .ok a
  | .error e => return .error (failureOf e)

/-- Whether a path of the computer can be opened. -/
def opens (path : String) : IO Bool := do
  match ← attempt (IO.FS.Handle.mk path .read) with
  | .ok _ => return true
  | .error _ => return false

/-- What a path of the computer leads to; only in a directory can `.` be opened. -/
def kindOnDisk? (path : String) : IO (Option EntryKind) := do
  if ← opens (Path.join path ".") then return some .directory
  else if ← opens path then return some .file
  else return none

/-- The rights of a file that everyone may run. -/
def executableRights : IO.FileRight :=
  { user := ⟨true, true, true⟩, group := ⟨true, false, true⟩, other := ⟨true, false, true⟩ }

instance : Access IO where
  kind? path := kindOnDisk? path
  read path := attempt (IO.FS.readBinFile path)
  write path bytes := attempt (IO.FS.writeBinFile path bytes)
  makeDir path := attempt (IO.FS.createDir path)
  rename source target := attempt (IO.FS.rename source target)
  remove path := attempt (IO.FS.removeFile path)
  makeExecutable path := attempt (IO.setAccessRights path executableRights)
  canonical path := attempt do return toString (← IO.FS.realPath path)

def currentInstant : IO Instant := do
  let t ← Std.Time.Timestamp.now
  match Instant.ofParts? t.val.second.val t.val.nano.val.toNat with
  | some now => return now
  | none => throw (IO.userError "the time is out of range")

end Scaffold

def main (args : List String) : IO UInt32 := do
  let home ← IO.getEnv "HOME"
  let env : Scaffold.CommandLine.Environment :=
    ⟨home.filter fun h => !h.isEmpty, ← IO.getEnv "GOPATH", ← IO.getEnv "PILOT_TEMPLATES"⟩
  let report ← Scaffold.CommandLine.run args env (← Scaffold.currentInstant)
  (← IO.getStdout).putStr report.stdout
  (← IO.getStderr).putStr report.stderr
  return report.code.toUInt32
