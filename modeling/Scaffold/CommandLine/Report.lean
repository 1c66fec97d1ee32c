import Scaffold.Output.Failure
import Scaffold.Plan.Generate
import Scaffold.Text.Split

/-! What a run of the program shows, and how it tells of failures: the failure itself, and after it
    the causes, each of which explains the one before. -/

namespace Scaffold.CommandLine

structure Report where
  code : Nat
  stdout : String
  stderr : String
  deriving DecidableEq, Repr

structure Trouble where
  what : String
  causes : List String
  deriving DecidableEq, Repr

def Trouble.plain (what : String) : Trouble := ⟨what, []⟩

def malformedCauses (e : Malformed) : List String :=
  match e with
  | .document failure => [e.message, failure.message]
  | _ => [e.message]

def loadCauses (e : LoadError) : List String :=
  match e with
  | .io _ failure => [e.message, failure.message]
  | .malformed malformed => e.message :: malformedCauses malformed
  | .root _ => [e.message]

def generateCauses (e : GenerateError) : List String :=
  match e.cause with
  | .unavailable (.io _ _ failure) => [e.message, e.cause.message, failure.message]
  | cause => [e.message, cause.message]

def outputCauses (e : Output.Failure) : List String :=
  match e with
  | .io _ failure => [e.message, failure.message]
  | _ => [e.message]

/-- A cause, whose lines after the first are indented to the first. -/
def causeChars (number : Option Nat) (cause : String) : List Char :=
  let mark := match number with
    | some n =>
      let ds := Nat.toDigits 10 n
      List.replicate (5 - ds.length) ' ' ++ ds ++ [':', ' ']
    | none => List.replicate 4 ' '
  '\n' :: mark ++
    Text.joinWith ('\n' :: List.replicate mark.length ' ') (Text.splitOn '\n' cause.toList)

def numbered : Nat → List String → List Char
  | _, [] => []
  | n, cause :: rest => causeChars (some n) cause ++ numbered (n + 1) rest

/-- The text of a failure; several causes are numbered. -/
def Trouble.text (t : Trouble) : String :=
  let causes := match t.causes with
    | [] => []
    | [cause] => causeChars none cause
    | causes => numbered 0 causes
  "Error: " ++ t.what ++ (if t.causes.isEmpty then "" else "\n\nCaused by:")
    ++ String.ofList causes ++ "\n"

end Scaffold.CommandLine
