import Scaffold.Descriptor.Basic
import Scaffold.Text.Blank
import Scaffold.Text.Split
import Scaffold.Yaml.Failure

/-! What a descriptor must satisfy before anything is derived from it. The first violation is
    reported. -/

namespace Scaffold

open Text

inductive Malformed where
  | document (failure : Yaml.Failure)
  | apiVersion (value : String)
  | emptyKind
  | invalidKind (value : String)
  | emptyPhaseName (index : Nat)
  | duplicatePhase (name : String)
  | invalidPhaseName (name : String)
  | packageCollision (first second package : String)

def Malformed.message : Malformed → String
  | .document failure => failure.message
  | .apiVersion value => "apiVersion '" ++ value ++ "' must be of the form <group>/<version>"
  | .emptyKind => "kind must not be empty"
  | .invalidKind value =>
    "kind '" ++ value ++ "' must start with an ASCII letter followed by ASCII letters or digits"
  | .emptyPhaseName index => "phase at position " ++ toString index ++ " has an empty name"
  | .duplicatePhase name => "phase '" ++ name ++ "' is declared more than once"
  | .invalidPhaseName name => "phase name '" ++ name ++ "' does not produce a valid package name"
  | .packageCollision first second package =>
    "phases '" ++ first ++ "' and '" ++ second ++ "' both map to worker package '" ++ package ++ "'"

/-- An ASCII letter followed by ASCII letters or digits. -/
def isIdentifier : List Char → Bool
  | [] => false
  | c :: rest => c.isAlpha && rest.all Char.isAlphanum

/-- Group and version, which stand on either side of the only slash and are not empty. -/
def splitApiVersion? (apiVersion : String) : Option (String × String) :=
  match splitOn '/' apiVersion.toList with
  | [group, version] =>
    if group.isEmpty || version.isEmpty then none
    else some (String.ofList group, String.ofList version)
  | _ => none

namespace Descriptor

/-- Checks the phases from position `index` on; `claimed` has the worker packages of the earlier
    ones with the names of their phases. -/
def checkPhases (index : Nat) (claimed : List (String × String)) :
    List Phase → Except Malformed Unit
  | [] => .ok ()
  | phase :: rest =>
    if allBlank phase.name.toList then .error (.emptyPhaseName index)
    else if !isIdentifier phase.workerPackage.toList then .error (.invalidPhaseName phase.name)
    else match claimed.lookup phase.workerPackage with
      | some first =>
        if first = phase.name then .error (.duplicatePhase phase.name)
        else .error (.packageCollision first phase.name phase.workerPackage)
      | none => checkPhases (index + 1) (claimed ++ [(phase.workerPackage, phase.name)]) rest

/-- Accepts a descriptor whose `apiVersion` has two parts, whose kind is an identifier and whose
    phases have distinct worker packages that are identifiers. -/
def validate (d : Descriptor) : Except Malformed Unit :=
  match splitApiVersion? d.apiVersion with
  | none => .error (.apiVersion d.apiVersion)
  | some _ =>
    if allBlank d.kind.toList then .error .emptyKind
    else if !isIdentifier d.kind.toList then .error (.invalidKind d.kind)
    else checkPhases 0 [] d.phases

end Descriptor

end Scaffold
