import Scaffold.CommandLine.PhaseArgument

/-! Parameters of a command, and what can be wrong with what is given for them. -/

namespace Scaffold.CommandLine

/-- What a value has to be. -/
inductive ValueKind where
  | text
  /-- not empty -/
  | path
  /-- with a name -/
  | phase
  deriving DecidableEq, Repr

/-- How a parameter is given. -/
inductive ParameterForm where
  | flag
  | help
  | version
  | option (kind : ValueKind) (repeats : Bool)
  | positional (kind : ValueKind)
  deriving DecidableEq, Repr

structure Parameter where
  name : String
  short : Option Char
  form : ParameterForm
  deriving DecidableEq, Repr

def Parameter.valueName (p : Parameter) : String :=
  String.ofList (p.name.toList.map fun c => if c = '-' then '_' else c.toUpper)

def Parameter.display (p : Parameter) : String :=
  match p.form with
  | .flag | .help | .version => "--" ++ p.name
  | .option _ _ => "--" ++ p.name ++ " <" ++ p.valueName ++ ">"
  | .positional _ => "[" ++ p.valueName ++ "]"

/-- What is wrong with a command line. -/
inductive UsageError where
  | unexpectedArgument (text : String)
  | unknownCommand (name : String)
  | noCommand
  | noValue (parameter : String)
  | badValue (value parameter reason : String)
  | repeated (parameter : String)
  | unneededValue (value parameter : String)
  | missing (parameters : List String)
  deriving DecidableEq, Repr

def UsageError.message : UsageError → String
  | .unexpectedArgument text => "unexpected argument '" ++ text ++ "' found"
  | .unknownCommand name => "unrecognized subcommand '" ++ name ++ "'"
  | .noCommand => "'pilot' requires a subcommand but one was not provided"
  | .noValue parameter => "a value is required for '" ++ parameter ++ "' but none was supplied"
  | .badValue value parameter reason =>
    "invalid value '" ++ value ++ "' for '" ++ parameter ++ "': " ++ reason
  | .repeated parameter => "the argument '" ++ parameter ++ "' cannot be used multiple times"
  | .unneededValue value parameter =>
    "unexpected value '" ++ value ++ "' for '" ++ parameter ++ "' found; no more were expected"
  | .missing parameters =>
    "the following required arguments were not provided:"
      ++ String.join (parameters.map fun p => "\n  " ++ p)

/-- Why a command line does not lead to a command. -/
inductive Stop where
  | help
  | version
  /-- there are no arguments -/
  | nothing
  | misuse (e : UsageError)
  deriving DecidableEq, Repr

/-- What is wrong with a value for a parameter. -/
def ValueKind.check (kind : ValueKind) (p : Parameter) (value : String) : Except Stop Unit :=
  match kind with
  | .text => .ok ()
  | .path => if value.isEmpty then .error (.misuse (.noValue p.display)) else .ok ()
  | .phase =>
    match PhaseArgument.parse? value with
    | some _ => .ok ()
    | none =>
      .error (.misuse (.badValue value p.display ("phase '" ++ value ++ "' has no name")))

end Scaffold.CommandLine
