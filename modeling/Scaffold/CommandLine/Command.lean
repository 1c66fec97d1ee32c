import Scaffold.CommandLine.Arguments

/-! The commands of the program and their arguments. -/

namespace Scaffold.CommandLine

/-- What every command on an existing descriptor can be told. -/
structure ProjectOptions where
  descriptor : String
  moduleRoot : Option String
  /-- a directory whose templates go before those that come with the program -/
  templates : Option String
  out : Option String
  deriving DecidableEq, Repr

inductive Command where
  /-- writes a descriptor -/
  | init (dir : String) (descriptor : Descriptor)
  /-- lists the files of a project -/
  | plan (o : ProjectOptions)
  /-- writes the files -/
  | generate (o : ProjectOptions) (dryRun : Bool)
  /-- shows what writing would change -/
  | diff (o : ProjectOptions)
  /-- shows the deployment manifest -/
  | deploy (o : ProjectOptions)
  deriving DecidableEq, Repr

def commonParameters : List Parameter :=
  [⟨"verbose", some 'v', .flag⟩, ⟨"help", some 'h', .help⟩]

def rootParameters : List Parameter := commonParameters ++ [⟨"version", some 'V', .version⟩]

/-- The parameters of a command on an existing descriptor. -/
def projectParameters : List Parameter :=
  [⟨"descriptor", some 'd', .option .path false⟩, ⟨"module-root", none, .option .text false⟩,
   ⟨"templates", none, .option .path false⟩, ⟨"out", some 'o', .option .path false⟩]
    ++ commonParameters

def apiVersionParameter : Parameter := ⟨"api-version", none, .option .text false⟩

def kindParameter : Parameter := ⟨"kind", none, .option .text false⟩

def initParameters : List Parameter :=
  [apiVersionParameter, kindParameter, ⟨"operator-name", none, .option .text false⟩,
   ⟨"phase", some 'p', .option .phase true⟩] ++ commonParameters

def dirParameter : Parameter := ⟨"dir", none, .positional .path⟩

def commandNames : List String := ["init", "plan", "generate", "diff", "deploy", "help"]

def initOf (args : List String) : Except Stop Command := do
  let m ← matchArgs initParameters [dirParameter] false .empty args
  match m.value? "api-version", m.value? "kind" with
  | some apiVersion, some kind =>
    return .init ((m.value? "dir").getD ".")
      ⟨apiVersion, kind, m.value? "operator-name",
        (m.values "phase").filterMap PhaseArgument.parse?⟩
  | apiVersion, kind =>
    throw (.misuse (.missing
      ((if apiVersion.isNone then [apiVersionParameter.display] else [])
        ++ if kind.isNone then [kindParameter.display] else [])))

/-- The options of a command on an existing descriptor. The environment may name the directory of
    templates, if the arguments do not. -/
def projectOptions (params : List Parameter) (templatesVariable : Option String)
    (args : List String) : Except Stop (ProjectOptions × Matched) := do
  let m ← matchArgs params [] false .empty args
  let m ← match m.has "templates", templatesVariable with
    | false, some value => m.takeLong params "templates" (some value)
    | _, _ => pure m
  return (⟨(m.value? "descriptor").getD "pilot.yaml", m.value? "module-root", m.value? "templates",
    m.value? "out"⟩, m)

def commandOf (name : String) (templatesVariable : Option String) (args : List String) :
    Except Stop Command := do
  if name = "init" then initOf args
  else if name = "generate" then
    let params := projectParameters ++ [⟨"dry-run", none, .flag⟩]
    let (o, m) ← projectOptions params templatesVariable args
    return .generate o (m.has "dry-run")
  else
    let (o, _) ← projectOptions projectParameters templatesVariable args
    return if name = "plan" then .plan o else if name = "diff" then .diff o else .deploy o

/-- What the arguments of `help` ask for: help on a command, if it is one. -/
def helpOn : List String → Stop
  | [] => .help
  | name :: rest =>
    if !commandNames.contains name then .misuse (.unknownCommand name)
    else match rest with
      | [] => .help
      | other :: _ => .misuse (.unknownCommand other)

def parseFrom (templatesVariable : Option String) :
    Bool → Matched → List String → Except Stop Command
  | _, m, [] => .error (if m.given.isEmpty then .nothing else .misuse .noCommand)
  | divided, m, arg :: rest =>
    if divided then
      .error (.misuse (if commandNames.contains arg then .unexpectedArgument arg
        else .unknownCommand arg))
    else if arg = "help" then .error (helpOn rest)
    else if commandNames.contains arg then commandOf arg templatesVariable rest
    else match shape arg with
      | .divider => parseFrom templatesVariable true m rest
      | .long name attached => do
        parseFrom templatesVariable false (← m.takeLong rootParameters name attached) rest
      | .short names => do
        parseFrom templatesVariable false (← m.takeShort rootParameters names) rest
      | .plain => .error (.misuse (.unknownCommand arg))

/-- The command of a command line; `PILOT_TEMPLATES` has the value `templatesVariable`. -/
def parse (args : List String) (templatesVariable : Option String) : Except Stop Command :=
  parseFrom templatesVariable false .empty args

end Scaffold.CommandLine
