import Scaffold.CommandLine.Command
import Scaffold.CommandLine.Report
import Scaffold.CommandLine.Table
import Scaffold.Descriptor.Writer
import Scaffold.GoModule.Detect
import Scaffold.Manifest.Writer
import Scaffold.Output.Compare
import Scaffold.Output.Write
import Scaffold.Template.Directory

/-! Running commands. -/

namespace Scaffold

open Disk (Access)

def Project.loadFile {m : Type → Type} [Monad m] [Access m] (path : String)
    (moduleRoot : m (Except RootError String)) : m (Except LoadError Project) := do
  match ← Access.read path with
  | .error e => return .error (.io path e)
  | .ok bytes => return Project.load bytes (← moduleRoot)

namespace CommandLine

/-- What the program takes from its environment. -/
structure Environment where
  home : Option String
  goPath : Option String
  templates : Option String
  deriving DecidableEq, Repr

/-- What a run has shown when it ends well, and the warnings on the way there. -/
structure Finished where
  warnings : List String
  result : Except Trouble String

def Finished.shown (text : String) : Finished := ⟨[], .ok text⟩

def Finished.failed (what : String) (causes : List String) : Finished := ⟨[], .error ⟨what, causes⟩⟩

def version : String := Template.Shipped.version

variable {m : Type → Type} [Monad m] [Access m]

/-! ### Projects -/

/-- The directory of the descriptor, from the root on. -/
def projectDir (o : ProjectOptions) : m (Except Trouble String) := do
  let dir := match Path.parent? o.descriptor with
    | some parent => if parent.isEmpty then "." else parent
    | none => "."
  match ← Access.canonical dir with
  | .ok path => return .ok path
  | .error e => return .error ⟨"cannot resolve directory '" ++ dir ++ "'", [e.message]⟩

def loadProject (o : ProjectOptions) (env : Environment) : m (Except Trouble Project) := do
  match ← projectDir o with
  | .error t => return .error t
  | .ok dir =>
    let root : m (Except RootError String) := match o.moduleRoot with
      | some root => return .ok root
      | none => GoModule.moduleRoot dir (GoModule.goPathOf env.goPath env.home)
    match ← Project.loadFile o.descriptor root with
    | .ok p => return .ok p
    | .error e =>
      return .error ⟨"failed to load '" ++ o.descriptor ++ "'", loadCauses e⟩

def homeTemplates (home : String) : String := Path.join (Path.join home ".pilot") "templates"

/-- The templates that the options ask for. -/
def templateStore (o : ProjectOptions) (env : Environment) :
    m (Except Trouble (Template.Store m)) := do
  let layered (dir : String) : Template.Store m :=
    (Template.Store.ofDirectory dir).orElse Template.Store.shipped
  match o.templates with
  | some dir =>
    if ← Disk.isDirectory dir then return .ok (layered dir)
    else return .error (.plain ("template directory '" ++ dir ++ "' does not exist"))
  | none =>
    match env.home with
    | some home =>
      if ← Disk.isDirectory (homeTemplates home) then return .ok (layered (homeTemplates home))
      else return .ok .shipped
    | none => return .ok .shipped

/-- A project with its generated files and the root that they belong under. -/
structure Session where
  project : Project
  files : List GeneratedFile
  root : String

/-- Loads a project and generates its files. -/
def openSession (o : ProjectOptions) (env : Environment) : m (Except Trouble Session) := do
  match ← loadProject o env with
  | .error t => return .error t
  | .ok project =>
    match ← templateStore o env with
    | .error t => return .error t
    | .ok store =>
      let root ← match o.out with
        | some out => pure (.ok out)
        | none => projectDir o
      match root with
      | .error t => return .error t
      | .ok root =>
        match ← project.generate store with
        | .error e => return .error ⟨"generation failed", generateCauses e⟩
        | .ok files => return .ok ⟨project, files, root⟩

/-! ### Commands -/

/-- Writes a descriptor, unless there is one already. -/
def runInit (dir : String) (d : Descriptor) : m Finished := do
  match d.validate with
  | .error e => return .failed "invalid descriptor" (malformedCauses e)
  | .ok _ =>
    let path := Path.join dir "pilot.yaml"
    if ← Disk.isThere path then
      return .failed ("'" ++ path ++ "' already exists; refusing to overwrite") []
    match ← Disk.makeDirs dir with
    | .error e => return .failed ("cannot create '" ++ dir ++ "'") [e.message]
    | .ok _ =>
      match ← Access.write path (Text.encode d.toYaml) with
      | .error e => return .failed ("failed to write '" ++ path ++ "'") [e.message]
      | .ok _ =>
        return .shown ("✓ Wrote " ++ path ++ "\n  " ++ d.kind ++ " " ++ d.apiVersion ++ " with "
          ++ toString d.phases.length ++ " phase(s)\n")

def planRow (moduleRoot : String) (f : PlannedFile) : List String :=
  [f.relativePath moduleRoot, f.templateId, f.scope.describe,
   if f.skipIfExists then "keep" else "overwrite"]

def planText (p : Project) : String :=
  let files := p.plan
  let idle := (p.descriptor.phases.filter fun phase => !phase.generatesFiles).map Phase.name
  "pilot v" ++ version ++ " | " ++ p.descriptor.kind ++ " " ++ p.descriptor.apiVersion ++ " | "
    ++ p.moduleRoot ++ " | " ++ toString files.length ++ " files\n"
    ++ Table.render ["file", "template", "scope", "if exists"] (files.map (planRow p.moduleRoot))
    ++ if idle.isEmpty then ""
      else "No worker files for phases without inputs or outputs: "
        ++ String.intercalate ", " idle ++ "\n"

def runPlan (o : ProjectOptions) (env : Environment) : m Finished := do
  match ← loadProject o env with
  | .error t => return ⟨[], .error t⟩
  | .ok p => return .shown (planText p)

def outcomeMark : Output.Outcome → String
  | .written => "✎"
  | .wouldWrite => "~"
  | .unchanged => "·"
  | .skipped => "="

def outcomesText (moduleRoot : String) (outcomes : List (Output.Outcome × String)) (dryRun : Bool) :
    String :=
  let count (wanted : List Output.Outcome) : Nat :=
    (outcomes.filter fun (outcome, _) => wanted.contains outcome).length
  let written := count [.written, .wouldWrite]
  let summary :=
    if written = 0 then "' — nothing to do\n"
    else "' generated (" ++ toString written ++ " written, " ++ toString (count [.unchanged])
      ++ " unchanged, " ++ toString (count [.skipped]) ++ " kept)\n"
  (if dryRun then "[dry-run] " else "") ++ "✓ '" ++ moduleRoot ++ summary
    ++ String.join (outcomes.map fun (outcome, path) =>
      "  " ++ outcomeMark outcome ++ "  " ++ path ++ "\n")

def runGenerate (o : ProjectOptions) (dryRun : Bool) (env : Environment) (now : Instant) :
    m Finished := do
  match ← openSession o env with
  | .error t => return ⟨[], .error t⟩
  | .ok s =>
    let run ← Output.write s.files s.root s.project.moduleRoot dryRun now
    match run.result with
    | .error e =>
      return ⟨run.warnings, .error ⟨"failed to write under '" ++ s.root ++ "'", outputCauses e⟩⟩
    | .ok outcomes =>
      return ⟨run.warnings, .ok (outcomesText s.project.moduleRoot outcomes dryRun)⟩

/-- The text of differences, each of which ends its last line. -/
def diffsText (root : String) (diffs : List Output.FileDiff) : String :=
  if diffs.isEmpty then "No differences under '" ++ root ++ "'.\n"
  else String.join (diffs.map fun d =>
    if d.unified.toList.getLast? = some '\n' then d.unified else d.unified ++ "\n")

def runDiff (o : ProjectOptions) (env : Environment) : m Finished := do
  match ← openSession o env with
  | .error t => return ⟨[], .error t⟩
  | .ok s =>
    match ← Output.compare s.root s.project.moduleRoot s.files with
    | .error e => return .failed "diff failed" (outputCauses e)
    | .ok diffs => return .shown (diffsText s.root diffs)

def runDeploy (o : ProjectOptions) (env : Environment) : m Finished := do
  match ← loadProject o env with
  | .error t => return ⟨[], .error t⟩
  | .ok p => return .shown (Manifest.ofProject p).toYaml

def Command.run (c : Command) (env : Environment) (now : Instant) : m Finished :=
  match c with
  | .init dir d => runInit dir d
  | .plan o => runPlan o env
  | .generate o dryRun => runGenerate o dryRun env now
  | .diff o => runDiff o env
  | .deploy o => runDeploy o env

def helpText : String :=
  String.join ([
    "Generate operator scaffolding from a project descriptor",
    "",
    "Usage: pilot [OPTIONS] <COMMAND>",
    "",
    "Commands:",
    "  init      Write a starter pilot.yaml",
    "  plan      List the files a generation run would produce",
    "  generate  Render and write the scaffold",
    "  diff      Show unified diff of what generate would write",
    "  deploy    Print the operator's Kubernetes Deployment manifest"].map (· ++ "\n"))

/-- What the program shows when there is no command to run. -/
def Stop.report : Stop → Report
  | .help => ⟨0, helpText, ""⟩
  | .version => ⟨0, "pilot " ++ CommandLine.version ++ "\n", ""⟩
  | .nothing => ⟨2, "", helpText⟩
  | .misuse e => ⟨2, "", "error: " ++ e.message ++ "\n"⟩

def warningsText (warnings : List String) : String :=
  String.join (warnings.map fun w => " WARN " ++ w ++ "\n")

def run (args : List String) (env : Environment) (now : Instant) : m Report := do
  match parse args env.templates with
  | .error stop => return stop.report
  | .ok c =>
    let finished ← c.run env now
    match finished.result with
    | .ok text => return ⟨0, text, warningsText finished.warnings⟩
    | .error t => return ⟨1, "", warningsText finished.warnings ++ t.text⟩

end CommandLine

end Scaffold
