import Scaffold.Project.Basic
import Scaffold.Text.Split

/-! The plan of a project: which files it consists of, where each is placed and which template it
    comes from. The files of the project come first, then those of each phase that has any. -/

namespace Scaffold

/-- What a file is about, which decides what its template sees. -/
inductive FileScope where
  | project
  | phase (phase : Phase)
  deriving DecidableEq, Repr, Inhabited

def FileScope.describe : FileScope → String
  | .project => "project"
  | .phase p => "phase " ++ p.name

structure PlannedFile where
  /-- the path under the import path of the module -/
  outputPath : String
  templateId : String
  /-- the file belongs to its editor once it exists -/
  skipIfExists : Bool
  executable : Bool
  scope : FileScope
  deriving DecidableEq, Repr, Inhabited

namespace PlannedFile

/-- The path inside the module; a path that is not inside stays whole. -/
def relativePath (f : PlannedFile) (moduleRoot : String) : String :=
  match Text.dropStart? (moduleRoot.toList ++ ['/']) f.outputPath.toList with
  | some rest => String.ofList rest
  | none => f.outputPath

end PlannedFile

namespace Project

def projectFiles (p : Project) : List PlannedFile :=
  let file (path id : String) : PlannedFile := ⟨path, id, false, false, .project⟩
  let kept (path id : String) : PlannedFile := ⟨path, id, true, false, .project⟩
  let script (path id : String) : PlannedFile := ⟨path, id, false, true, .project⟩
  [file (p.moduleRoot ++ "/main.go") "code/main.go.tera",
   file (p.schedulerImportPath ++ "/scheduler.go") "code/scheduler.go.tera",
   kept (p.configImportPath ++ "/config.go") "code/config.go.tera",
   file (p.typesImportPath ++ "/doc.go") "code/doc.go.tera",
   file (p.typesImportPath ++ "/phases.go") "code/phases.go.tera",
   file (p.typesImportPath ++ "/register.go") "code/register.go.tera",
   kept (p.typesImportPath ++ "/spec.go") "code/spec.go.tera",
   file (p.typesImportPath ++ "/types.go") "code/types.go.tera",
   file (p.moduleRoot ++ "/build/Dockerfile") "build/Dockerfile.tera",
   script (p.moduleRoot ++ "/build/bin/user_setup") "build/user_setup.tera",
   script (p.moduleRoot ++ "/build/bin/entrypoint") "build/entrypoint.tera"]

/-- The files of a phase: none if it has neither inputs nor outputs. -/
def phaseFiles (p : Project) (phase : Phase) : List PlannedFile :=
  if phase.generatesFiles then
    let package := p.workerImportPath phase
    [⟨package ++ "/parameters.go", "code/parameters.go.tera", false, false, .phase phase⟩,
     ⟨package ++ "/worker.go", "code/worker.go.tera", true, false, .phase phase⟩]
  else []

/-- The files of a project, in the order in which they are generated. -/
def plan (p : Project) : List PlannedFile :=
  p.projectFiles ++ p.descriptor.phases.flatMap p.phaseFiles

end Project

end Scaffold
