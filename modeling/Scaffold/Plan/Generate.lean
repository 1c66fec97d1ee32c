import Scaffold.Plan.Basic
import Scaffold.Project.Capability
import Scaffold.Template.Output

/-! Generating the planned files of a project: each is rendered for itself, and the first that
    cannot be rendered is the error. -/

namespace Scaffold

/-- A planned file with its content. -/
structure GeneratedFile extends PlannedFile where
  content : String
  deriving DecidableEq, Repr, Inhabited

structure GenerateError where
  output : String
  cause : Template.OutputError

def GenerateError.message (e : GenerateError) : String :=
  "failed to generate " ++ e.output ++ ": " ++ e.cause.message

namespace Project

variable {m : Type → Type} [Monad m]

/-- What the templates of a scope see. A phase is looked up by its name, under which every planned one
    is found. -/
def contextOf (p : Project) : FileScope → Template.Context
  | .project => p.context
  | .phase phase => p.phaseContext ((p.phase? phase.name).getD phase)

def generateFiles (p : Project) (store : Template.Store m) :
    List PlannedFile → m (Except GenerateError (List GeneratedFile))
  | [] => pure (.ok [])
  | f :: rest => do
    match ← Template.output store f.templateId (p.contextOf f.scope) with
    | .error cause => pure (.error ⟨f.outputPath, cause⟩)
    | .ok content =>
      match ← p.generateFiles store rest with
      | .error e => pure (.error e)
      | .ok files => pure (.ok (⟨f, content⟩ :: files))

def generate (p : Project) (store : Template.Store m) :
    m (Except GenerateError (List GeneratedFile)) :=
  p.generateFiles store p.plan

end Project

end Scaffold
