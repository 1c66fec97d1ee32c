import Scaffold.Descriptor.Reader
import Scaffold.Disk.Failure
import Scaffold.Naming.Plural

/-! Projects: a descriptor placed at a module root, with every name that is computed from both.
    Import paths have slashes on every system. -/

namespace Scaffold

open Text

inductive RootError where
  | unresolved (dir reason : String)
  | empty (value : String)

def RootError.message : RootError → String
  | .unresolved dir reason => "cannot resolve module root for " ++ dir ++ ": " ++ reason
  | .empty value => "module root '" ++ value ++ "' is empty"

inductive LoadError where
  | io (path : String) (failure : Disk.Failure)
  | malformed (e : Malformed)
  | root (e : RootError)

def LoadError.message : LoadError → String
  | .io path failure => "failed to read descriptor at " ++ path ++ ": " ++ failure.message
  | .malformed e => "malformed descriptor: " ++ e.message
  | .root e => e.message

/-- A descriptor with all that templates need to know beside it. -/
structure Project where
  descriptor : Descriptor
  moduleRoot : String
  group : String
  version : String
  typesImportPath : String
  schedulerImportPath : String
  configImportPath : String
  kindLowerCamel : String
  operatorName : String
  deriving DecidableEq, Repr, Inhabited

def lastSegment (s : List Char) : List Char := (splitOn '/' s).getLast?.getD []

/-- The service name of a project that gives none: the last segment of its module root. -/
def defaultOperatorName (moduleRoot kind : String) : String :=
  match lastSegment moduleRoot.toList with
  | [] => Naming.kebabCase kind ++ "-operator"
  | name => String.ofList name

namespace Project

/-- The project of a descriptor at a module root, which may have blanks around it and slashes at its
    end. -/
def derive (d : Descriptor) (moduleRoot : String) : Except LoadError Project :=
  match splitApiVersion? d.apiVersion with
  | none => .error (.malformed (.apiVersion d.apiVersion))
  | some (group, version) =>
    match dropEndWhile (· = '/') (trim moduleRoot.toList) with
    | [] => .error (.root (.empty moduleRoot))
    | trimmed =>
      let root := String.ofList trimmed
      let plural := String.ofList (lowercase (Naming.pluralize d.kind).toList)
      .ok {
        descriptor := d
        moduleRoot := root
        group := group
        version := version
        typesImportPath := root ++ "/pkg/apis/" ++ plural ++ "/" ++ version
        schedulerImportPath := root ++ "/pkg/scheduler"
        configImportPath := root ++ "/pkg/config"
        kindLowerCamel := Naming.lowerCamel d.kind
        operatorName := d.operatorName.getD (defaultOperatorName root d.kind) }

def workerImportPath (p : Project) (phase : Phase) : String :=
  p.moduleRoot ++ "/pkg/workers/" ++ phase.workerPackage

/-- The first phase of that name. -/
def phase? (p : Project) (name : String) : Option Phase := p.descriptor.phases.find? (·.name = name)

/-- Loads a project from YAML bytes. The descriptor is checked before the module root is asked
    for. -/
def load (bytes : ByteArray) (moduleRoot : Except RootError String) : Except LoadError Project := do
  let d ← (Descriptor.parse bytes).mapError .malformed
  d.validate.mapError .malformed
  let root ← moduleRoot.mapError .root
  derive d root

end Project

end Scaffold
