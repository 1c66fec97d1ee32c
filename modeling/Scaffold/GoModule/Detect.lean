import Scaffold.Disk.Access
import Scaffold.GoModule.Directive
import Scaffold.Project.Basic

/-! The import path of a directory. The nearest `go.mod` in it or around it decides; only where
    there is none does the place under `GOPATH` count. -/

namespace Scaffold.GoModule

open Disk (Access)

/-- What decided on an import path. -/
inductive Source where
  | goMod (file : String)
  | goPath (sourceDir : String)
  deriving DecidableEq, Repr

structure ModuleRoot where
  importPath : String
  source : Source
  deriving DecidableEq, Repr

inductive DetectError where
  | io (failure : Disk.Failure)
  | noDirective (file : String)
  | noModule (path : String)
  deriving DecidableEq, Repr

def DetectError.message : DetectError → String
  | .io failure => "I/O error: " ++ failure.message
  | .noDirective file => "failed to parse " ++ file ++ ": missing module directive"
  | .noModule path =>
    "could not determine module root for '" ++ path ++ "' — no go.mod found and not under GOPATH"

/-- The names of a path under a base, which may be missing. -/
def importPath (base : String) (rel : List Path.Component) : String :=
  let base := if base.isEmpty then [] else [Text.dropEndWhile (· = '/') base.toList]
  String.ofList (Text.joinWith ['/'] (base ++ Path.names rel))

/-- The components of `path` that come after those of `base`. -/
def below? (base path : String) : Option (List Path.Component) :=
  Text.dropStart? (Path.components base) (Path.components path)

/-- The import path of a directory under a source directory of `GOPATH`; the source directory itself
    has none. -/
def underGoPath? (path gopath : String) : Option ModuleRoot :=
  let sourceDir := Path.join gopath "src"
  match below? sourceDir path with
  | none => none
  | some rel =>
    let found := importPath "" rel
    if found.isEmpty then none else some ⟨found, .goPath sourceDir⟩

section
variable {m : Type → Type} [Monad m] [Access m]

/-- What the first `go.mod` in these directories says about `path`. -/
def fromGoMod (path : String) : List String → m (Except DetectError (Option ModuleRoot))
  | [] => return .ok none
  | dir :: rest => do
    let file := Path.join dir "go.mod"
    -- one that is there decides, even if it cannot be read
    if !(← Disk.isThere file) then fromGoMod path rest
    else match ← Disk.readText file with
      | .error failure => return .error (.io failure)
      | .ok content =>
        match directive? content with
        | none => return .error (.noDirective file)
        | some base => return .ok (some ⟨importPath base ((below? dir path).getD []), .goMod file⟩)

def detect (path : String) (gopath : Option String) : m (Except DetectError ModuleRoot) := do
  match ← fromGoMod path (Path.ancestors path) with
  | .error e => return .error e
  | .ok (some found) => return .ok found
  | .ok none =>
    match gopath.bind (underGoPath? path) with
    | some found => return .ok found
    | none => return .error (.noModule path)

/-- The import path of a directory as the module root of a project. -/
def moduleRoot (dir : String) (gopath : Option String) : m (Except RootError String) := do
  match ← detect dir gopath with
  | .ok found => return .ok found.importPath
  | .error e => return .error (.unresolved dir e.message)

end

/-- The directory of Go sources: the first that `GOPATH` lists, or `go` in the home directory. -/
def goPathOf (gopath home : Option String) : Option String :=
  match gopath with
  | some value => if value.isEmpty then inHome else some (firstListed value)
  | none => inHome
where
  inHome : Option String := home.map (Path.join · "go")
  firstListed (value : String) : String :=
    String.ofList ((Text.splitOn ':' value.toList).head?.getD [])

end Scaffold.GoModule
