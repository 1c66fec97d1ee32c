import Scaffold.Naming.Plural
import Scaffold.Project.Json
import Scaffold.Template.Context

/-! What the templates of a project can use: the fields of the project or of one phase, functions
    that answer questions about phases by name, and filters that put a text into a naming style. -/

namespace Scaffold

open Template (Context FunctionTable Arguments)

def namingFilters : List (String × (String → String)) :=
  [("kebab_case", Naming.kebabCase), ("lower_camel", Naming.lowerCamel),
   ("package_name", Naming.packageName), ("plural", Naming.pluralize),
   ("snake_case", Naming.snakeCase), ("upper_camel", Naming.upperCamel)]

def textFilter (name : String) (f : String → String) : Json → Except String Json
  | .str s => .ok (.str (f s))
  | v => .error ("filter `" ++ name ++ "` expects a string, got " ++ v.compact)

namespace Project

/-- The questions about a phase. -/
def phaseQueries (p : Project) : List (String × (Phase → Json)) :=
  [("has_inputs", fun phase => .bool phase.hasInputs),
   ("has_outputs", fun phase => .bool phase.hasOutputs),
   ("worker_import_path", fun phase => .str (p.workerImportPath phase)),
   ("worker_package", fun phase => .str phase.workerPackage)]

/-- Puts a question to the phase that the argument `phase` names, else to the current one. Of phases
    with one name the last answers. -/
def ask (p : Project) (current : Option String) (name : String) (query : Phase → Json)
    (args : Arguments) : Except String Json := do
  let phase ← match args.lookup "phase", current with
    | some (.str s), _ => pure s
    | some v, _ => throw ("`" ++ name ++ "`: `phase` must be a string, got " ++ v.compact)
    | none, some s => pure s
    | none, none => throw ("`" ++ name ++ "` requires a `phase` argument")
  match p.descriptor.phases.reverse.find? (·.name = phase) with
  | some found => pure (query found)
  | none => throw ("`" ++ name ++ "`: unknown phase '" ++ phase ++ "'")

/-- The functions and filters, with the phase that a call without `phase` is about. -/
def capabilities (p : Project) (current : Option String) : FunctionTable where
  functions := p.phaseQueries.map fun (name, query) => (name, p.ask current name query)
  filters := namingFilters.map fun (name, f) => (name, textFilter name f)

def context (p : Project) : Context := ⟨p.toJson.fields, p.capabilities none⟩

def phaseContext (p : Project) (phase : Phase) : Context :=
  ⟨(p.phaseJson phase).fields, p.capabilities (some phase.name)⟩

end Project

end Scaffold
