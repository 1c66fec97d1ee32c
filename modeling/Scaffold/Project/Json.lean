import Scaffold.Project.Basic
import Scaffold.Json.Basic

/-! Projects as JSON objects, the data that templates are rendered against. The fields stand in the
    order of their names. -/

namespace Scaffold

def optionalField (name : String) (value : Option String) : List (String × Json) :=
  match value with
  | some s => [(name, .str s)]
  | none => []

def Phase.toJson (p : Phase) : Json :=
  .obj (optionalField "description" p.description ++
    [("inputs", Json.strs p.inputs), ("name", .str p.name), ("outputs", Json.strs p.outputs)])

def Descriptor.toJson (d : Descriptor) : Json :=
  .obj ([("apiVersion", .str d.apiVersion), ("kind", .str d.kind)] ++
    optionalField "operatorName" d.operatorName ++
    [("phases", .arr (d.phases.map Phase.toJson))])

def Project.toJson (p : Project) : Json :=
  .obj [("config_import_path", .str p.configImportPath), ("group", .str p.group),
    ("kind_lower_camel", .str p.kindLowerCamel), ("module_root", .str p.moduleRoot),
    ("operator_name", .str p.operatorName), ("project", p.descriptor.toJson),
    ("scheduler_import_path", .str p.schedulerImportPath),
    ("types_import_path", .str p.typesImportPath), ("version", .str p.version)]

/-- A phase together with its project: the fields of the phase, those of its worker, and the project
    itself. -/
def Project.phaseJson (p : Project) (phase : Phase) : Json :=
  .obj (optionalField "description" phase.description ++
    [("inputs", Json.strs phase.inputs), ("name", .str phase.name),
     ("outputs", Json.strs phase.outputs), ("project", p.toJson),
     ("worker_import_path", .str (p.workerImportPath phase)),
     ("worker_package", .str phase.workerPackage)])

end Scaffold
