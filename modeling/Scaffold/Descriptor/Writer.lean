import Scaffold.Descriptor.Basic
import Scaffold.Yaml.Data

/-! Writing descriptors as YAML. -/

namespace Scaffold

open Yaml

def Phase.toData (p : Phase) : Data :=
  .record ([("name", .text p.name)] ++ Data.field? "description" (p.description.map .text) ++
    [("inputs", Data.texts p.inputs), ("outputs", Data.texts p.outputs)])

def Descriptor.toFields (d : Descriptor) : List (String × Data) :=
  [("apiVersion", .text d.apiVersion), ("kind", .text d.kind)] ++
    Data.field? "operatorName" (d.operatorName.map .text) ++
    [("phases", .list (d.phases.map Phase.toData))]

def Descriptor.toYaml (d : Descriptor) : String := Data.document d.toFields

end Scaffold
