import Scaffold.Descriptor.Check
import Scaffold.Yaml.Decode

/-! Reading descriptors from YAML. Keys that a descriptor does not have are passed over. -/

namespace Scaffold

open Yaml Decode

/-- The fields of a phase that have been read. -/
structure PhaseFields where
  name : Option String
  description : Option (Option String)
  inputs : Option (List String)
  outputs : Option (List String)

namespace PhaseFields

def empty : PhaseFields := ⟨none, none, none, none⟩

def field (name : String) : Option (Path → Node → PhaseFields → Decode PhaseFields) :=
  if name = "name" then some fun p n f => do return { f with name := some (← text p n) }
  else if name = "description" then
    some fun p n f => do return { f with description := some (← optional text p n) }
  else if name = "inputs" then
    some fun p n f => do return { f with inputs := some (← list text p n) }
  else if name = "outputs" then
    some fun p n f => do return { f with outputs := some (← list text p n) }
  else none

/-- The phase; only its name must be given. -/
def finish (f : PhaseFields) : Except Problem Phase :=
  match f.name with
  | none => .error (.missingField "name")
  | some name => .ok ⟨name, f.description.getD none, f.inputs.getD [], f.outputs.getD []⟩

end PhaseFields

def Phase.decoder : Decoder Phase :=
  record "struct Phase" PhaseFields.field .empty PhaseFields.finish

structure DescriptorFields where
  apiVersion : Option String
  kind : Option String
  operatorName : Option (Option String)
  phases : Option (List Phase)

namespace DescriptorFields

def empty : DescriptorFields := ⟨none, none, none, none⟩

def field (name : String) : Option (Path → Node → DescriptorFields → Decode DescriptorFields) :=
  if name = "apiVersion" then
    some fun p n f => do return { f with apiVersion := some (← text p n) }
  else if name = "kind" then some fun p n f => do return { f with kind := some (← text p n) }
  else if name = "operatorName" then
    some fun p n f => do return { f with operatorName := some (← optional text p n) }
  else if name = "phases" then
    some fun p n f => do return { f with phases := some (← list Phase.decoder p n) }
  else none

/-- The descriptor; `apiVersion` and `kind` must be given. -/
def finish (f : DescriptorFields) : Except Problem Descriptor :=
  match f.apiVersion, f.kind with
  | none, _ => .error (.missingField "apiVersion")
  | some _, none => .error (.missingField "kind")
  | some apiVersion, some kind =>
    .ok ⟨apiVersion, kind, f.operatorName.getD none, f.phases.getD []⟩

end DescriptorFields

namespace Descriptor

def decoder : Decoder Descriptor :=
  record "struct ProjectDescriptor" DescriptorFields.field .empty DescriptorFields.finish

/-- The descriptor in YAML bytes; nothing is checked beyond its shape. -/
def parse (bytes : ByteArray) : Except Malformed Descriptor :=
  match decodeBytes decoder bytes with
  | .ok d => .ok d
  | .error e => .error (.document e)

end Descriptor

end Scaffold
