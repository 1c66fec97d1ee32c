import Scaffold.Naming.Case

/-! Project descriptors: the resource that an operator manages and the phases in which it does
    so. -/

namespace Scaffold

/-- A named processing stage of the generated control loop. -/
structure Phase where
  name : String
  description : Option String
  inputs : List String
  outputs : List String
  deriving DecidableEq, Repr, Inhabited

namespace Phase

def hasInputs (p : Phase) : Bool := !p.inputs.isEmpty

def hasOutputs (p : Phase) : Bool := !p.outputs.isEmpty

/-- Whether the phase gets worker files: one without inputs and outputs contributes nothing. -/
def generatesFiles (p : Phase) : Bool := p.hasInputs || p.hasOutputs

/-- The package, and directory, of the phase's worker: `build-image` becomes `buildimage`. -/
def workerPackage (p : Phase) : String := Naming.packageName p.name

end Phase

structure Descriptor where
  /-- group and version, as in `apps.example.com/v1` -/
  apiVersion : String
  kind : String
  /-- the service name; by default the last segment of the module root -/
  operatorName : Option String
  phases : List Phase
  deriving DecidableEq, Repr, Inhabited

end Scaffold
