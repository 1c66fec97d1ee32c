import Scaffold.Template.Failure

/-! What a template is rendered against: variables, and functions and filters by name. -/

namespace Scaffold.Template

abbrev Arguments := List (String × Json)

/-- The functions and filters that a context provides, in the order of their names. A refusal is a
    message. -/
structure FunctionTable where
  functions : List (String × (Arguments → Except String Json))
  filters : List (String × (Json → Except String Json))

structure Context where
  bindings : List (String × Json)
  table : FunctionTable

namespace FunctionTable

def call? (t : FunctionTable) (name : String) (args : Arguments) : Option (Except String Json) :=
  (t.functions.lookup name).map fun f => f args

def functionNames (t : FunctionTable) : List String := t.functions.map Prod.fst

def filterNames (t : FunctionTable) : List String := t.filters.map Prod.fst

end FunctionTable

end Scaffold.Template
