import Scaffold.Disk.Failure
import Scaffold.Template.Shipped

/-! Where template sources come from. A store answers an identifier with a source, perhaps after
    looking at the disk, which is why it runs in a monad. In identifiers `\` stands for `/`. -/

namespace Scaffold.Template

inductive StoreError where
  | notFound (id : String)
  | io (id path : String) (failure : Disk.Failure)
  deriving DecidableEq, Repr

def StoreError.message : StoreError → String
  | .notFound id => "template '" ++ id ++ "' not found"
  | .io id path failure =>
    "failed to read template '" ++ id ++ "' at " ++ path ++ ": " ++ failure.message

abbrev Store (m : Type → Type) := String → m (Except StoreError String)

/-- The form of an identifier under which sources are kept. -/
def normalId (id : String) : String :=
  String.ofList (id.toList.map fun c => if c = '\\' then '/' else c)

namespace Store

variable {m : Type → Type} [Monad m]

/-- The store of these sources, whose identifiers are in normal form. -/
def ofSources (sources : List (String × String)) : Store m := fun id =>
  match sources.lookup (normalId id) with
  | some source => pure (.ok source)
  | none => pure (.error (.notFound (normalId id)))

/-- The store after these insertions, the last of which counts for an identifier. -/
def ofInsertions (insertions : List (String × String)) : Store m :=
  ofSources (insertions.map fun (id, source) => (normalId id, source)).reverse

def shipped : Store m := ofSources Shipped.sources

/-- Looks into `fallback` for what `primary` does not have; other errors of `primary` stay. -/
def orElse (primary fallback : Store m) : Store m := fun id => do
  match ← primary id with
  | .error (.notFound _) => fallback id
  | answer => pure answer

end Store

end Scaffold.Template
