/-! Edits: what is done to a run of lines on the way from an old text to a new one. -/

namespace Scaffold.Diff

inductive EditKind where
  | keep
  | delete
  | insert
  | replace
  deriving DecidableEq, Repr

/-- One kind of edit to lines that stand next to each other: where they start in both texts, and how
    many they are in each. -/
structure Edit where
  kind : EditKind
  old : Nat
  oldSize : Nat
  new : Nat
  newSize : Nat
  deriving DecidableEq, Repr

namespace Edit

/-- Lines that stay. -/
def keep (old new size : Nat) : Edit := ⟨.keep, old, size, new, size⟩

/-- Lines that go. -/
def delete (old size new : Nat) : Edit := ⟨.delete, old, size, new, 0⟩

/-- Lines that come. -/
def insert (old new size : Nat) : Edit := ⟨.insert, old, 0, new, size⟩

def isEmpty (e : Edit) : Bool := e.oldSize = 0 && e.newSize = 0

def oldLines {α : Type} (e : Edit) (lines : List α) : List α := (lines.drop e.old).take e.oldSize

def newLines {α : Type} (e : Edit) (lines : List α) : List α := (lines.drop e.new).take e.newSize

def up (e : Edit) (n : Nat) : Edit := { e with old := e.old - n, new := e.new - n }

def down (e : Edit) (n : Nat) : Edit := { e with old := e.old + n, new := e.new + n }

/-- The edit with `n` more lines of the texts that it takes lines from. -/
def grow (e : Edit) (n : Nat) : Edit :=
  match e.kind with
  | .delete => { e with oldSize := e.oldSize + n }
  | .insert => { e with newSize := e.newSize + n }
  | .keep | .replace => { e with oldSize := e.oldSize + n, newSize := e.newSize + n }

/-- The edit without its last `n` lines. -/
def dropEnd (e : Edit) (n : Nat) : Edit :=
  { e with oldSize := e.oldSize - n, newSize := e.newSize - n }

/-- The edit without its first `n` lines. -/
def dropStart (e : Edit) (n : Nat) : Edit := (e.down n).dropEnd n

end Edit

/-- How many items two lists begin with in common. -/
def commonStart {α : Type} [DecidableEq α] : List α → List α → Nat
  | x :: xs, y :: ys => if x = y then commonStart xs ys + 1 else 0
  | _, _ => 0

/-- How many items two lists end with in common. -/
def commonEnd {α : Type} [DecidableEq α] (xs ys : List α) : Nat :=
  commonStart xs.reverse ys.reverse

end Scaffold.Diff
