import Scaffold.Diff.Edit

/-! Tidying edits: runs of inserted lines are moved up and then down as far as the lines around them
    allow, so that runs of one kind that can be joined become one; deletions are only exchanged with
    insertions. At the end neighbours are joined, a deletion with an insertion to a replacement. -/

namespace Scaffold.Diff

variable {α : Type} [DecidableEq α]

/-- An edit with the edits before it, nearest first, and those after it. -/
structure Cursor where
  before : List Edit
  this : Edit
  after : List Edit

namespace Cursor

/-- Whether two edits are a deletion and an insertion, in either order. -/
def areOpposite (a b : Edit) : Bool :=
  (a.kind = .delete && b.kind = .insert) || (a.kind = .insert && b.kind = .delete)

/-- Puts `n` kept lines after the edit: at the start of those that are kept there, or by
    themselves. -/
def keepAfter (c : Cursor) (fresh : Edit) (n : Nat) : List Edit :=
  match c.after with
  | next :: rest =>
    if next.kind = .keep then (next.up n).grow n :: rest else fresh :: next :: rest
  | [] => [fresh]

/-- Puts `n` kept lines before the edit: at the end of those that are kept there, or by
    themselves. -/
def keepBefore (c : Cursor) (fresh : Edit) (n : Nat) : List Edit :=
  match c.before with
  | prev :: rest => if prev.kind = .keep then prev.grow n :: rest else fresh :: prev :: rest
  | [] => [fresh]

/-- One step up: past kept lines, past an edit of the opposite kind, or into one of the same
    kind. -/
def stepUp? (old new : List α) (c : Cursor) : Option Cursor :=
  match c.before with
  | [] => none
  | prev :: before =>
    if prev.kind = .keep then
      let n := commonEnd (prev.oldLines old) (c.this.newLines new)
      if 0 < n then
        let fresh : Edit := .keep (prev.old + prev.oldSize - n) (c.this.new + c.this.newSize - n) n
        let prev := prev.dropEnd n
        some ⟨if prev.isEmpty then before else prev :: before, c.this.up n, c.keepAfter fresh n⟩
      -- a move may have left nothing of them
      else if prev.isEmpty then some { c with before }
      else none
    else if areOpposite prev c.this then some ⟨before, c.this, prev :: c.after⟩
    else if prev.kind = c.this.kind then
      some ⟨before, prev.grow (c.this.oldSize + c.this.newSize), c.after⟩
    else none

def stepDown? (old new : List α) (c : Cursor) : Option Cursor :=
  match c.after with
  | [] => none
  | next :: after =>
    if next.kind = .keep then
      let n := commonStart (next.oldLines old) (c.this.newLines new)
      if 0 < n then
        let fresh : Edit := .keep next.old c.this.new n
        let next := next.dropStart n
        some ⟨c.keepBefore fresh n, c.this.down n, if next.isEmpty then after else next :: after⟩
      else if next.isEmpty then some { c with after }
      else none
    else if areOpposite c.this next then some ⟨next :: c.before, c.this, after⟩
    else if next.kind = c.this.kind then
      some ⟨c.before, c.this.grow (next.oldSize + next.newSize), after⟩
    else none

/-- Steps until there is none or the bound is reached. -/
def run (step? : Cursor → Option Cursor) : Nat → Cursor → Cursor
  | 0, c => c
  | bound + 1, c =>
    match step? c with
    | some next => run step? bound next
    | none => c

end Cursor

/-- More steps in one direction than edits and their lines allow. -/
def stepBound (edits : List Edit) : Nat :=
  edits.foldl (fun n e => n + 1 + e.oldSize + e.newSize) 1

/-- Moves each edit of a kind, one after another, up and then down. -/
def moveEdits (kind : EditKind) (old new : List α) : Nat → List Edit → List Edit → List Edit
  | 0, before, after => before.reverse ++ after
  | _, before, [] => before.reverse
  | bound + 1, before, e :: after =>
    if e.kind = kind then
      let c : Cursor := ⟨before, e, after⟩
      let c := c.run (Cursor.stepUp? old new) (stepBound c.before)
      let c := c.run (Cursor.stepDown? old new) (stepBound c.after)
      moveEdits kind old new bound (c.this :: c.before) c.after
    else moveEdits kind old new bound (e :: before) after

/-- Deletions are moved first, then insertions. -/
def moved (old new : List α) (edits : List Edit) : List Edit :=
  let bound (edits : List Edit) := 4 * stepBound edits
  let edits := moveEdits .delete old new (bound edits) [] edits
  moveEdits .insert old new (bound edits) [] edits

/-- Lines that wait to be joined: kept ones, or deleted and inserted ones. -/
structure Pending where
  kept : Option Edit
  deleted : Option Edit
  inserted : Option Edit

def Pending.edits (p : Pending) : List Edit :=
  p.kept.toList ++
    match p.deleted, p.inserted with
    | some d, some i => [⟨.replace, d.old, d.oldSize, i.new, i.newSize⟩]
    | some d, none => [d]
    | none, i => i.toList

/-- The edit behind a waiting one of its kind. -/
def joinTo (waiting : Option Edit) (e : Edit) : Edit :=
  match waiting with
  | some w => w.grow (if e.kind = .keep then e.oldSize else e.oldSize + e.newSize)
  | none => e

def joined (p : Pending) : List Edit → List Edit
  | [] => p.edits
  | e :: rest =>
    match e.kind with
    | .keep =>
      if p.deleted.isSome || p.inserted.isSome then p.edits ++ joined ⟨some e, none, none⟩ rest
      else joined ⟨some (joinTo p.kept e), none, none⟩ rest
    | .delete => p.kept.toList ++ joined ⟨none, some (joinTo p.deleted e), p.inserted⟩ rest
    | .insert => p.kept.toList ++ joined ⟨none, p.deleted, some (joinTo p.inserted e)⟩ rest
    | .replace => p.edits ++ e :: joined ⟨none, none, none⟩ rest

def tidy (old new : List α) (edits : List Edit) : List Edit :=
  joined ⟨none, none, none⟩ (moved old new edits)

end Scaffold.Diff
