import Scaffold.Diff.Edit

/-! A shortest way from one list to another by deletions and insertions. Two searches, from the
    start and from the end, go on in step until they meet; the lists are cut there, and the halves
    are compared by themselves. A search keeps, for each diagonal, the farthest position that it has
    reached with so many edits; a diagonal is the position in the old list less that in the new
    one. -/

namespace Scaffold.Diff

variable {α : Type} [DecidableEq α]

/-- The farthest positions after one more edit, from the highest diagonal down, before equal items
    are passed; `above` is the position reached one diagonal higher. -/
def nextBelow (above : Nat) : List Nat → List Nat
  | [] => [above]
  | x :: rest => (if x < above then above else x + 1) :: nextBelow x rest

/-- The farthest positions after one more edit than for `reached`. -/
def nextStarts : List Nat → List Nat
  | [] => [0]
  | x :: rest => (x + 1) :: nextBelow x rest

/-- A search's path along one diagonal: where it starts and what it reaches. -/
structure Slide where
  diagonal : Int
  start : Nat
  reached : Nat

/-- Passes equal items on each diagonal, from `diagonal` on down by two. -/
def slides (old new : List α) : Int → List Nat → List Slide
  | _, [] => []
  | diagonal, x :: rest =>
    let y := ((x : Int) - diagonal).toNat
    ⟨diagonal, x, x + commonStart (old.drop x) (new.drop y)⟩ :: slides old new (diagonal - 2) rest

/-- What a search of `edits` edits has reached on a diagonal. -/
def reachedOn (edits : Nat) (reached : List Nat) (diagonal : Int) : Nat :=
  if diagonal.natAbs ≤ edits then reached.getD (((edits : Int) - diagonal).toNat / 2) 0 else 0

/-- The first slide that meets the other search, which has gone on for `edits` edits. -/
def meeting? (size : Nat) (delta : Int) (edits : Option Nat) (other : List Nat)
    (found : List Slide) : Option Slide :=
  match edits with
  | none => none
  | some edits => found.find? fun s =>
    (s.diagonal - delta).natAbs ≤ edits
      && size ≤ s.reached + reachedOn edits other (-(s.diagonal - delta))

/-- Where to cut the lists, searched for with `edits` edits and more. -/
def cutFrom? (old new oldReversed newReversed : List α) :
    Nat → Nat → List Nat → List Nat → Option (Nat × Nat)
  | 0, _, _, _ => none
  | rounds + 1, edits, forward, backward =>
    let size := old.length
    let delta := (size : Int) - new.length
    let ahead := slides old new edits (nextStarts forward)
    let fewer := if edits = 0 then none else some (edits - 1)
    -- if the lengths differ by an even number the searches share diagonals after as many edits each,
    -- else after one more of this one
    match if delta % 2 = 0 then none else meeting? size delta fewer backward ahead with
    | some s => some (s.start, ((s.start : Int) - s.diagonal).toNat)
    | none =>
      let behind := slides oldReversed newReversed edits (nextStarts backward)
      let forward := ahead.map Slide.reached
      match if delta % 2 = 0 then meeting? size delta (some edits) forward behind else none with
      | some s => some (size - s.reached, new.length - ((s.reached : Int) - s.diagonal).toNat)
      | none =>
        cutFrom? old new oldReversed newReversed rounds (edits + 1) forward
          (behind.map Slide.reached)

/-- Where to cut the lists, so that the halves are closer to each other than the whole. -/
def cut? (old new : List α) : Option (Nat × Nat) :=
  cutFrom? old new old.reverse new.reverse ((old.length + new.length + 1) / 2 + 1) 0 [] []

/-- An edit that keeps items, if there are any. -/
def kept (old new size : Nat) : List Edit := if size = 0 then [] else [.keep old new size]

/-- The edits for two lists that stand at `i` and `j`; `depth` bounds how often they are cut. -/
def editsAt : Nat → Nat → Nat → List α → List α → List Edit
  | 0, i, j, old, new => [.delete i old.length j, .insert i j new.length]
  | depth + 1, i, j, old, new =>
    let before := commonStart old new
    let (old, new, i', j') := (old.drop before, new.drop before, i + before, j + before)
    let after := commonEnd old new
    let old := old.take (old.length - after)
    let new := new.take (new.length - after)
    let middle :=
      if old.isEmpty && new.isEmpty then []
      else if new.isEmpty then [.delete i' old.length j']
      else if old.isEmpty then [.insert i' j' new.length]
      else match cut? old new with
        | some (x, y) =>
          editsAt depth i' j' (old.take x) (new.take y)
            ++ editsAt depth (i' + x) (j' + y) (old.drop x) (new.drop y)
        | none => [.delete i' old.length j', .insert i' j' new.length]
    kept i j before ++ middle ++ kept (i' + old.length) (j' + new.length) after

/-- A shortest list of edits. -/
def shortest (old new : List α) : List Edit := editsAt (old.length + new.length + 1) 0 0 old new

end Scaffold.Diff
