import Scaffold.Diff.Shortest
import Scaffold.Diff.Tidy
import Scaffold.Text.Split

/-! Differences as unified text: hunks of edits with some kept lines around them. -/

namespace Scaffold.Diff

/-- How many kept lines stand around edits. -/
def contextSize : Nat := 3

/-- The edits with the first one, if it keeps lines, cut to its end. -/
def cutFirst : List Edit → List Edit
  | e :: rest =>
    if e.kind = .keep then e.dropStart (e.oldSize - contextSize) :: rest else e :: rest
  | [] => []

/-- The edits with the last one, if it keeps lines, cut to its start. -/
def cutLast (edits : List Edit) : List Edit :=
  match edits.getLast? with
  | some e =>
    if e.kind = .keep then edits.dropLast ++ [e.dropEnd (e.oldSize - contextSize)] else edits
  | none => []

/-- A group of edits, unless it does nothing. -/
def worthwhile (group : List Edit) : List (List Edit) :=
  match group with
  | [] => []
  | [e] => if e.kind = .keep then [] else [[e]]
  | edits => [edits]

/-- Groups of edits, divided inside long runs of kept lines; `group` is open. -/
def groupsFrom (group : List Edit) : List Edit → List (List Edit)
  | [] => worthwhile group
  | e :: rest =>
    if e.kind = .keep && contextSize * 2 < e.oldSize then
      (group ++ [e.dropEnd (e.oldSize - contextSize)])
        :: groupsFrom [e.dropStart (e.oldSize - contextSize)] rest
    else groupsFrom (group ++ [e]) rest

/-- The groups of edits that become hunks. -/
def groups (edits : List Edit) : List (List Edit) :=
  if edits.isEmpty then [] else groupsFrom [] (cutLast (cutFirst edits))

/-- The lines from `first` up to `last` in a hunk's header. -/
def rangeChars (first last : Nat) : List Char :=
  let size := last - first
  if size = 1 then Nat.toDigits 10 (first + 1)
  else Nat.toDigits 10 (if size = 0 then first else first + 1) ++ ',' :: Nat.toDigits 10 size

def headerChars (first last : Edit) : List Char :=
  ['@', '@', ' ', '-'] ++ rangeChars first.old (last.old + last.oldSize) ++ [' ', '+']
    ++ rangeChars first.new (last.new + last.newSize) ++ [' ', '@', '@', '\n']

/-- The mark after a line that is not ended. -/
def noNewlineMark : List Char := "\n\\ No newline at end of file\n".toList

def signedLine (sign : Char) (line : List Char) : List Char :=
  match line.getLast? with
  | some '\n' | some '\r' => sign :: line
  | _ => sign :: line ++ noNewlineMark

/-- The lines of an edit with their signs. -/
def editChars (old new : List (List Char)) (e : Edit) : List Char :=
  match e.kind with
  | .keep => (e.oldLines old).flatMap (signedLine ' ')
  | _ => (e.oldLines old).flatMap (signedLine '-') ++ (e.newLines new).flatMap (signedLine '+')

def hunkChars (old new : List (List Char)) (group : List Edit) : List Char :=
  match group.head?, group.getLast? with
  | some first, some last => headerChars first last ++ group.flatMap (editChars old new)
  | _, _ => []

def hunks (old new : List Char) : List (List Char) :=
  let oldLines := Text.linesWithEnds old
  let newLines := Text.linesWithEnds new
  (groups (tidy oldLines newLines (shortest oldLines newLines))).map (hunkChars oldLines newLines)

/-- The unified text of the difference of two texts, under these names; empty if there is none. -/
def unified (oldName newName old new : String) : String :=
  match hunks old.toList new.toList with
  | [] => ""
  | hunks => "--- " ++ oldName ++ "\n+++ " ++ newName ++ "\n" ++ String.ofList hunks.flatten

end Scaffold.Diff
