/-! Cutting a text at a character and putting pieces together again. -/

namespace Scaffold.Text

/-- The pieces between the characters `sep`; always at least one. -/
def splitOn (sep : Char) : List Char → List (List Char)
  | [] => [[]]
  | c :: rest =>
    if c = sep then [] :: splitOn sep rest
    else match splitOn sep rest with
      | piece :: pieces => (c :: piece) :: pieces
      | [] => [[c]]

/-- Like `splitOn`, with at most `n + 1` pieces: the last one keeps its separators. -/
def splitAtMost (sep : Char) : Nat → List Char → List (List Char)
  | 0, s => [s]
  | n + 1, s =>
    match s.span (· ≠ sep) with
    | (piece, _ :: rest) => piece :: splitAtMost sep n rest
    | (piece, []) => [piece]

/-- The pieces one after another with `sep` between them. -/
def joinWith (sep : List Char) : List (List Char) → List Char
  | [] => []
  | [piece] => piece
  | piece :: pieces => piece ++ sep ++ joinWith sep pieces

/-- What follows `start` in a list that begins with it. -/
def dropStart? {α : Type} [DecidableEq α] : List α → List α → Option (List α)
  | [], s => some s
  | _ :: _, [] => none
  | p :: ps, c :: cs => if p = c then dropStart? ps cs else none

/-- Replaces each occurrence of the non-empty text `old` from the left; `skip` characters of the
    last occurrence are still to be passed. -/
def replaceFrom (old new : List Char) : Nat → List Char → List Char
  | _, [] => []
  | skip + 1, _ :: rest => replaceFrom old new skip rest
  | 0, c :: rest =>
    if old.isPrefixOf (c :: rest) then new ++ replaceFrom old new (old.length - 1) rest
    else c :: replaceFrom old new 0 rest

/-- Every occurrence of `old` replaced by `new`; the empty text occurs around every character. -/
def replaceAll (old new s : List Char) : List Char :=
  match old with
  | [] => new ++ s.flatMap fun c => c :: new
  | _ => replaceFrom old new 0 s

/-- What stands before and after the first occurrence of `sep`. -/
def cutAt? (sep : List Char) : List Char → Option (List Char × List Char)
  | [] => none
  | c :: rest =>
    match dropStart? sep (c :: rest) with
    | some after => some ([], after)
    | none => (cutAt? sep rest).map fun (before, after) => (c :: before, after)

/-- Each carriage return that stands before a line feed is dropped. -/
def unifyNewlines : List Char → List Char
  | [] => []
  | '\r' :: '\n' :: rest => '\n' :: unifyNewlines rest
  | c :: rest => c :: unifyNewlines rest

/-- The lines of a text without their ends, which are `\n` or `\r\n`; a last line that is empty does
    not count. -/
def lines (s : List Char) : List (List Char) :=
  let pieces := splitOn '\n' s
  let strip (piece : List Char) : List Char :=
    if piece.getLast? = some '\r' then piece.dropLast else piece
  match pieces.getLast? with
  | some [] => pieces.dropLast.map strip
  | some last => pieces.dropLast.map strip ++ [last]
  | none => []

/-- The lines of a text with their ends, which are `\n`, `\r\n` or `\r`; the last line may have
    none. -/
def linesWithEnds : List Char → List (List Char)
  | [] => []
  | '\r' :: '\n' :: rest => ['\r', '\n'] :: linesWithEnds rest
  | c :: rest =>
    if c = '\n' || c = '\r' then [c] :: linesWithEnds rest
    else match linesWithEnds rest with
      | [] => [[c]]
      | line :: lines => (c :: line) :: lines

end Scaffold.Text
