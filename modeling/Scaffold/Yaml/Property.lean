import Scaffold.Yaml.Block
import Scaffold.Text.Digits

/-! Anchors, aliases, tags and directives. -/

namespace Scaffold.Yaml

def textOf (cells : List Cell) : String := String.ofList (cells.map Cell.char)

def spanCells (p : Char → Bool) (cells : List Cell) : List Cell × List Cell := cells.span (p ·.char)

/-- What may follow the name of an anchor or alias. -/
def endsName : List Cell → Bool
  | [] => true
  | c :: _ => isGapChar c.char || ['?', ':', ',', ']', '\x7d', '%', '@', '`'].contains c.char

def anchorName? (cells : List Cell) : Option (String × List Cell) :=
  let (name, rest) := spanCells isNameChar cells
  if name.isEmpty || !endsName rest then none else some (textOf name, rest)

/-- A character of a tag; `verbatim` tags may hold some more. -/
def isTagChar (verbatim : Bool) (c : Char) : Bool :=
  isNameChar c || [';', '/', '?', ':', '@', '&', '=', '+', '$', '.', '%', '!', '~', '*', '\'', '(',
    ')'].contains c || (verbatim && (c = ',' || c = '[' || c = ']'))

/-- How many bytes the character has whose first byte this is. -/
def octetWidth? (n : Nat) : Option Nat :=
  if n < 128 then some 1 else if n / 32 = 6 then some 2 else if n / 16 = 14 then some 3
  else if n / 8 = 30 then some 4 else none

def octetBits (width n : Nat) : Nat :=
  if width = 1 then n else if width = 2 then n % 32 else if width = 3 then n % 16 else n % 8

/-- Text with `%` escapes resolved; `left` bytes of a character are missing from `value`. -/
def unescapeTag (value left : Nat) : List Char → Option (List Char)
  | [] => if left = 0 then some [] else none
  | '%' :: a :: b :: rest =>
    match Text.hexValue? a, Text.hexValue? b with
    | some x, some y =>
      let n := x * 16 + y
      -- the first byte of a character says how many more there are
      if left = 0 then
        match octetWidth? n with
        | none => none
        | some width =>
          if width = 1 then (unescapeTag 0 0 rest).map (Char.ofNat n :: ·)
          else unescapeTag (octetBits width n) (width - 1) rest
      else if n / 64 = 2 then
        let value := value * 64 + n % 64
        if left = 1 then (unescapeTag 0 0 rest).map (Char.ofNat value :: ·)
        else unescapeTag value (left - 1) rest
      else none
    | _, _ => none
  | c :: rest =>
    if c = '%' || left ≠ 0 then none else (unescapeTag 0 0 rest).map (c :: ·)

/-- The longest run of tag characters; it may be empty only if `optional`. -/
def tagText? (verbatim optional : Bool) (cells : List Cell) : Option (String × List Cell) := do
  let (body, rest) := spanCells (isTagChar verbatim) cells
  if body.isEmpty && !optional then none
  else return (String.ofList (← unescapeTag 0 0 (body.map Cell.char)), rest)

/-- The handle that a tag begins with, from its first exclamation mark on: `!name!`, or `!name` that
    is no handle but the beginning of the tag itself. -/
def tagHandle (cells : List Cell) : List Cell × List Cell :=
  match cells with
  | [] => ([], [])
  | bang :: rest =>
    let (name, rest) := spanCells isNameChar rest
    match rest with
    | c :: rest' => if c.char = '!' then (bang :: name ++ [c], rest') else (bang :: name, rest)
    | [] => (bang :: name, [])

/-- A tag, from its exclamation mark on: its handle and suffix. The tag `!` has the empty handle. -/
def tag? (inFlow : Bool) (cells : List Cell) : Option (String × String × List Cell) := do
  let (handle, suffix, rest) ←
    if startsWith '<' (cells.drop 1) then do
      let (suffix, rest) ← tagText? true false (cells.drop 2)
      if startsWith '>' rest then pure ("", suffix, rest.drop 1) else none
    else
      let (handle, rest) := tagHandle cells
      if 2 ≤ handle.length && handle.getLast?.any (·.char = '!') then do
        let (suffix, rest) ← tagText? false false rest
        pure (textOf handle, suffix, rest)
      else do
        let (more, rest) ← tagText? false true rest
        let suffix := textOf (handle.drop 1) ++ more
        if suffix = "" then pure ("", "!", rest) else pure ("!", suffix, rest)
  if atGap rest || (inFlow && startsWith ',' rest) then return (handle, suffix, rest) else none

def shortNumber? (cells : List Cell) : Option (Nat × List Cell) :=
  let (ds, rest) := spanCells Char.isDigit cells
  if ds.isEmpty || 9 < ds.length then none
  else some (Text.digitsValue (ds.map Cell.char), rest)

def directive? (cells : List Cell) : Option (TokenKind × List Cell) := do
  let (name, rest) := spanCells isNameChar cells
  if name.isEmpty || !atGap rest then none
  let blanks (cells : List Cell) := cells.dropWhile (isSpaceOrTab ·.char)
  let (kind, rest) ←
    if textOf name = "YAML" then do
      let (major, rest) ← shortNumber? (blanks rest)
      if !startsWith '.' rest then none
      let (minor, rest) ← shortNumber? (rest.drop 1)
      pure (TokenKind.version major minor, rest)
    else if textOf name = "TAG" then do
      let rest := blanks rest
      if !startsWith '!' rest then none
      let (handle, rest) := tagHandle rest
      if !(handle.length = 1 || handle.getLast?.any (·.char = '!')) then none
      if !rest.head?.any (isSpaceOrTab ·.char) then none
      let (start, rest) ← tagText? true false (blanks rest)
      if !atGap rest then none
      pure (TokenKind.handle (textOf handle) start, rest)
    else none
  return (kind, ← lineRest? rest)

end Scaffold.Yaml
