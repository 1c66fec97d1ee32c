import Scaffold.Yaml.Token

/-! The text of block scalars, which are made of whole lines that stand at one column. -/

namespace Scaffold.Yaml

inductive Chomping where
  | strip
  | clip
  | keep
  deriving DecidableEq

/-- The line of a block scalar's indicator: what it says, and the text after it. -/
structure BlockHeader where
  chomping : Chomping
  increment : Option Nat
  rest : List Cell

/-- An indentation digit at the start; zero is refused. -/
def increment? : List Cell → Option (Option Nat × List Cell)
  | [] => some (none, [])
  | c :: rest =>
    if c.char = '0' then none
    else if c.char.isDigit then some (some (c.char.toNat - 48), rest)
    else some (none, c :: rest)

def chomping? : List Cell → Option (Chomping × List Cell)
  | [] => none
  | c :: rest =>
    if c.char = '+' then some (.keep, rest) else if c.char = '-' then some (.strip, rest) else none

/-- The cells after the blanks and the comment that may end a line, without the break itself; none
    if something else stands there. -/
def lineRest? (cells : List Cell) : Option (List Cell) :=
  let cells := cells.dropWhile (isSpaceOrTab ·.char)
  let cells := if startsWith '#' cells then cells.dropWhile (!isBreak ·.char) else cells
  if atBreak cells then some (cells.drop 1) else none

/-- The rest of the line after `|` or `>`: a sign and a digit in either order, then a comment. -/
def blockHeader? (cells : List Cell) : Option BlockHeader := do
  let (chomping, increment, cells) ←
    match chomping? cells with
    | some (chomping, cells) => do
      let (increment, cells) ← increment? cells
      pure (chomping, increment, cells)
    | none => do
      let (increment, cells) ← increment? cells
      match increment, chomping? cells with
      | some n, some (chomping, cells) => pure (chomping, some n, cells)
      | increment, _ => pure (Chomping.clip, increment, cells)
  return ⟨chomping, increment, ← lineRest? cells⟩

/-- A block scalar being read, texts in reverse. -/
structure BlockText where
  text : List Char
  /-- the break that ended the last line -/
  leading : Option Char
  /-- the empty lines after it -/
  trailing : List Char
  /-- whether the last line began with a blank -/
  leadingBlank : Bool

/-- The text when the line that begins with `c` comes next: folding turns a single break between two
    lines that do not begin with a blank into a blank. -/
def BlockText.beforeLine (folded : Bool) (b : BlockText) (c : Char) : BlockText :=
  let blank := isSpaceOrTab c
  let text :=
    if folded && b.leading = some '\n' && !b.leadingBlank && !blank then
      if b.trailing.isEmpty then ' ' :: b.text else b.text
    else b.leading.toList ++ b.text
  ⟨b.trailing ++ text, none, [], blank⟩

def BlockText.finish (chomping : Chomping) (b : BlockText) : List Char :=
  let text := if chomping = .strip then b.text else b.leading.toList ++ b.text
  (if chomping = .keep then b.trailing ++ text else text).reverse

/-- The indentation of a block scalar: known, or still to be found as the widest so far but at least
    `least`. -/
inductive Margin where
  | known (n : Nat)
  | unknown (widest least : Nat)

def Margin.covers (m : Margin) (column : Nat) : Bool :=
  match m with
  | .known n => column < n
  | .unknown _ _ => true

/-- The margin after a line whose first character that is not in it stands at `column`. -/
def Margin.widen (m : Margin) (column : Nat) : Margin :=
  match m with
  | .known n => .known n
  | .unknown widest least => .unknown (max widest column) least

def Margin.width (m : Margin) : Nat :=
  match m with
  | .known n => n
  | .unknown widest least => max widest least

/-- The lines of a block scalar: `inLine` says whether the cells belong to a line's text or to the
    margin before it. The result is the text and what follows it. -/
def blockFrom (folded : Bool) (chomping : Chomping) (b : BlockText) (margin : Margin)
    (inLine : Bool) : List Cell → Option (List Char × List Cell)
  | [] => some (b.finish chomping, [])
  | c :: rest =>
    if inLine then
      if isBreak c.char then
        blockFrom folded chomping { b with leading := some c.char } margin false rest
      else blockFrom folded chomping { b with text := c.char :: b.text } margin true rest
    else if c.char = ' ' && margin.covers c.mark.column then
      blockFrom folded chomping b margin false rest
    -- only blanks make a margin
    else if c.char = '\t' && margin.covers c.mark.column then none
    else
      -- until a line has text the widest one sets the margin
      let margin := margin.widen c.mark.column
      if isBreak c.char then
        blockFrom folded chomping { b with trailing := c.char :: b.trailing } margin false rest
      else if c.mark.column = margin.width then
        let b := b.beforeLine folded c.char
        let b := { b with text := c.char :: b.text }
        blockFrom folded chomping b (.known margin.width) true rest
      else some (b.finish chomping, c :: rest)

end Scaffold.Yaml
