/-! The characters of a YAML text with their places. Every line break is one cell, whichever way it
    is written, so that all later rules see one kind of break. -/

namespace Scaffold.Yaml

/-- A place in the text: how many characters stand before it, in all and on its line. -/
structure Mark where
  index : Nat
  line : Nat
  column : Nat
  deriving DecidableEq, Repr, Inhabited

def Mark.next (m : Mark) : Mark := ⟨m.index + 1, m.line, m.column + 1⟩

def Mark.nextLine (m : Mark) (size : Nat) : Mark := ⟨m.index + size, m.line + 1, 0⟩

def Mark.start : Mark := ⟨0, 0, 0⟩

structure Cell where
  char : Char
  mark : Mark

/-- The line separator and the paragraph separator, which break lines and stay in scalars. -/
def isSeparator (c : Char) : Bool := c = '\u2028' || c = '\u2029'

/-- A line break, after the ways to write one have been unified. -/
def isBreak (c : Char) : Bool := c = '\n' || isSeparator c

def isSpaceOrTab (c : Char) : Bool := c = ' ' || c = '\t'

def isGapChar (c : Char) : Bool := isSpaceOrTab c || isBreak c

/-- A character of names of anchors and tag handles. -/
def isNameChar (c : Char) : Bool := c.isAlphanum || c = '_' || c = '-'

/-- The characters that a text may hold at all. -/
def isAllowed (c : Char) : Bool :=
  let n := c.toNat
  n = 9 || n = 10 || n = 13 || (32 ≤ n && n ≤ 126) || n = 133 || (160 ≤ n && n ≤ 55295) ||
  (57344 ≤ n && n ≤ 65533) || 65536 ≤ n

/-- The cells of a text that begins at `m`, and the place after it. -/
def placeFrom (m : Mark) : List Char → List Cell × Mark
  | [] => ([], m)
  | '\r' :: '\n' :: rest =>
    let (cells, finish) := placeFrom (m.nextLine 2) rest
    (⟨'\n', m⟩ :: cells, finish)
  | c :: rest =>
    if c = '\n' || c = '\r' || c = '\u0085' then
      let (cells, finish) := placeFrom (m.nextLine 1) rest
      (⟨'\n', m⟩ :: cells, finish)
    else if isSeparator c then
      let (cells, finish) := placeFrom (m.nextLine 1) rest
      (⟨c, m⟩ :: cells, finish)
    else
      let (cells, finish) := placeFrom m.next rest
      (⟨c, m⟩ :: cells, finish)

/-- Whether the text ends here or a blank or break comes next. -/
def atGap : List Cell → Bool
  | [] => true
  | c :: _ => isGapChar c.char

def atBreak : List Cell → Bool
  | [] => true
  | c :: _ => isBreak c.char

def startsWith (c : Char) : List Cell → Bool
  | [] => false
  | d :: _ => d.char = c

/-- A line that begins with `---` or `...` and goes on with a gap separates documents. -/
def atDocumentLine : List Cell → Bool
  | a :: b :: c :: rest =>
    a.mark.column = 0 && a.char = b.char && b.char = c.char && (a.char = '-' || a.char = '.')
      && atGap rest
  | _ => false

end Scaffold.Yaml
