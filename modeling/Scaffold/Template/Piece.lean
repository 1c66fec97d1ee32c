import Scaffold.Template.Expression

/-! Cutting a template into text and tags. -/

namespace Scaffold.Template

open Expression

inductive Piece where
  | node (n : Node)
  | ifTag (h : Hyphens) (condition : Expr)
  | elifTag (h : Hyphens) (condition : Expr)
  | elseTag (h : Hyphens)
  | endifTag (h : Hyphens)
  | forTag (h : Hyphens) (key : Option String) (value : String) (container : Expr)
  | endforTag (h : Hyphens)

namespace Piece

/-- What begins a tag. -/
def opens (s : List Char) : Bool :=
  match s with
  | '\x7b' :: c :: _ => c = '\x7b' || c = '%' || c = '#'
  | _ => false

/-- The text up to the first position where `stop` holds, and the rest from there on. -/
def spanUntil (stop : List Char → Bool) : List Char → List Char × List Char
  | [] => ([], [])
  | c :: rest =>
    if stop (c :: rest) then ([], c :: rest)
    else
      let (text, rest) := spanUntil stop rest
      (c :: text, rest)

def hyphen (s : List Char) : Bool × List Char :=
  match s with
  | '-' :: rest => (true, rest)
  | rest => (false, rest)

/-- The end of a tag that ends in `last` and a closing brace. -/
def close? (last : Char) (s : List Char) : Option (Bool × List Char) :=
  match s with
  | '-' :: c :: '\x7d' :: rest => if c = last then some (true, rest) else none
  | c :: '\x7d' :: rest => if c = last then some (false, rest) else none
  | _ => none

/-- A word that must be followed by a blank. -/
def keyword? (word : String) (s : List Char) : Option (List Char) := do
  let rest ← literal? word.toList s
  if rest.head?.any isSpace then return skip rest else none

/-- A tag that is a single word, through its end. -/
def word? (word : String) (s : List Char) : Option (Bool × List Char) := do
  close? '%' (skip (← literal? word.toList s))

/-- Quoted names with commas between them, through the closing bracket. -/
def nameList : Nat → List Char → Option (List String × List Char)
  | 0, _ => none
  | limit + 1, s =>
    match literal? [']'] (skip s) with
    | some rest => some ([], rest)
    | none => do
      let (_, name, rest) ← quoted? (skip s)
      match literal? [','] (skip rest) with
      | some rest =>
        let (more, rest) ← nameList limit rest
        return (String.ofList name :: more, rest)
      | none =>
        let rest ← literal? [']'] (skip rest)
        return ([String.ofList name], rest)

def insertionNames? (s : List Char) : Option (List String × List Char) :=
  match s with
  | '[' :: rest => ((loneComma? rest).map fun rest => ([], rest)).or (nameList s.length rest)
  | s => (quoted? s).map fun (_, name, rest) => ([String.ofList name], rest)

/-- The words that allow a missing insertion; no blank is needed around them. -/
def ignoreMissing (s : List Char) : Bool × List Char :=
  let words : Option (List Char) := do
    literal? "missing".toList (skip (← literal? "ignore".toList (skip s)))
  match words with
  | some rest => (true, rest)
  | none => (false, s)

/-- The names, container and end of a loop tag after its word. -/
def forTag? (depth : Nat) (left : Bool) (s : List Char) : Option (Piece × List Char) := do
  let (first, rest) ← name? s
  let (key, value, rest) ← match rest with
    | ',' :: rest => do
      let (second, rest) ← name? (skip rest)
      pure (some first, second, rest)
    | rest => pure (none, first, rest)
  if !rest.head?.any isSpace then none
  let rest ← keyword? "in" (skip rest)
  let (container, rest) ← (filtered depth rest).or (array depth rest)
  let (right, rest) ← close? '%' (skip rest)
  return (.forTag ⟨left, right⟩ key value container, rest)

def statement? (depth : Nat) (left : Bool) (s : List Char) : Option (Piece × List Char) :=
  let single (word : String) (piece : Hyphens → Piece) : Option (Piece × List Char) := do
    let (right, rest) ← word? word s
    return (piece ⟨left, right⟩, rest)
  let conditional (word : String) (piece : Hyphens → Expr → Piece) :
      Option (Piece × List Char) := do
    let (e, rest) ← logic depth (← keyword? word s)
    let (right, rest) ← close? '%' (skip rest)
    return (piece ⟨left, right⟩ e, rest)
  -- up to the closing tag nothing is read as markup
  let raw : Option (Piece × List Char) := do
    let (startRight, rest) ← word? "raw" s
    let finish (s : List Char) : Option (Hyphens × List Char) := do
      let rest ← literal? ['\x7b', '%'] s
      let (left, rest) := hyphen rest
      let (right, rest) ← word? "endraw" (skip rest)
      return (⟨left, right⟩, rest)
    let (text, rest) := spanUntil (fun s => (finish s).isSome) rest
    let (h, rest) ← finish rest
    return (.node (.raw ⟨left, startRight⟩ text h), rest)
  let insertion : Option (Piece × List Char) := do
    let (names, rest) ← insertionNames? (← keyword? "include" s)
    let (ignored, rest) := ignoreMissing rest
    let (right, rest) ← close? '%' (skip rest)
    return (.node (.insertion ⟨left, right⟩ names ignored), rest)
  let assign : Option (Piece × List Char) := do
    let (name, rest) ← name? (← keyword? "set" s)
    let rest ← literal? ['='] (skip rest)
    let (e, rest) ← expression depth (skip rest)
    let (right, rest) ← close? '%' (skip rest)
    return (.node (.assign ⟨left, right⟩ name e), rest)
  raw |>.or insertion |>.or assign |>.or (conditional "if" .ifTag)
    |>.or (conditional "elif" .elifTag)
    |>.or (single "else" .elseTag) |>.or (single "endif" .endifTag)
    |>.or (do forTag? depth left (← keyword? "for" s)) |>.or (single "endfor" .endforTag)

def first? (depth : Nat) (s : List Char) : Option (Piece × List Char) :=
  match s with
  | '\x7b' :: '\x7b' :: rest => do
    let (left, rest) := hyphen rest
    let (e, rest) ← expression depth (skip rest)
    let (right, rest) ← close? '\x7d' (skip rest)
    return (.node (.output ⟨left, right⟩ e), rest)
  | '\x7b' :: '%' :: rest =>
    let (left, rest) := hyphen rest
    statement? depth left (skip rest)
  | '\x7b' :: '#' :: rest => do
    let (left, rest) := hyphen rest
    let (text, rest) := spanUntil (fun s => (close? '#' s).isSome) rest
    if text.isEmpty then none
    let (right, rest) ← close? '#' rest
    return (.node (.comment ⟨left, right⟩), rest)
  | s =>
    let (text, rest) := spanUntil opens s
    some (.node (.text text), rest)

def isComment : Piece → Bool
  | .node (.comment _) => true
  | _ => false

/-- The pieces of a template; none if a tag does not follow the rules. Every piece takes a character
    at least, so as many pieces as characters may follow. -/
def all? (depth : Nat) : Nat → List Char → Option (List Piece)
  | _, [] => some []
  | 0, _ => none
  | limit + 1, s => do
    let (piece, rest) ← first? depth s
    return piece :: (← all? depth limit rest)

end Piece

end Scaffold.Template
