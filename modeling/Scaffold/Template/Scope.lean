import Scaffold.Template.Context
import Scaffold.Template.Syntax
import Scaffold.Text.Digits
import Scaffold.Text.Split

/-! Looking up variables: in the loops around a place from the inside out, and then in the
    context. -/

namespace Scaffold.Template

structure Loop where
  key : Option (String × Json)
  name : String
  value : Json
  index : Nat
  count : Nat

/-- The variables that have been set at one level, the latest first, and the loop of the level. -/
structure Scope where
  bindings : List (String × Json)
  loop : Option Loop

/-- The scopes around a place, innermost first. -/
abbrev Scopes := List Scope

/-- A path without brackets: a variable, and what is written behind the first point. -/
structure Pointer where
  root : String
  tail : List Char

/-- The keys between points. A point between double quotes belongs to a key, and the quotes do not;
    `quoted` says whether the text begins between quotes. -/
def splitKeys (quoted : Bool) : List Char → List (List Char)
  | [] => [[]]
  | c :: rest =>
    if c = '"' then splitKeys (!quoted) rest
    else if c = '.' && !quoted then [] :: splitKeys false rest
    else match splitKeys quoted rest with
      | key :: keys => (c :: key) :: keys
      | [] => [[c]]

/-- Slashes are written in another way in an evaluated path. -/
def escapeSlash (s : List Char) : List Char := Text.replaceAll ['/'] ['~', '1'] s

/-- A key of an evaluated path as it stands in an object. -/
def unescapeKey (s : List Char) : List Char :=
  Text.replaceAll ['~', '0'] ['~'] (Text.replaceAll ['~', '1'] ['/'] s)

/-- The text of a path, cut at its first point. -/
def Pointer.ofText (s : List Char) : Pointer :=
  let (root, rest) := s.span (· ≠ '.')
  ⟨String.ofList root, rest.drop 1⟩

def Pointer.keys (p : Pointer) : List String :=
  if p.tail.isEmpty then []
  else (splitKeys false p.tail).map fun key => String.ofList (unescapeKey key)

/-- A number without sign or needless zeros, as an index. -/
def index? (key : String) : Option Nat :=
  match key.toList with
  | [] => none
  | c :: rest =>
    if (c = '0' && !rest.isEmpty) || !(c :: rest).all Char.isDigit then none
    else some (Text.digitsValue (c :: rest))

/-- The value that the keys lead to. -/
def follow : List String → Json → Option Json
  | [], v => some v
  | key :: rest, .obj fields => (fields.lookup key).bind (follow rest)
  | key :: rest, .arr items => ((index? key).bind (items[·]?)).bind (follow rest)
  | _ :: _, _ => none

def Loop.state? (l : Loop) (name : String) : Option Json :=
  if name = "index" then some (.int (l.index + 1))
  else if name = "index0" then some (.int l.index)
  else if name = "first" then some (.bool (l.index = 0))
  else if name = "last" then some (.bool (l.index + 1 = l.count))
  else none

/-- What a loop makes of a path: its key, its state behind the name `loop`, or its value. -/
def Loop.lookup (l : Loop) (p : Pointer) : Option Json :=
  match l.key with
  | some (name, key) => if p.root = name && p.tail.isEmpty then some key else inState
  | none => inState
where
  inState : Option Json :=
    if p.root = "loop" then l.state? (String.ofList p.tail)
    else if p.root = l.name then follow p.keys l.value
    else none

def Scope.lookup (s : Scope) (p : Pointer) : Option Json :=
  ((s.bindings.lookup p.root).bind (follow p.keys)).or (s.loop.bind (·.lookup p))

/-- The value that a path without brackets leads to. -/
def lookupPointer (scopes : Scopes) (ctx : Context) (p : Pointer) : Option Json :=
  (scopes.findSome? (·.lookup p)).or ((ctx.bindings.lookup p.root).bind (follow p.keys))

/-- Where in a path a reading of its brackets stands: outside, behind an opening bracket, or inside,
    with the text so far in reverse and the number of brackets opened in it. -/
inductive BracketState where
  | outside
  | opened
  | inside (text : List Char) (more : Nat)

/-- A number that fits into 64 bits, with or without a plus. -/
def isCount (s : List Char) : Bool :=
  let digits := if s.head? = some '+' then s.drop 1 else s
  !digits.isEmpty && digits.all Char.isDigit && Text.digitsValue digits < Nat.pow 2 64

/-- The texts in the outer brackets of a path that are paths themselves: those that neither begin
    with a quote nor are numbers. A bracket in quotes counts as one. -/
def references : BracketState → List Char → List (List Char)
  | _, [] => []
  | .outside, c :: rest => references (if c = '[' then .opened else .outside) rest
  | .opened, c :: rest =>
    references (if c = '"' || c = '\'' then .outside else .inside [c] 0) rest
  | .inside text more, c :: rest =>
    if c = ']' && more = 0 then
      (if isCount text.reverse then [] else [text.reverse]) ++ references .outside rest
    else
      let more := if c = '[' then more + 1 else if c = ']' then more - 1 else more
      references (.inside (c :: text) more) rest

/-- The path with the first of these brackets replaced by a point and what the text in them came
    to. -/
def substitute (reference shown path : List Char) : List Char :=
  match Text.cutAt? ('[' :: reference ++ [']']) path with
  | some (before, after) => before ++ '.' :: shown ++ after
  | none => path ++ '.' :: shown

/-- The path with the brackets that are left written with points. -/
def withoutBrackets (path : List Char) : List Char :=
  let s := escapeSlash path
  let s := Text.replaceAll ['[', '\''] ['.', '"'] s
  let s := Text.replaceAll ['[', '"'] ['.', '"'] s
  let s := Text.replaceAll ['['] ['.'] s
  let s := Text.replaceAll ['\'', ']'] ['"'] s
  let s := Text.replaceAll ['"', ']'] ['"'] s
  Text.replaceAll [']'] [] s

/-- How a value stands in a path; only texts and numbers can. -/
def keyText? : Json → Option (List Char)
  | .str s => some ('"' :: s.toList ++ ['"'])
  | .int n => some (toString n).toList
  | .float x => some ((Decimal.shortest x).scientific x.negative)
  | _ => none

/-- The value of the text of a path. Brackets may stand in brackets to that depth. -/
def lookupText (template : String) (scopes : Scopes) (ctx : Context) :
    Nat → List Char → Except Failure Json
  | depth, path =>
    let shown := String.ofList path
    if !path.contains '[' then
      match lookupPointer scopes ctx (.ofText path) with
      | some v => return v
      | none => throw (.noVariable shown template)
    else
      match depth with
      | 0 => throw .tooDeep
      | depth + 1 => do
        -- what stands in brackets is looked up first, and its text becomes a name on the path
        let evaluated ← (references .outside path).foldlM (fun evaluated reference => do
          let v ← (lookupText template scopes ctx depth reference).mapError (.badIndex shown)
          match keyText? v with
          | some key => return substitute reference key evaluated
          | none => throw (.indexType (String.ofList reference) shown)) path
        let evaluated := withoutBrackets evaluated
        match lookupPointer scopes ctx (.ofText evaluated) with
        | some v => return v
        | none => throw (.noElement shown template (String.ofList evaluated))

/-- The value of a path. A text in brackets is shorter than the path. -/
def lookup (template : String) (scopes : Scopes) (ctx : Context) (p : Path) :
    Except Failure Json :=
  lookupText template scopes ctx p.text.length p.text

def assign (name : String) (v : Json) : Scopes → Scopes
  | [] => [⟨[(name, v)], none⟩]
  | s :: rest => { s with bindings := (name, v) :: s.bindings } :: rest

end Scaffold.Template
