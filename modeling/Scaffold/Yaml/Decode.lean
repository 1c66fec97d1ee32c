import Scaffold.Yaml.Failure
import Scaffold.Yaml.Node
import Scaffold.Keyed
import Scaffold.Text.Utf8

/-! Reading data of a known shape off a document. Nodes are visited in the order of the text, so the
    first thing that is wrong is the one that is reported. -/

namespace Scaffold.Yaml

/-- Reading with the document at hand and the number of aliases followed so far. -/
abbrev Decode := ReaderT Document (StateT Nat (Except Failure))

/-- Reads a value off the node at a path. -/
abbrev Decoder (α : Type) := Path → Node → Decode α

namespace Decode

def fail {α : Type} (problem : Problem) : Decode α := throw (.data problem none)

/-- Fails with a problem at a place. -/
def failAt {α : Type} (path : Path) (m : Mark) (problem : Problem) : Decode α :=
  throw (.data problem (some (path, m)))

/-- Gives a problem that has no place this one. -/
def placed {α : Type} (path : Path) (m : Mark) (x : Decode α) : Decode α :=
  tryCatch x fun
    | .data problem none => failAt path m problem
    | e => throw e

/-- The node that an alias stands for, and every other node itself. A hundred aliases may be
    followed for each event of the document. -/
def resolve : Node → Decode Node
  | .alias number _ => do
    let followed ← get
    let document ← read
    if document.size * 100 < followed + 1 then throw .tooManyAliases
    set (followed + 1)
    match document.anchored.lookup number with
    | some n => return n
    | none => throw .notOneDocument
  | n => return n

mutual
def isBroken : Node → Bool
  | .broken => true
  | .sequence _ items _ => anyBroken items
  | .mapping _ entries _ => anyBroken entries
  | .scalar _ _ => false
  | .alias _ _ => false

def anyBroken : List Node → Bool
  | [] => false
  | n :: rest => isBroken n || anyBroken rest
end

def standardTag (name : String) : String := "tag:yaml.org,2002:" ++ name

/-- The problem of a scalar that stands where something else is expected. -/
def scalarProblem (s : Scalar) (expected : String) : Problem :=
  let cs := s.text.toList
  let found (m : Meaning) : Problem := .wrongType (.meaning m) expected
  let bad (what : String) : Problem := .wrongValue (.meaning (.text s.text)) what
  match s.tag with
  | none => found (if s.style = .plain then Plain.meaning s.text else .text s.text)
  | some t =>
    if t = standardTag "bool" then
      match Plain.bool? cs with
      | some b => found (.bool b)
      | none => bad "a boolean"
    else if t = standardTag "int" then
      match (Plain.int? cs).filter Plain.isWide with
      | some n => found (.int n)
      | none => bad "an integer"
    else if t = standardTag "float" then
      match Plain.float? cs with
      | some x => found (.float x)
      | none => bad "a float"
    else if t = standardTag "null" then
      if Plain.isNull cs then found .unit else bad "null"
    else if t.toList.head? = some '!' && s.style = .plain then found (Plain.meaning s.text)
    else found (.text s.text)

def mismatch {α : Type} (expected : String) (path : Path) : Node → Decode α
  | .scalar s m => failAt path m (scalarProblem s expected)
  | .sequence _ _ m => failAt path m (.wrongType .sequence expected)
  | .mapping _ _ m => failAt path m (.wrongType .mapping expected)
  | .alias _ _ => throw .notOneDocument
  | .broken => throw .notOneDocument

/-- The text of a scalar, however it is written. -/
def textAs (expected : String) : Decoder String := fun path n => do
  match ← resolve n with
  | .scalar s _ => return s.text
  | n => mismatch expected path n

def text : Decoder String := textAs "a string"

/-- A value, or nothing for a plain scalar that is empty or one of the words for nothing. -/
def optional {α : Type} (d : Decoder α) : Decoder (Option α) := fun path n => do
  match ← resolve n with
  | .scalar s m =>
    let isNull := Plain.isNull s.text.toList
    if s.style = .plain then
      match s.tag with
      | none =>
        if s.text = "" || isNull then return none else return some (← d path (.scalar s m))
      | some t =>
        if t = standardTag "null" then
          if isNull then return none else fail (.wrongValue (.meaning (.text s.text)) "null")
        else return some (← d path (.scalar s m))
    else return some (← d path (.scalar s m))
  | n => return some (← d path n)

def items {α : Type} (d : Decoder α) (path : Path) : Nat → List Node → Decode (List α)
  | _, [] => return []
  | i, n :: rest => do
    let a ← d (.index i :: path) n
    return a :: (← items d path (i + 1) rest)

/-- Whether a scalar is plain and empty, which stands for a collection without entries. -/
def isNothing (s : Scalar) : Bool := s.style = .plain && s.text = ""

def list {α : Type} (d : Decoder α) : Decoder (List α) := fun path n => do
  match ← resolve n with
  | .sequence _ nodes m => placed path m (items d path 0 nodes)
  | .scalar s m => if isNothing s then return [] else mismatch "a sequence" path (.scalar s m)
  | n => mismatch "a sequence" path n

/-- The step to the value of a key. -/
def stepOf : Node → Step
  | .scalar s _ => .key s.text
  | _ => .unknown

/-- Keys and values of a mapping, each pair added to what the earlier ones gave. -/
def pairs {σ : Type} (key : Decoder String) (add : String → Path → Node → σ → Decode σ)
    (path : Path) : List Node → σ → Decode σ
  | [], acc => return acc
  | [_], _ => throw .notOneDocument
  | k :: v :: rest, acc => do
    let name ← key path k
    let acc ← add name (stepOf k :: path) v acc
    pairs key add path rest acc

/-- A mapping of texts to values, sorted by key; of equal keys the last counts. -/
def mapOf {α : Type} (d : Decoder α) : Decoder (Keyed α) := fun path n => do
  let add (name : String) (path : Path) (n : Node) (acc : Keyed α) := do
    return acc.insert name (← d path n)
  match ← resolve n with
  | .mapping _ entries m => placed path m (pairs text add path entries .empty)
  | .scalar s m => if isNothing s then return .empty else mismatch "a map" path (.scalar s m)
  | n => mismatch "a map" path n

/-- A value read from a mapping with fixed keys. `field` says how the value of a key changes what
    has been read; other keys do not count. `finish` makes the value of what has been read. -/
def record {σ α : Type} (expected : String) (field : String → Option (Path → Node → σ → Decode σ))
    (start : σ) (finish : σ → Except Problem α) : Decoder α := fun path n => do
  let add (name : String) (path : Path) (n : Node) (acc : List String × σ) :
      Decode (List String × σ) :=
    match field name with
    | none => if isBroken n then throw .notOneDocument else return acc
    | some set => do
      if acc.1.contains name then fail (.duplicateField name)
      return (name :: acc.1, ← set path n acc.2)
  let done (acc : σ) : Decode α :=
    match finish acc with
    | .ok a => return a
    | .error problem => fail problem
  match ← resolve n with
  | .mapping _ entries m =>
    placed path m do
      let acc ← pairs (textAs "field identifier") add path entries ([], start)
      done acc.2
  | .scalar s m =>
    if isNothing s then placed path m (done start) else mismatch expected path (.scalar s m)
  | n => mismatch expected path n

/-- An integer between the bounds. -/
def intBetween (low high : Int) (expected : String) : Decoder Int := fun path n => do
  match ← resolve n with
  | .scalar s m =>
    -- of texts that are not plain only a literal one with the tag is a number
    let isInt := s.style = .plain || (s.style = .literal && s.tag = some (standardTag "int"))
    match (Plain.int? s.text.toList).filter fun k : Int => isInt && -(Nat.pow 2 63) ≤ k && k < Nat.pow 2 63 with
    | some k =>
      if low ≤ k && k ≤ high then return k
      else failAt path m (.wrongValue (.meaning (.int k)) expected)
    | none => mismatch expected path (.scalar s m)
  | n => mismatch expected path n

/-- The name in a tag of the document's own. -/
def ownTag? (tag : Option String) : Option String :=
  match tag.map String.toList with
  | some ('!' :: name) => some (String.ofList name)
  | _ => none

/-- A value without content that a tag names: the node must be empty. -/
def taggedVariant {α : Type} (variants : List (String × α)) (name : String) (path : Path)
    (n : Node) : Decode α :=
  match variants.lookup name with
  | none => fail (.unknownVariant name (variants.map Prod.fst))
  | some a =>
    match n with
    | .scalar s m =>
      if s.style = .plain && (s.text = "" || Plain.isNull s.text.toList) then return a
      else failAt path m (.wrongValue (.meaning (.text s.text)) "null")
    | n => mismatch "unit" path n

/-- One of several values, by its name or by a tag. -/
def variant {α : Type} (variants : List (String × α)) : Decoder α := fun path n => do
  let choose (n : Node) : Decode α :=
    match n with
    | .scalar s m =>
      match ownTag? s.tag with
      | some name => taggedVariant variants name path n
      | none =>
        match variants.lookup s.text with
        | some a => return a
        | none => failAt path m (.unknownVariant s.text (variants.map Prod.fst))
    | .sequence tag _ _ | .mapping tag _ _ =>
      match ownTag? tag with
      | some name => taggedVariant variants name path n
      | none => mismatch "a YAML tag starting with '!'" path n
    | n => mismatch "" path n
  match n with
  | .alias _ m => placed path m (do choose (← resolve n))
  | n => choose n

end Decode

/-- The value of the one document that a text is. -/
def Document.decode {α : Type} (d : Decoder α) (document : Document) : Except Failure α := do
  let (a, _) ← ((d [] document.root).run document).run 0
  if document.alone then return a else throw .notOneDocument

def decodeText {α : Type} (d : Decoder α) (text : String) : Except Failure α :=
  (Document.ofText text).decode d

/-- Reads a value from bytes, which must be UTF-8. -/
def decodeBytes {α : Type} (d : Decoder α) (bytes : ByteArray) : Except Failure α :=
  match Text.decode? bytes with
  | some s => decodeText d s
  | none => throw .notOneDocument

end Scaffold.Yaml
