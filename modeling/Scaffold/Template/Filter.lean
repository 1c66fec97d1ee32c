import Scaffold.Template.Context
import Scaffold.Text.Casing
import Scaffold.Text.Split

/-! The filters that every template can use, and what values look like in text. -/

namespace Scaffold.Template

/-- A text that a filter is called on. -/
def filterText (filter : String) (v : Json) : Except Failure (List Char) :=
  match v with
  | .str s => return s.toList
  | v => throw (.filterValue filter v)

def filterArgument (filter argument : String) (args : Arguments) : Except Failure (List Char) :=
  match args.lookup argument with
  | some (.str s) => return s.toList
  | some v => throw (.filterArgument filter argument v)
  | none => throw (.missingArgument filter argument)

/-- The filters that every template can use; none if there is no such filter. -/
def standardFilter? (name : String) (v : Json) (args : Arguments) : Option (Except Failure Json) :=
  let text (s : List Char) : Json := .str (String.ofList s)
  if name = "lower" then some do return text (Text.lowercase (← filterText name v))
  else if name = "upper" then some do return text (Text.uppercase (← filterText name v))
  else if name = "length" then
    some (match v with
      | .arr items => return .int items.length
      | .obj fields => return .int fields.length
      | .str s => return .int s.length
      | _ => throw .noLength)
  else if name = "replace" then some do
    let s ← filterText name v
    let old ← filterArgument name "from" args
    let new ← filterArgument name "to" args
    return text (Text.replaceAll old new s)
  else none

/-- Applies a filter; those of the context come first. -/
def applyFilter (ctx : Context) (name : String) (v : Json) (args : Arguments) :
    Except Failure Json :=
  match ctx.table.filters.lookup name with
  | some f => ((f v).mapError .refused).mapError (.filterCall name)
  | none =>
    match standardFilter? name v args with
    | some r => r.mapError (.filterCall name)
    | none => throw (.noFilter name)

def hasFilter (ctx : Context) (name : String) : Bool :=
  (ctx.table.filters.lookup name).isSome || (standardFilter? name .null []).isSome

mutual
/-- A value in the text of a template. -/
def showValue : Json → List Char
  | .null => []
  | .bool b => if b then ['t', 'r', 'u', 'e'] else ['f', 'a', 'l', 's', 'e']
  | .int n => (toString n).toList
  | .float x => (Decimal.shortest x).positional x.negative
  | .str s => s.toList
  | .arr items => '[' :: Text.joinWith [',', ' '] (showItems items) ++ [']']
  | .obj _ => ['[', 'o', 'b', 'j', 'e', 'c', 't', ']']

def showItems : List Json → List (List Char)
  | [] => []
  | v :: rest => showValue v :: showItems rest
end

/-- Whether a value counts as true. -/
def isTruthy : Json → Bool
  | .null => false
  | .bool b => b
  | .int n => n ≠ 0
  | .float x => x.mantissa ≠ 0
  | .str s => s ≠ ""
  | .arr items => !items.isEmpty
  | .obj fields => !fields.isEmpty

def double? : Json → Option Binary64
  | .int n => Binary64.ofInt? n
  | .float x => some x
  | _ => none

mutual
/-- Equality of values that are not both numbers. -/
def sameValue : Json → Json → Bool
  | .null, .null => true
  | .bool a, .bool b => a == b
  | .int m, .int n => m == n
  | .float x, .float y => x.same y
  | .str s, .str t => s == t
  | .arr xs, .arr ys => sameItems xs ys
  | .obj fs, .obj gs => sameFields fs gs
  | _, _ => false

def sameItems : List Json → List Json → Bool
  | [], [] => true
  | x :: xs, y :: ys => sameValue x y && sameItems xs ys
  | _, _ => false

def sameFields : List (String × Json) → List (String × Json) → Bool
  | [], [] => true
  | (k, x) :: fs, (l, y) :: gs => k == l && sameValue x y && sameFields fs gs
  | _, _ => false
end

/-- Whether two values are equal: numbers by size. A number and anything else cannot be compared. -/
def equal? (a b : Json) : Option Bool :=
  match double? a, double? b with
  | some x, some y => some (x.same y)
  | none, none => some (sameValue a b)
  | _, _ => none

end Scaffold.Template
