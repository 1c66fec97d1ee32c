import Scaffold.Number.Binary64

/-! Templates: text with tags for values, conditions, loops and assignments. -/

namespace Scaffold.Template

/-- A path to a value as it is written: a variable, and steps into its value by names and numbers
    after points or in brackets. -/
structure Path where
  text : List Char
  deriving DecidableEq

inductive MathOp where
  | add
  | mul
  | mod
  deriving DecidableEq

/-- Comparison and the connectives of truth values. -/
inductive LogicOp where
  | or
  | and
  | eq
  | ne
  deriving DecidableEq

mutual
/-- An expression: a value passed through filters, and then possibly negated. -/
inductive Expr where
  | mk (value : Value) (filters : List Call) (negated : Bool)

/-- A value before filters. -/
inductive Value where
  | str (s : String)
  | int (n : Int)
  | float (x : Binary64)
  | bool (b : Bool)
  | path (p : Path)
  | math (op : MathOp) (left right : Expr)
  | logic (op : LogicOp) (left right : Expr)
  | test (p : Path) (negated : Bool) (name : String)
  | call (c : Call)
  | array (items : List Expr)
  | concat (items : List Value)

/-- A function or filter with its named arguments. -/
inductive Call where
  | mk (name : String) (args : List (String × Expr))
end

/-- Whether a tag has a hyphen at its left and right end, which removes the blanks next to it. -/
structure Hyphens where
  left : Bool
  right : Bool
  deriving DecidableEq

inductive Node where
  | text (s : List Char)
  | comment (h : Hyphens)
  | raw (start : Hyphens) (s : List Char) (finish : Hyphens)
  | output (h : Hyphens) (e : Expr)
  | assign (h : Hyphens) (name : String) (e : Expr)
  | insertion (h : Hyphens) (names : List String) (ignoreMissing : Bool)
  | loop (start : Hyphens) (key : Option String) (value : String) (container : Expr)
      (body : List Node) (otherwise : Option (List Node)) (finish : Hyphens)
  /-- branches in turn; one without condition is the last -/
  | choice (branches : List (Hyphens × Option Expr × List Node)) (finish : Hyphens)

/-- The expression of a value alone. -/
def Value.toExpr (v : Value) : Expr := .mk v [] false

def Path.shown (p : Path) : String := String.ofList p.text

def Call.name : Call → String
  | .mk name _ => name

end Scaffold.Template
