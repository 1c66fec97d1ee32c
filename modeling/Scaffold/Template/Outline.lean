import Scaffold.Template.Syntax
import Scaffold.Number.Decimal
import Scaffold.Text.Quoted

/-! The structure of an expression in a message: every part is a record of its fields, or a list,
    and no parenthesis of the template is left. -/

namespace Scaffold.Template

namespace Outline

/-- A text in quotes. -/
def quoted (s : String) : String := String.ofList (Text.quoted s.toList)

def truth (b : Bool) : String := if b then "true" else "false"

def list (items : List String) : String := "[" ++ String.intercalate ", " items ++ "]"

/-- A record with its name and named fields. -/
def record (name : String) (fields : List (String × String)) : String :=
  name ++ " \x7b " ++ String.intercalate ", " (fields.map fun (key, value) => key ++ ": " ++ value)
    ++ " \x7d"

/-- Quoted keys with their values. -/
def table (entries : List (String × String)) : String :=
  "\x7b" ++ String.intercalate ", " (entries.map fun (key, value) => quoted key ++ ": " ++ value)
    ++ "\x7d"

/-- The kind of a value, and the value in parentheses. -/
def tagged (kind value : String) : String := kind ++ "(" ++ value ++ ")"

end Outline

def MathOp.outline : MathOp → String
  | .add => "Add"
  | .mul => "Mul"
  | .mod => "Modulo"

def LogicOp.outline : LogicOp → String
  | .or => "Or"
  | .and => "And"
  | .eq => "Eq"
  | .ne => "NotEq"

mutual
/-- An expression as a record: its value, whether it is negated, and its filters. -/
def Expr.outline : Expr → String
  | .mk value filters negated =>
    Outline.record "Expr"
      [("val", value.outline), ("negated", Outline.truth negated),
        ("filters", Outline.list (callOutlines filters))]

def Value.outline : Value → String
  | .str s => Outline.tagged "String" (Outline.quoted s)
  | .int n => Outline.tagged "Int" (toString n)
  | .float x =>
    Outline.tagged "Float" (String.ofList ((Decimal.shortest x).general x.negative))
  | .bool b => Outline.tagged "Bool" (Outline.truth b)
  | .path p => Outline.tagged "Ident" (Outline.quoted p.shown)
  | .math op l r =>
    Outline.tagged "Math" (Outline.record "MathExpr"
      [("lhs", l.outline), ("rhs", r.outline), ("operator", op.outline)])
  | .logic op l r =>
    Outline.tagged "Logic" (Outline.record "LogicExpr"
      [("lhs", l.outline), ("rhs", r.outline), ("operator", op.outline)])
  | .test p negated name =>
    Outline.tagged "Test" (Outline.record "Test"
      [("ident", Outline.quoted p.shown), ("negated", Outline.truth negated),
        ("name", Outline.quoted name), ("args", Outline.list [])])
  | .call c => Outline.tagged "FunctionCall" c.outline
  | .array items => Outline.tagged "Array" (Outline.list (exprOutlines items))
  | .concat parts =>
    Outline.tagged "StringConcat" (Outline.record "StringConcat"
      [("values", Outline.list (valueOutlines parts))])

/-- A function or filter as a record: its name and its arguments. -/
def Call.outline : Call → String
  | .mk name args =>
    Outline.record "FunctionCall"
      [("name", Outline.quoted name), ("args", Outline.table (argumentOutlines args))]

def callOutlines : List Call → List String
  | [] => []
  | c :: rest => c.outline :: callOutlines rest

def exprOutlines : List Expr → List String
  | [] => []
  | e :: rest => e.outline :: exprOutlines rest

def valueOutlines : List Value → List String
  | [] => []
  | v :: rest => v.outline :: valueOutlines rest

def argumentOutlines : List (String × Expr) → List (String × String)
  | [] => []
  | (name, e) :: rest => (name, e.outline) :: argumentOutlines rest
end

end Scaffold.Template
