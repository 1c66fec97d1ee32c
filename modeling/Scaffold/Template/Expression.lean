import Scaffold.Template.Syntax
import Scaffold.Json.Token
import Scaffold.Text.Digits

/-! Reading the expressions in tags. Alternatives are tried in order and the first that fits is
    kept. Every rule takes a bound on how deep rules may nest. -/

namespace Scaffold.Template.Expression

def isSpace (c : Char) : Bool := c = ' ' || c = '\t' || c = '\r' || c = '\n'

def skip (s : List Char) : List Char := s.dropWhile isSpace

/-- What follows `word` in a text that begins with it. -/
def literal? (word s : List Char) : Option (List Char) :=
  if word.isPrefixOf s then some (s.drop word.length) else none

def startsName (c : Char) : Bool := c.isAlpha || c = '_'

def isNameChar (c : Char) : Bool := c.isAlphanum || c = '_'

def name? (s : List Char) : Option (String × List Char) :=
  match s with
  | [] => none
  | c :: rest =>
    if startsName c then
      some (String.ofList (c :: rest.takeWhile isNameChar), rest.dropWhile isNameChar)
    else none

/-- A text in one of the three kinds of quotes: the quote and the text. -/
def quoted? (s : List Char) : Option (Char × List Char × List Char) :=
  match s with
  | [] => none
  | q :: rest =>
    if q = '"' || q = '\'' || q = '`' then
      match rest.span (· ≠ q) with
      | (text, _ :: rest) => some (q, text, rest)
      | (_, []) => none
    else none

/-- The digits of a whole number: zero, or digits without a zero in front. -/
def wholeDigits? (s : List Char) : Option (List Char × List Char) :=
  match s with
  | '0' :: rest => some (['0'], rest)
  | c :: rest =>
    if c.isDigit then some (c :: rest.takeWhile Char.isDigit, rest.dropWhile Char.isDigit) else none
  | [] => none

/-- A whole number as it is written, with its sign. -/
def wholeText? (s : List Char) : Option (List Char × List Char) :=
  match s with
  | '-' :: rest => (wholeDigits? rest).map fun (ds, rest) => ('-' :: ds, rest)
  | s => wholeDigits? s

/-- A number with a point or a whole number; whole numbers have 64 bits. -/
def number? (s : List Char) : Option (Value × List Char) := do
  let (whole, rest) ← wholeText? s
  let negative := whole.head? = some '-'
  let digits := if negative then whole.drop 1 else whole
  let part := match rest with
    | '.' :: after => after.takeWhile Char.isDigit
    | _ => []
  if part.isEmpty then
    let n : Int := Text.digitsValue digits
    let n := if negative then -n else n
    if -(Nat.pow 2 63) ≤ n && n < Nat.pow 2 63 then return (.int n, rest) else none
  else
    let x ← Binary64.ofDecimal? negative (Text.digitsValue (digits ++ part)) (-(part.length : Int))
    return (.float x, rest.drop (part.length + 1))

/-- A truth value; a name that begins like one is taken for it. -/
def bool? (s : List Char) : Option (Bool × List Char) :=
  ((literal? "true".toList s).or (literal? "True".toList s)).map (fun rest => (true, rest)) |>.or
    (((literal? "false".toList s).or (literal? "False".toList s)).map fun rest => (false, rest))

/-- The steps of a path as they are written, and what follows them. -/
def steps : Nat → List Char → List Char × List Char
  | 0, s => ([], s)
  | depth + 1, s =>
    match s with
    | '.' :: rest =>
      let name := rest.takeWhile isNameChar
      if name.isEmpty then ([], s)
      else
        let (more, rest) := steps depth (rest.dropWhile isNameChar)
        ('.' :: name ++ more, rest)
    | '[' :: rest =>
      -- in brackets there is a number, a text in quotes, or a path
      let inner : Option (List Char × List Char) :=
        match wholeText? rest with
        | some (digits, after) => some (digits, after)
        | none =>
          match quoted? rest with
          | some (q, text, after) => some (q :: text ++ [q], after)
          | none =>
            match name? rest with
            | some (root, after) =>
              let (inside, after) := steps depth after
              some (root.toList ++ inside, after)
            | none => none
      match inner with
      | some (text, ']' :: after) =>
        let (more, rest) := steps depth after
        ('[' :: text ++ ']' :: more, rest)
      | _ => ([], s)
    | _ => ([], s)

def path? (depth : Nat) (s : List Char) : Option (Path × List Char) := do
  let (root, rest) ← name? s
  let (inside, rest) := steps depth rest
  return (⟨root.toList ++ inside⟩, rest)

/-- A test of a path, such as `x is not defined`. -/
def test? (depth : Nat) (s : List Char) : Option (Value × List Char) := do
  let (p, rest) ← path? depth s
  let rest ← literal? "is".toList (skip rest)
  let rest := skip rest
  let negated := (literal? "not".toList rest).bind fun rest => name? (skip rest)
  match negated with
  | some (name, rest) => return (.test p true name, rest)
  | none =>
    let (name, rest) ← name? rest
    return (.test p false name, rest)

/-- What follows a comma and a closing bracket: items that are none may have a comma too. -/
def loneComma? (s : List Char) : Option (List Char) := do
  literal? [']'] (skip (← literal? [','] (skip s)))

/-- A connective with the blank that must follow it. -/
def connective? (word : String) (s : List Char) : Option (List Char) := do
  let rest ← literal? word.toList s
  if rest.head?.any isSpace then return skip rest else none

def mathOp? (s : List Char) : Option (MathOp × List Char) :=
  match s with
  | '+' :: rest => some (.add, rest)
  | '*' :: rest => some (.mul, rest)
  | '%' :: rest => some (.mod, rest)
  | _ => none

/-- The sum of products; products bind first, and equal operators from the left. `sum` and `product`
    have been read so far. -/
def climb (sum : Option Expr) (product : Expr) : List (MathOp × Expr) → Expr
  | [] => match sum with
    | some s => (Value.math .add s product).toExpr
    | none => product
  | (.add, e) :: rest =>
    climb (some (match sum with
      | some s => (Value.math .add s product).toExpr
      | none => product)) e rest
  | (op, e) :: rest => climb sum (Value.math op product e).toExpr rest

/-- Disjunction of conjunctions. `disjunction` and `conjunction` have been read so far. -/
def climbLogic (disjunction : Option Expr) (conjunction : Expr) : List (LogicOp × Expr) → Expr
  | [] => match disjunction with
    | some d => (Value.logic .or d conjunction).toExpr
    | none => conjunction
  | (.or, e) :: rest =>
    climbLogic (some (match disjunction with
      | some d => (Value.logic .or d conjunction).toExpr
      | none => conjunction)) e rest
  | (op, e) :: rest => climbLogic disjunction (Value.logic op conjunction e).toExpr rest

/-- The negation of an expression, or its affirmation. -/
def withNegation (negated : Bool) : Expr → Expr
  | .mk v filters _ => .mk v filters negated

/-- Texts next to each other as one; `text` has been joined so far. -/
def joinTexts (text : String) : List Value → List Value
  | [] => if text = "" then [] else [.str text]
  | .str s :: rest => joinTexts (text ++ s) rest
  | v :: rest => (if text = "" then [v] else [.str text, v]) ++ joinTexts "" rest

/-- The concatenation of parts; parts that are all texts are one text. -/
def concatenation (parts : List Value) : Value :=
  match joinTexts "" parts with
  | [] => .str ""
  | [.str s] => .str s
  | parts => .concat parts

/-- Of arguments of one name the last. -/
def lastArguments : List (String × Expr) → List (String × Expr)
  | [] => []
  | (name, e) :: rest =>
    if rest.any (·.1 = name) then lastArguments rest else (name, e) :: lastArguments rest

mutual
/-- Named arguments with commas between them, through the closing parenthesis. -/
def arguments : Nat → List Char → Option (List (String × Expr) × List Char)
  | 0, _ => none
  | depth + 1, s =>
    match literal? [')'] (skip s) with
    | some rest => some ([], rest)
    | none => do
      let (name, rest) ← name? (skip s)
      let rest ← literal? ['='] (skip rest)
      let (e, rest) ← expression depth (skip rest)
      match literal? [','] (skip rest) with
      | some rest =>
        let (more, rest) ← arguments depth rest
        return ((name, e) :: more, rest)
      | none =>
        let rest ← literal? [')'] (skip rest)
        return ([(name, e)], rest)

def call : Nat → List Char → Option (Call × List Char)
  | 0, _ => none
  | depth + 1, s => do
    let (name, rest) ← name? s
    let rest ← literal? ['('] (skip rest)
    if (literal? [','] (skip rest)).isSome then none
    let (args, rest) ← arguments depth rest
    return (.mk name (lastArguments args), rest)

def filters : Nat → List Char → List Call × List Char
  | 0, s => ([], s)
  | depth + 1, s =>
    let filter : Option (Call × List Char) := do
      let rest ← literal? ['|'] (skip s)
      let rest := skip rest
      (call depth rest).or ((name? rest).map fun (name, rest) => (.mk name [], rest))
    match filter with
    | some (f, rest) =>
      let (more, rest) := filters depth rest
      (f :: more, rest)
    | none => ([], s)

def operand : Nat → List Char → Option (Expr × List Char)
  | 0, _ => none
  | depth + 1, s =>
    let group : Option (Expr × List Char) := do
      let rest ← literal? ['('] s
      let (e, rest) ← arithmetic depth (skip rest)
      let rest ← literal? [')'] (skip rest)
      return (e, rest)
    let plain : Option (Value × List Char) :=
      ((bool? s).map fun (b, rest) => (.bool b, rest)) |>.or (test? depth s)
        |>.or ((call depth s).map fun (c, rest) => (.call c, rest))
        |>.or ((path? depth s).map fun (p, rest) => (.path p, rest))
        |>.or (number? s)
    group.or (plain.map fun (v, rest) => (v.toExpr, rest))

def operands : Nat → List Char → List (MathOp × Expr) × List Char
  | 0, s => ([], s)
  | depth + 1, s =>
    let next : Option (MathOp × Expr × List Char) := do
      let (op, rest) ← mathOp? (skip s)
      let (e, rest) ← operand depth (skip rest)
      return (op, e, rest)
    match next with
    | some (op, e, rest) =>
      let (more, rest) := operands depth rest
      ((op, e) :: more, rest)
    | none => ([], s)

def arithmetic : Nat → List Char → Option (Expr × List Char)
  | 0, _ => none
  | depth + 1, s => do
    let (first, rest) ← operand depth s
    let (more, rest) := operands depth rest
    return (climb none first more, rest)

def filtered : Nat → List Char → Option (Expr × List Char)
  | 0, _ => none
  | depth + 1, s => do
    let (.mk v fs negated, rest) ← arithmetic depth s
    let (more, rest) := filters depth rest
    return (.mk v (fs ++ more) negated, rest)

/-- Operators with filtered arithmetic behind a first one. -/
def filteredOperands : Nat → List Char → List (MathOp × Expr) × List Char
  | 0, s => ([], s)
  | depth + 1, s =>
    let next : Option (MathOp × Expr × List Char) := do
      let (op, rest) ← mathOp? (skip s)
      let (e, rest) ← filtered depth (skip rest)
      return (op, e, rest)
    match next with
    | some (op, e, rest) =>
      let (more, rest) := filteredOperands depth rest
      ((op, e) :: more, rest)
    | none => ([], s)

def concatPart : Nat → List Char → Option (Value × List Char)
  | 0, _ => none
  | depth + 1, s =>
    ((call depth s).map fun (c, rest) => (.call c, rest)) |>.or (number? s)
      |>.or ((quoted? s).map fun (_, text, rest) => (.str (String.ofList text), rest))
      |>.or ((path? depth s).map fun (p, rest) => (.path p, rest))

def concatParts : Nat → List Char → List Value × List Char
  | 0, s => ([], s)
  | depth + 1, s =>
    let next : Option (Value × List Char) := do
      let rest ← literal? ['~'] (skip s)
      concatPart depth (skip rest)
    match next with
    | some (v, rest) =>
      let (more, rest) := concatParts depth rest
      (v :: more, rest)
    | none => ([], s)

/-- A concatenation or a text, passed through filters. -/
def textual : Nat → List Char → Option (Expr × List Char)
  | 0, _ => none
  | depth + 1, s => do
    let joined : Option (Value × List Char) := do
      let (first, rest) ← concatPart depth s
      match concatParts depth rest with
      | ([], _) => none
      | (more, rest) => return (concatenation (first :: more), rest)
    let alone : Option (Value × List Char) :=
      (quoted? s).map fun (_, text, rest) => (.str (String.ofList text), rest)
    let (v, rest) ← joined.or alone
    let (fs, rest) := filters depth rest
    return (.mk v fs false, rest)

def side : Nat → List Char → Option (Expr × List Char)
  | 0, _ => none
  | depth + 1, s =>
    (textual depth s).or do
      let (first, rest) ← filtered depth s
      let (more, rest) := filteredOperands depth rest
      return (climb none first more, rest)

/-- A comparison, or one side alone. -/
def comparison : Nat → List Char → Option (Expr × List Char)
  | 0, _ => none
  | depth + 1, s => do
    let (left, rest) ← side depth s
    let compared : Option (Expr × List Char) := do
      let (op, after) ← ((literal? ['=', '='] (skip rest)).map fun after => (LogicOp.eq, after)).or
        ((literal? ['!', '='] (skip rest)).map fun after => (LogicOp.ne, after))
      let (right, after) ← side depth (skip after)
      return ((Value.logic op left right).toExpr, after)
    return compared.getD (left, rest)

/-- A comparison, possibly negated, or a logical expression in parentheses, which loses a negation
    of its own. -/
def logicOperand : Nat → List Char → Option (Expr × List Char)
  | 0, _ => none
  | depth + 1, s =>
    match connective? "not" s with
    | some rest => (comparison depth rest).map fun (e, rest) => (withNegation true e, rest)
    | none =>
      let group : Option (Expr × List Char) := do
        let rest ← literal? ['('] s
        let (e, rest) ← logic depth (skip rest)
        let rest ← literal? [')'] (skip rest)
        return (withNegation false e, rest)
      (comparison depth s).or group

def logicOperands : Nat → List Char → List (LogicOp × Expr) × List Char
  | 0, s => ([], s)
  | depth + 1, s =>
    let next : Option (LogicOp × Expr × List Char) := do
      let (op, rest) ← ((connective? "or" (skip s)).map fun rest => (LogicOp.or, rest)).or
        ((connective? "and" (skip s)).map fun rest => (LogicOp.and, rest))
      let (e, rest) ← logicOperand depth rest
      return (op, e, rest)
    match next with
    | some (op, e, rest) =>
      let (more, rest) := logicOperands depth rest
      ((op, e) :: more, rest)
    | none => ([], s)

def logic : Nat → List Char → Option (Expr × List Char)
  | 0, _ => none
  | depth + 1, s => do
    let (first, rest) ← logicOperand depth s
    let (more, rest) := logicOperands depth rest
    return (climbLogic none first more, rest)

def arrayItems : Nat → List Char → Option (List Expr × List Char)
  | 0, _ => none
  | depth + 1, s =>
    match literal? [']'] (skip s) with
    | some rest => some ([], rest)
    | none => do
      let (e, rest) ← logicOperand depth (skip s)
      match literal? [','] (skip rest) with
      | some rest =>
        let (more, rest) ← arrayItems depth rest
        return (e :: more, rest)
      | none =>
        let rest ← literal? [']'] (skip rest)
        return ([e], rest)

def array : Nat → List Char → Option (Expr × List Char)
  | 0, _ => none
  | depth + 1, s => do
    let rest ← literal? ['['] s
    let (items, rest) ← ((loneComma? rest).map fun rest => ([], rest)).or (arrayItems depth rest)
    let (fs, rest) := filters depth rest
    return (.mk (.array items) fs false, rest)

/-- A logical expression or an array. -/
def expression : Nat → List Char → Option (Expr × List Char)
  | 0, _ => none
  | depth + 1, s => (logic depth s).or (array depth s)
end

end Scaffold.Template.Expression
