import Scaffold.Template.Scope
import Scaffold.Template.Filter

/-! The value of an expression. -/

namespace Scaffold.Template

/-- Where an expression is evaluated: the template's name, the scopes and the context. -/
structure Env where
  template : String
  scopes : Scopes
  ctx : Context

def Value.isPath : Value → Bool
  | .path _ => true
  | _ => false

def Value.isConcat : Value → Bool
  | .concat _ => true
  | _ => false

def hasDefault : List Call → Bool
  | .mk name _ :: _ => name = "default"
  | [] => false

/-- The value of an expression from its parts: that of `base`, or of `default` if a path leads
    nowhere, passed through filters and negated. A negated path may lead nowhere. -/
def settle (isPath negated withDefault : Bool) (base : Except Failure Json)
    (default : Unit → Except Failure Json) (filters : Json → Except Failure Json) :
    Except Failure Json :=
  let finish (v : Json) : Except Failure Json := do
    let v ← filters v
    return if negated then .bool (!isTruthy v) else v
  match base with
  | .ok .null => if isPath && withDefault then default () >>= finish else finish .null
  | .ok v => finish v
  | .error e =>
    if isPath && withDefault then default () >>= finish
    else if isPath && negated then .ok (.bool true)
    else .error e

/-- A number with 64 bits; otherwise the operation is out of bounds. -/
def checked (left : Int) (sign : String) (right n : Int) : Except Failure (Option Json) :=
  if -(Nat.pow 2 63) ≤ n && n < Nat.pow 2 63 then return some (.int n) else throw (.outOfBounds left sign right)

/-- Arithmetic on two numbers: exact on whole numbers. None is no number. A whole number has no
    remainder by zero. -/
def calculate (op : MathOp) (byZero : Failure) (a b : Json) : Except Failure (Option Json) :=
  match a, b with
  | .int m, .int n =>
    match op with
    | .add => checked m "+" n (m + n)
    | .mul => checked m "x" n (m * n)
    | .mod => if n = 0 then throw byZero else return some (.int (m.tmod n))
  | a, b =>
    match double? a, double? b with
    | some x, some y =>
      let z := match op with
        | .add => x.add? y
        | .mul => x.mul? y
        | .mod => x.mod? y
      return z.map .float
    | _, _ => return none

def number? (v : Json) (e : Failure) : Except Failure (Option Json) :=
  match v with
  | .int n => return some (.int n)
  | .float x => return some (.float x)
  | _ => throw e

/-- What a value adds to a concatenation: texts and numbers have a text. -/
def concatText (v : Json) (e : Failure) : Except Failure (List Char) :=
  match v with
  | .str s => return s.toList
  | .int n => return (toString n).toList
  | .float x => return (Decimal.shortest x).scientific x.negative
  | _ => throw e

def applyFunction (ctx : Context) (name : String) (args : Arguments) : Except Failure Json :=
  match ctx.table.call? name args with
  | some r => (r.mapError .refused).mapError (.functionCall name)
  | none => throw (.noFunction name)

/-- The outcome of a test on a path: whether it leads somewhere. -/
def applyTest (env : Env) (p : Path) (negated : Bool) (name : String) : Except Failure Bool :=
  let found := (lookup env.template env.scopes env.ctx p).isOk
  if name = "defined" then return found != negated
  else if name = "undefined" then return found == negated
  else throw (.noTest name)

/-- A comparison of values, or a connective whose right side counts only if the left side leaves it
    open. None is a comparison of values that cannot be compared. -/
def connect (op : LogicOp) (l r : Unit → Except Failure Bool) (a b : Unit → Except Failure Json) :
    Except Failure (Option Bool) :=
  match op with
  | .or => do if ← l () then return some true else return some (← r ())
  | .and => do if ← l () then return some (← r ()) else return some false
  | .eq => do return equal? (← a ()) (← b ())
  | .ne => do return (equal? (← a ()) (← b ())).map (!·)

/-- A truth value as it is or negated. A comparison of values that cannot be compared does not hold,
    and neither does its negation. -/
def outcome (negated : Bool) (truth : Option Bool) : Bool := truth.any (· != negated)

mutual
/-- The value of an expression. A logical expression is negated once more than it says: as a truth
    value and then as a value. -/
def evalExpr (env : Env) : Expr → Except Failure Json
  | .mk v filters negated =>
    settle v.isPath negated (hasDefault filters) (evalValue env negated v)
      (fun _ => evalDefault env filters) (fun x => evalFilters env x filters)

/-- A value before filters; of these only a logical expression is negated here. -/
def evalValue (env : Env) (negated : Bool) : Value → Except Failure Json
  | .str s => return .str s
  | .int n => return .int n
  | .float x => return .float x
  | .bool b => return .bool b
  | .path p => lookup env.template env.scopes env.ctx p
  | .math op l r => do
    let number := do
      match ← evalNumber env l, ← evalNumber env r with
      | some a, some b => calculate op (.moduloByZero l r) a b
      | _, _ => return none
    return (← number.mapError .arithmetic).getD (.str "NaN")
  | .logic op l r => do
    return .bool (outcome negated
      (← connect op (fun _ => evalBool env l) (fun _ => evalBool env r)
        (fun _ => evalExpr env l) (fun _ => evalExpr env r)))
  | .test p otherwise name => do return .bool (← applyTest env p otherwise name)
  | .call c => evalCall env c
  | .array items => do return .arr (← evalItems env items)
  | .concat parts => do return .str (String.ofList (← evalConcat env parts))

def evalItems (env : Env) : List Expr → Except Failure (List Json)
  | [] => return []
  | e :: rest => do return (← evalExpr env e) :: (← evalItems env rest)

def evalConcat (env : Env) : List Value → Except Failure (List Char)
  | [] => return []
  | v :: rest => do
    let text ← match v with
      | .float x => pure ((Decimal.shortest x).positional x.negative)
      | .path p => do
        concatText (← lookup env.template env.scopes env.ctx p) (.concatPath p.shown)
      | .call c => do concatText (← evalCall env c) (.concatFunction c.name)
      | v => do concatText (← evalValue env false v) .mathOnOther
    return text ++ (← evalConcat env rest)

def evalArguments (env : Env) : List (String × Expr) → Except Failure Arguments
  | [] => return []
  | (name, e) :: rest => do return (name, ← evalExpr env e) :: (← evalArguments env rest)

def evalCall (env : Env) : Call → Except Failure Json
  | .mk name args => do
    if (env.ctx.table.functions.lookup name).isNone then throw (.noFunction name)
    applyFunction env.ctx name (← (evalArguments env args).mapError (.functionCall name))

/-- A value passed through filters; a default has had its turn before. -/
def evalFilters (env : Env) (v : Json) : List Call → Except Failure Json
  | [] => return v
  | .mk name args :: rest => do
    if name = "default" || name = "safe" then evalFilters env v rest
    else if !hasFilter env.ctx name then throw (.noFilter name)
    else
      let args ← (evalArguments env args).mapError (.filterCall name)
      evalFilters env (← applyFilter env.ctx name v args) rest

/-- The default that the first filter supplies. -/
def evalDefault (env : Env) : List Call → Except Failure Json
  | [] => throw .noDefault
  | .mk _ args :: _ => evalNamed env "value" args

def evalNamed (env : Env) (wanted : String) : List (String × Expr) → Except Failure Json
  | [] => throw .noDefault
  | (name, e) :: rest => if name = wanted then evalExpr env e else evalNamed env wanted rest

/-- Whether an expression holds. A path that leads nowhere does not. -/
def evalBool (env : Env) : Expr → Except Failure Bool
  | .mk v filters negated =>
    if v.isPath || v.isConcat then
      let value := settle v.isPath negated (hasDefault filters) (evalValue env negated v)
        (fun _ => evalDefault env filters) (fun x => evalFilters env x filters)
      if v.isPath then .ok (value.toOption.any isTruthy) else value.map isTruthy
    else (evalTruth env v).map (outcome negated)

/-- Whether a value holds; filters do not count. None is a comparison of values that cannot be
    compared. -/
def evalTruth (env : Env) : Value → Except Failure (Option Bool)
  | .logic op l r =>
    connect op (fun _ => evalBool env l) (fun _ => evalBool env r) (fun _ => evalExpr env l)
      (fun _ => evalExpr env r)
  | .test p negated name => do return some (← applyTest env p negated name)
  | .bool b => return some b
  | .str s => return some (s ≠ "")
  | .call c => do
    match ← evalCall env c with
    | .bool b => return some b
    | _ => throw (.notBoolean c.name)
  | .int n => return some (n ≠ 0)
  | .float x => return some (x.mantissa ≠ 0)
  | .path p => do return some (isTruthy (← lookup env.template env.scopes env.ctx p))
  | .math op l r => do
    match ← evalNumber env l, ← evalNumber env r with
    | some a, some b => return some ((← calculate op (.moduloByZero l r) a b).any isTruthy)
    | _, _ => return some false
  | .array items => do return some (!(← evalItems env items).isEmpty)
  | .concat parts => do return some (!(← evalConcat env parts).isEmpty)

def evalNumber (env : Env) : Expr → Except Failure (Option Json)
  | .mk v filters negated => do
    if !filters.isEmpty then
      let value ← settle v.isPath negated (hasDefault filters) (evalValue env negated v)
        (fun _ => evalDefault env filters) (fun x => evalFilters env x filters)
      number? value .filteredNotNumber
    else match v with
      | .path p => do
        number? (← lookup env.template env.scopes env.ctx p) (.notNumber p.shown)
      | .call c => do number? (← evalCall env c) (.functionNotNumber c.name)
      | .math op l r => do
        match ← evalNumber env l, ← evalNumber env r with
        | some a, some b => calculate op (.moduloByZero l r) a b
        | _, _ => return none
      | .int n => return some (.int n)
      | .float x => return some (.float x)
      | .str s => throw (.mathOnText s)
      | .bool b => throw (.mathOnBool b)
      | .test _ _ name => throw (.mathOnTest name)
      | _ => throw .mathOnOther
end

end Scaffold.Template
