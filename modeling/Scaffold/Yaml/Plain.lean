import Scaffold.Yaml.Event
import Scaffold.Number.Decimal
import Scaffold.Json.Token
import Scaffold.Text.Digits

/-! What a plain scalar means when no text is asked for: nothing, a truth value, an integer, a
    floating point number, or a text after all. -/

namespace Scaffold.Yaml

inductive Floating where
  | infinity (negative : Bool)
  | notANumber
  | finite (x : Binary64)
  deriving DecidableEq

inductive Meaning where
  | unit
  | bool (b : Bool)
  | int (n : Int)
  | float (x : Floating)
  | text (s : String)
  deriving DecidableEq

namespace Plain

def isNull (s : List Char) : Bool :=
  ["null", "Null", "NULL", "~"].contains (String.ofList s)

def bool? (s : List Char) : Option Bool :=
  if ["true", "True", "TRUE"].contains (String.ofList s) then some true
  else if ["false", "False", "FALSE"].contains (String.ofList s) then some false
  else none

def digit? (base : Nat) (c : Char) : Option Nat :=
  (Text.hexValue? c).bind fun d => if d < base then some d else none

/-- The value of digits after the value `n`. -/
def digitsFrom (base n : Nat) : List Char → Option Nat
  | [] => some n
  | c :: rest => (digit? base c).bind fun d => digitsFrom base (n * base + d) rest

/-- A non-empty run of digits. -/
def digits? (base : Nat) (s : List Char) : Option Nat :=
  if s.isEmpty then none else digitsFrom base 0 s

/-- Digits behind one sign at most. -/
def signedDigits? (base : Nat) : List Char → Option Int
  | '-' :: s => (digits? base s).map fun n => -(n : Int)
  | '+' :: s => (digits? base s).map fun n => (n : Int)
  | s => (digits? base s).map fun n => (n : Int)

/-- Digits with a zero in front, which are no number. -/
def isZeroPadded (s : List Char) : Bool :=
  let s := match s with
    | '-' :: s => s
    | '+' :: s => s
    | s => s
  match s with
  | '0' :: rest => !rest.isEmpty && rest.all Char.isDigit
  | _ => false

def hasSign : List Char → Bool
  | c :: _ => c = '+' || c = '-'
  | [] => false

/-- The base that a letter after a zero stands for. -/
def base? (c : Char) : Option Nat :=
  if c = 'x' then some 16 else if c = 'o' then some 8 else if c = 'b' then some 2 else none

/-- The integer of a scalar, however large: decimal, or in base 16, 8 or 2 behind `0x`, `0o` or
    `0b`. -/
def int? (s : List Char) : Option Int :=
  let prefixed (body : List Char) : Option Int :=
    match body with
    | '0' :: c :: rest => (base? c).bind fun b => (digits? b rest).map fun n => (n : Int)
    | _ => none
  match s with
  | '-' :: rest =>
    match prefixed rest with
    | some n => some (-n)
    | none => if isZeroPadded s then none else (digits? 10 rest).map fun n => -(n : Int)
  | '+' :: rest =>
    if hasSign rest then none
    else
      (prefixed rest).or <|
        if isZeroPadded s then none else (digits? 10 rest).map fun n => (n : Int)
  | s => (prefixed s).or (if isZeroPadded s then none else (digits? 10 s).map fun n => (n : Int))

/-- The greatest magnitude of an integer that counts as one: 128 bits, with or without sign. -/
def isWide (n : Int) : Bool := -(Nat.pow 2 127) ≤ n && n < Nat.pow 2 128

/-- An exponent behind its letter, through the end. -/
def exponent? : List Char → Option Int
  | [] => some 0
  | e :: rest => if e = 'e' || e = 'E' then signedDigits? 10 rest else none

/-- A decimal number without sign: digits on at least one side of the point. -/
def decimal? (negative : Bool) (s : List Char) : Option Binary64 :=
  let (whole, rest) := s.span Char.isDigit
  let (part, rest) := match rest with
    | '.' :: rest => rest.span Char.isDigit
    | rest => ([], rest)
  if whole.isEmpty && part.isEmpty then none
  else (exponent? rest).bind fun e =>
    Binary64.ofDecimal? negative (Text.digitsValue (whole ++ part)) (e - part.length)

def float? (s : List Char) : Option Floating :=
  let unsigned := match s with
    | '+' :: rest => rest
    | _ => s
  if s.head? = some '+' && hasSign unsigned then none
  else if [".inf", ".Inf", ".INF"].contains (String.ofList unsigned) then some (.infinity false)
  else if ["-.inf", "-.Inf", "-.INF"].contains (String.ofList s) then some (.infinity true)
  else if [".nan", ".NaN", ".NAN"].contains (String.ofList s) then some .notANumber
  else match unsigned with
    | '-' :: rest => (decimal? true rest).map .finite
    | rest => (decimal? false rest).map .finite

def meaning (text : String) : Meaning :=
  let s := text.toList
  if s.isEmpty || isNull s then .unit
  else match bool? s with
    | some b => .bool b
    | none =>
      match (int? s).filter isWide with
      | some n => .int n
      | none =>
        if isZeroPadded s then .text text
        else match float? s with
          | some x => .float x
          | none => .text text

end Plain

/-- The text of a floating point number, with a point if it is finite. -/
def Floating.chars : Floating → List Char
  | .infinity negative => if negative then ['-', 'i', 'n', 'f'] else ['i', 'n', 'f']
  | .notANumber => ['N', 'a', 'N']
  | .finite x =>
    let s := (Decimal.shortest x).positional x.negative
    if s.contains '.' then s else s ++ ['.', '0']

end Scaffold.Yaml
