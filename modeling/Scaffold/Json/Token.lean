import Scaffold.Json.Basic
import Scaffold.Text.Digits

/-! The tokens of JSON text, read by a machine that takes one character at a time. -/

namespace Scaffold.Json

/-- A token; strings, numbers and the three words are documents of their own. -/
inductive Token where
  | openObject
  | closeObject
  | openArray
  | closeArray
  | comma
  | colon
  | atom (v : Json)

/-- What the machine is in the middle of; texts are kept in reverse. -/
inductive Reading where
  | between
  /-- a number or one of the words -/
  | bare (text : List Char)
  | string (text : List Char)
  | escape (text : List Char)
  /-- there are `left` hexadecimal digits missing; `high` is the first half of a pair -/
  | hex (text : List Char) (high : Option Nat) (value left : Nat)
  | pairBackslash (text : List Char) (high : Nat)
  | pairLetter (text : List Char) (high : Nat)

/-- The digits at the start and what follows them. -/
def digits (s : List Char) : List Char × List Char := s.span Char.isDigit

/-- An optional exponent that ends the number. -/
def exponent? : List Char → Option Int
  | [] => some 0
  | e :: rest =>
    if e = 'e' || e = 'E' then
      let (negative, rest) := match rest with
        | '-' :: rest => (true, rest)
        | '+' :: rest => (false, rest)
        | rest => (false, rest)
      match digits rest with
      | ([], _) => none
      | (ds, []) => some (if negative then -(Text.digitsValue ds : Int) else Text.digitsValue ds)
      | _ => none
    else none

/-- The number after its sign: whole numbers of 64 bits are kept exactly. -/
def unsignedNumber? (negative : Bool) (s : List Char) : Option Json :=
  match digits s with
  | ([], _) => none
  | (whole, rest) =>
    if 1 < whole.length && whole.head? = some '0' then none
    else
      let float (mantissa : Nat) (exponent : Int) : Option Json :=
        (Binary64.ofDecimal? negative mantissa exponent).map .float
      match rest with
      | [] =>
        let n := Text.digitsValue whole
        -- what does not fit into 64 bits is a float, and so is a zero with a minus sign
        if negative then if 0 < n && n ≤ Nat.pow 2 63 then some (.int (-n)) else float n 0
        else if n < Nat.pow 2 64 then some (.int n) else float n 0
      | '.' :: rest =>
        match digits rest with
        | ([], _) => none
        | (part, rest) =>
          (exponent? rest).bind fun e => float (Text.digitsValue (whole ++ part)) (e - part.length)
      | rest => (exponent? rest).bind fun e => float (Text.digitsValue whole) e

/-- The value of a text that is not in quotes. -/
def bareValue? : List Char → Option Json
  | ['n', 'u', 'l', 'l'] => some .null
  | ['t', 'r', 'u', 'e'] => some (.bool true)
  | ['f', 'a', 'l', 's', 'e'] => some (.bool false)
  | '-' :: rest => unsignedNumber? true rest
  | s => unsignedNumber? false s

def isBare (c : Char) : Bool := c.isAlphanum || c = '-' || c = '+' || c = '.'

/-- The character that stands for `c` after a backslash. -/
def unescaped? (c : Char) : Option Char :=
  if c = '"' then some '"' else if c = '\\' then some '\\' else if c = '/' then some '/'
  else if c = 'b' then some '\x08' else if c = 'f' then some '\x0c' else if c = 'n' then some '\n'
  else if c = 'r' then some '\r' else if c = 't' then some '\t' else none

/-- A four-digit escape is complete. -/
def afterHex (text : List Char) (high : Option Nat) (value : Nat) : Option Reading :=
  match high with
  | none =>
    if 0xDC00 ≤ value && value < 0xE000 then none
    else if 0xD800 ≤ value && value < 0xDC00 then some (.pairBackslash text value)
    else some (.string (Char.ofNat value :: text))
  | some h =>
    if 0xDC00 ≤ value && value < 0xE000 then
      some (.string (Char.ofNat (0x10000 + (h - 0xD800) * 0x400 + (value - 0xDC00)) :: text))
    else none

/-- One character outside strings, numbers and words. -/
def stepBetween (c : Char) : Option (Reading × List Token) :=
  if c = ' ' || c = '\t' || c = '\n' || c = '\r' then some (.between, [])
  else if c = '\x7b' then some (.between, [.openObject])
  else if c = '\x7d' then some (.between, [.closeObject])
  else if c = '[' then some (.between, [.openArray])
  else if c = ']' then some (.between, [.closeArray])
  else if c = ',' then some (.between, [.comma])
  else if c = ':' then some (.between, [.colon])
  else if c = '"' then some (.string [], [])
  else if isBare c then some (.bare [c], [])
  else none

def step (r : Reading) (c : Char) : Option (Reading × List Token) :=
  match r with
  | .between => stepBetween c
  | .bare text =>
    if isBare c then some (.bare (c :: text), [])
    else do
      -- only the next character shows where a bare word ends, and so it counts for itself too
      let v ← bareValue? text.reverse
      let (r, tokens) ← stepBetween c
      return (r, .atom v :: tokens)
  | .string text =>
    if c = '"' then some (.between, [.atom (.str (String.ofList text.reverse))])
    else if c = '\\' then some (.escape text, [])
    else if c < ' ' then none
    else some (.string (c :: text), [])
  | .escape text =>
    if c = 'u' then some (.hex text none 0 4, [])
    else (unescaped? c).map fun d => (.string (d :: text), [])
  | .hex text high value left =>
    (Text.hexValue? c).bind fun d =>
      if left ≤ 1 then (afterHex text high (value * 16 + d)).map fun r => (r, [])
      else some (.hex text high (value * 16 + d) (left - 1), [])
  | .pairBackslash text high => if c = '\\' then some (.pairLetter text high, []) else none
  | .pairLetter text high => if c = 'u' then some (.hex text (some high) 0 4, []) else none

/-- The tokens of the text that follows state `r`. -/
def tokensFrom (r : Reading) : List Char → Option (List Token)
  | [] =>
    match r with
    | .between => some []
    | .bare text => (bareValue? text.reverse).map fun v => [.atom v]
    | _ => none
  | c :: rest => do
    let (r, tokens) ← step r c
    let more ← tokensFrom r rest
    return tokens ++ more

end Scaffold.Json
