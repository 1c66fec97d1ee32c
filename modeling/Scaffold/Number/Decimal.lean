import Scaffold.Number.Binary64

/-! The shortest decimal text of a double: the fewest digits that are read back as the same double,
    and of those the ones nearest to it. -/

namespace Scaffold

/-- The number `digits · 10 ^ exponent`. -/
structure Decimal where
  digits : Nat
  exponent : Int
  deriving DecidableEq, Repr

namespace Decimal

/-- The digits as characters. -/
def digitChars (d : Decimal) : List Char := Nat.toDigits 10 d.digits

/-- Twice the mantissa and the bounds of the numbers that round to the double, as multiples of
    `2 ^ (exponent - 2)`: `(value, low, high)`. -/
def interval (x : Binary64) : Nat × Nat × Nat :=
  let m := 4 * x.mantissa
  let below := if x.mantissa = Nat.pow 2 52 && Binary64.minExponent < x.exponent then 1 else 2
  (m, m - below, m + 2)

/-- The fraction `k · 2 ^ (exponent - 2) / 10 ^ p`. -/
def onGrid (k : Nat) (exponent p : Int) : Nat × Nat :=
  let (n, d) := Binary64.scaled k 1 (exponent - 2)
  if p < 0 then (n * Nat.pow 10 p.natAbs, d) else (n, d * Nat.pow 10 p.natAbs)

/-- The multiple of `10 ^ p` nearest to the double, if one is read back as the double. -/
def nearestOn? (x : Binary64) (p : Int) : Option Nat :=
  let (value, low, high) := interval x
  let (n, d) := onGrid value x.exponent p
  let (ln, ld) := onGrid low x.exponent p
  let (hn, hd) := onGrid high x.exponent p
  let even := x.mantissa % 2 == 0
  let reads (k : Nat) : Bool :=
    (if even then ln ≤ k * ld else ln < k * ld) && (if even then k * hd ≤ hn else k * hd < hn)
  let floor := n / d
  let first := Binary64.roundQuotient n d
  let second := if first = floor then floor + 1 else floor
  if 0 < first && reads first then some first
  else if 0 < second && reads second then some second
  else none

/-- The first grid with a hit, from the coarsest on. -/
def search (x : Binary64) (top : Int) : Nat → Nat → Decimal
  | 0, _ => ⟨0, 0⟩
  | steps + 1, i =>
    match nearestOn? x (top - i) with
    | some k => ⟨k, top - i⟩
    | none => search x top steps (i + 1)

/-- The number without zeros at the end of its digits. -/
def normalized : Nat → Decimal → Decimal
  | 0, d => d
  | steps + 1, d =>
    if 0 < d.digits && d.digits % 10 = 0 then normalized steps ⟨d.digits / 10, d.exponent + 1⟩
    else d

/-- The shortest decimal that is read back as the double; its sign is left out. -/
def shortest (x : Binary64) : Decimal :=
  if x.mantissa = 0 then ⟨0, 0⟩
  else
    let (n, d) := x.ratio
    let top : Int := ((n.log2 : Int) - (d.log2 : Int)) * 30103 / 100000 + 2
    normalized 20 (search x top 24 0)

/-- The decimal without exponent; whole numbers have no point. -/
def positional (negative : Bool) (d : Decimal) : List Char :=
  let cs := digitChars d
  let point : Int := (cs.length : Int) + d.exponent
  let sign := if negative then ['-'] else []
  sign ++
    if 0 ≤ d.exponent then (if d.digits = 0 then cs else cs ++ List.replicate d.exponent.natAbs '0')
    else if 0 < point then cs.take point.natAbs ++ ['.'] ++ cs.drop point.natAbs
    else ['0', '.'] ++ List.replicate point.natAbs '0' ++ cs

/-- The decimal with a point or an exponent: an exponent for numbers from `10 ^ 16` on and below
    `10 ^ low`. An exponent that is not negative begins with `sign`. -/
def pointed (low : Int) (sign : List Char) (negative : Bool) (d : Decimal) : List Char :=
  let cs := digitChars d
  let point : Int := (cs.length : Int) + d.exponent
  if d.digits = 0 then (if negative then ['-'] else []) ++ ['0', '.', '0']
  else if 0 ≤ d.exponent && point ≤ 16 then positional negative d ++ ['.', '0']
  else if low < point && point ≤ 16 then positional negative d
  else
    (if negative then ['-'] else []) ++ cs.take 1 ++
      (if cs.length = 1 then [] else '.' :: cs.drop 1) ++
      'e' :: (if point < 1 then ['-'] else sign) ++ Nat.toDigits 10 (point - 1).natAbs

/-- The decimal with a point, or with an exponent and its sign below `10 ^ -5`. -/
def scientific : Bool → Decimal → List Char := pointed (-5) ['+']

/-- The decimal with a point, or with an exponent without plus below `10 ^ -4`. -/
def general : Bool → Decimal → List Char := pointed (-4) []

end Decimal

end Scaffold
