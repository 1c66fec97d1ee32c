/-! Binary floating point with 53 bits, kept as exact integers. -/

namespace Scaffold

/-- The number `± mantissa · 2 ^ exponent`. A finite double has a mantissa below `2 ^ 53`. -/
structure Binary64 where
  negative : Bool
  mantissa : Nat
  exponent : Int
  deriving DecidableEq, Repr

namespace Binary64

/-- The exponent of the least positive double. -/
def minExponent : Int := -1074

/-- The greatest exponent of a double with a full mantissa. -/
def maxExponent : Int := 971

/-- The zero of either sign. -/
def zero (negative : Bool) : Binary64 := ⟨negative, 0, minExponent⟩

/-- The quotient rounded to the nearest integer, ties to the even one. -/
def roundQuotient (num den : Nat) : Nat :=
  let q := num / den
  let r := num % den
  if 2 * r < den then q else if den < 2 * r then q + 1 else if q % 2 = 0 then q else q + 1

/-- The fraction `num · 2 ^ e / den`. -/
def scaled (num den : Nat) (e : Int) : Nat × Nat :=
  if e < 0 then (num, den * Nat.pow 2 e.natAbs) else (num * Nat.pow 2 e.natAbs, den)

/-- The exponent that gives the quotient `num / den` a mantissa of 53 bits, within one. -/
def exponentNear (num den : Nat) : Int := (num.log2 : Int) - (den.log2 : Int) - 52

/-- The double nearest to the quotient of two positive integers; none if it is too large. -/
def ofRatio? (negative : Bool) (num den : Nat) : Option Binary64 :=
  if num = 0 then some (zero negative) else
  let guess := exponentNear num den
  let (n, d) := scaled num den (-guess)
  let e := if n / d < Nat.pow 2 52 then guess - 1 else guess
  let e := max e minExponent
  let (n, d) := scaled num den (-e)
  let m := roundQuotient n d
  let (m, e) := if m = Nat.pow 2 53 then (Nat.pow 2 52, e + 1) else (m, e)
  if maxExponent < e then none else some ⟨negative, m, e⟩

/-- The double nearest to `digits · 10 ^ exponent`; none if it is too large. -/
def ofDecimal? (negative : Bool) (digits : Nat) (exponent : Int) : Option Binary64 :=
  if digits = 0 then some (zero negative)
  else
    let size : Int := (Nat.toDigits 10 digits).length
    if 320 < size + exponent then none
    else if size + exponent < -400 then some (zero negative)
    else if exponent < 0 then ofRatio? negative digits (Nat.pow 10 exponent.natAbs)
    else ofRatio? negative (digits * Nat.pow 10 exponent.natAbs) 1

/-- The double nearest to an integer; none if it is too large. -/
def ofInt? (n : Int) : Option Binary64 := ofRatio? (decide (n < 0)) n.natAbs 1

/-- The absolute value as a fraction. -/
def ratio (x : Binary64) : Nat × Nat := scaled x.mantissa 1 x.exponent

/-- Numeric equality: the zeros of both signs are one number. -/
def same (x y : Binary64) : Bool :=
  if x.mantissa = 0 && y.mantissa = 0 then true
  else
    let (n, d) := x.ratio
    let (n', d') := y.ratio
    x.negative == y.negative && n * d' == n' * d

/-- The double nearest to `m · 2 ^ e`; `negative` is the sign of a zero. -/
def ofScaled? (m e : Int) (negative : Bool) : Option Binary64 :=
  if m = 0 then some (zero negative)
  else
    let (n, d) := scaled m.natAbs 1 e
    ofRatio? (decide (m < 0)) n d

/-- The mantissa with its sign, as a multiple of `2 ^ e` for an `e` that is no greater than the
    exponent. -/
def alignedTo (x : Binary64) (e : Int) : Int :=
  let m : Int := x.mantissa * Nat.pow 2 (x.exponent - e).toNat
  if x.negative then -m else m

/-- The rounded sum; none if it is too large. -/
def add? (x y : Binary64) : Option Binary64 :=
  let e := min x.exponent y.exponent
  ofScaled? (x.alignedTo e + y.alignedTo e) e (x.negative && y.negative)

/-- The rounded product; none if it is too large. -/
def mul? (x y : Binary64) : Option Binary64 :=
  let negative := x.negative != y.negative
  let m : Int := x.mantissa * y.mantissa
  ofScaled? (if negative then -m else m) (x.exponent + y.exponent) negative

/-- The remainder of the division with a quotient rounded toward zero; none for the divisor zero. -/
def mod? (x y : Binary64) : Option Binary64 :=
  if y.mantissa = 0 then none
  else
    let e := min x.exponent y.exponent
    ofScaled? ((x.alignedTo e).tmod (y.alignedTo e)) e x.negative

end Binary64

end Scaffold
