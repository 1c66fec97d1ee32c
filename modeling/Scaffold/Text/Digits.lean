/-! Numbers in digits: reading and writing them in base 10 and base 16. -/

namespace Scaffold.Text

def digitsValue (ds : List Char) : Nat := ds.foldl (fun n d => n * 10 + (d.toNat - 48)) 0

def hexValue? (c : Char) : Option Nat :=
  if c.isDigit then some (c.toNat - 48)
  else if 'a' ≤ c && c ≤ 'f' then some (c.toNat - 87)
  else if 'A' ≤ c && c ≤ 'F' then some (c.toNat - 55)
  else none

/-- A number with zeros in front up to that width. -/
def paddedNumber (width n : Nat) : List Char :=
  let ds := Nat.toDigits 10 n
  List.replicate (width - ds.length) '0' ++ ds

/-- The last `width` digits of a number in base 16, with letters from `ten` on. -/
def hexDigits (ten : Char) : Nat → Nat → List Char
  | 0, _ => []
  | width + 1, n =>
    let d := n % 16
    hexDigits ten width (n / 16) ++ [Char.ofNat (if d < 10 then 48 + d else ten.toNat + (d - 10))]

end Scaffold.Text
