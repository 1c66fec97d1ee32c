/-! The calendar: days by year, month and day, and by number. -/

namespace Scaffold

structure Day where
  year : Int
  month : Nat
  day : Nat
  deriving DecidableEq, Repr

/-- Days from the beginning of March of the year 0 to the beginning of 1970. -/
def epochDay : Int := 719468

def daysInEra : Nat := 146097

/-- The number of a day, counted from the beginning of 1970. -/
def Day.number (d : Day) : Int :=
  -- years begin in March here, so that the leap day is the last one
  let year := if d.month ≤ 2 then d.year - 1 else d.year
  let ofEra := (year % 400).toNat
  let month := if d.month ≤ 2 then d.month + 9 else d.month - 3
  let ofYear := (153 * month + 2) / 5 + d.day - 1
  year / 400 * daysInEra + (ofEra * 365 + ofEra / 4 - ofEra / 100 + ofYear : Nat) - epochDay

def Day.ofNumber (n : Int) : Day :=
  let shifted := n + epochDay
  let ofEra := (shifted % daysInEra).toNat
  let year := (ofEra - ofEra / 1460 + ofEra / 36524 - ofEra / 146096) / 365
  let ofYear := ofEra - (365 * year + year / 4 - year / 100)
  let month := (5 * ofYear + 2) / 153
  let day := ofYear - (153 * month + 2) / 5 + 1
  let realMonth := if month < 10 then month + 3 else month - 9
  ⟨shifted / daysInEra * 400 + year + (if realMonth ≤ 2 then 1 else 0), realMonth, day⟩

def isLeapYear (year : Int) : Bool := year % 4 = 0 && (year % 100 ≠ 0 || year % 400 = 0)

def daysInMonth (year : Int) (month : Nat) : Nat :=
  if month = 2 then (if isLeapYear year then 29 else 28)
  else if [4, 6, 9, 11].contains month then 30 else 31

def Day.isValid (d : Day) : Bool :=
  1 ≤ d.month && d.month ≤ 12 && 1 ≤ d.day && d.day ≤ daysInMonth d.year d.month

/-- Whether a year is one of those that instants may lie in. -/
def inRange (year : Int) : Bool := -262143 ≤ year && year ≤ 262142

end Scaffold
