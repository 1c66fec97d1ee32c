import Scaffold.Text.Blank
import Scaffold.Text.Digits
import Scaffold.Time.Calendar

/-! Points in time, and their text: a date and a time of day with an offset from universal time.
    Reading is lenient about digits and blanks; writing always gives universal time. -/

namespace Scaffold

open Text

def secondsInDay : Nat := 86400

def nanosInSecond : Nat := 1000000000

/-- A point in time: seconds since the beginning of 1970, and nanoseconds, which go on over a
    billion within a leap second, the last second of its minute. -/
structure Instant where
  seconds : Int
  nanos : Nat
  yearInRange : inRange (Day.ofNumber (seconds / secondsInDay)).year = true
  withinSecond : nanos < nanosInSecond ∨ (nanos < 2 * nanosInSecond ∧ seconds % 60 = 59)
  deriving DecidableEq, Repr

namespace Instant

def epoch : Instant := ⟨0, 0, by decide, by decide⟩

instance : Inhabited Instant := ⟨epoch⟩

def ofParts? (seconds : Int) (nanos : Nat) : Option Instant :=
  if h : inRange (Day.ofNumber (seconds / secondsInDay)).year = true
      ∧ (nanos < nanosInSecond ∨ (nanos < 2 * nanosInSecond ∧ seconds % 60 = 59)) then
    some ⟨seconds, nanos, h.1, h.2⟩
  else none

/-! ### Writing -/

/-- A year, which has a sign if it does not have four digits. -/
def yearChars (year : Int) : List Char :=
  if 0 ≤ year && year ≤ 9999 then paddedNumber 4 year.toNat
  else (if year < 0 then '-' else '+') :: paddedNumber 4 year.natAbs

/-- A fraction of a second in thousandths, millionths or billionths, whichever suffices. -/
def fractionChars (nanos : Nat) : List Char :=
  if nanos = 0 then []
  else if nanos % 1000000 = 0 then '.' :: paddedNumber 3 (nanos / 1000000)
  else if nanos % 1000 = 0 then '.' :: paddedNumber 6 (nanos / 1000)
  else '.' :: paddedNumber 9 nanos

def toText (t : Instant) : String :=
  let day := Day.ofNumber (t.seconds / secondsInDay)
  let ofDay := (t.seconds % secondsInDay).toNat
  let second := ofDay % 60 + t.nanos / nanosInSecond
  String.ofList
    (yearChars day.year ++ '-' :: paddedNumber 2 day.month ++ '-' :: paddedNumber 2 day.day
      ++ 'T' :: paddedNumber 2 (ofDay / 3600) ++ ':' :: paddedNumber 2 (ofDay / 60 % 60)
      ++ ':' :: paddedNumber 2 second ++ fractionChars (t.nanos % nanosInSecond) ++ ['Z'])

/-! ### Reading -/

/-- One to `most` digits after blanks, and what follows. -/
def number? (most : Nat) (s : List Char) : Option (Nat × List Char) :=
  let s := trimStart s
  let ds := (s.takeWhile Char.isDigit).take most
  if ds.isEmpty then none else some (digitsValue ds, s.drop ds.length)

/-- A year: at most four digits, or any number of them after a sign. -/
def year? (s : List Char) : Option (Int × List Char) :=
  match trimStart s with
  | '-' :: rest => (signed rest).map fun (n, rest) => (-(n : Int), rest)
  | '+' :: rest => (signed rest).map fun (n, rest) => ((n : Int), rest)
  | s => (number? 4 s).map fun (n, rest) => ((n : Int), rest)
where
  signed (s : List Char) : Option (Nat × List Char) :=
    match s.span Char.isDigit with
    | ([], _) => none
    | (ds, rest) => some (digitsValue ds, rest)

def mark? (c : Char) (s : List Char) : Option (List Char) :=
  match trimStart s with
  | d :: rest => if d = c then some rest else none
  | [] => none

/-- An optional fraction of a second in nanoseconds; digits beyond the ninth do not count. -/
def fraction? : List Char → Option (Nat × List Char)
  | '.' :: rest =>
    match rest.span Char.isDigit with
    | ([], _) => none
    | (ds, rest) =>
      let kept := ds.take 9
      some (digitsValue (kept ++ List.replicate (9 - kept.length) '0'), rest)
  | s => some (0, s)

def twoDigits? : List Char → Option (Nat × List Char)
  | a :: b :: rest =>
    if a.isDigit && b.isDigit then some (digitsValue [a, b], rest) else none
  | _ => none

/-- Hours and minutes of an offset, with colons or blanks between them. -/
def hoursAndMinutes? (s : List Char) : Option (Int × List Char) := do
  let (hours, rest) ← twoDigits? s
  let (minutes, rest) ← twoDigits? (rest.dropWhile fun c => c = ':' || isBlank c)
  if minutes < 60 then return ((hours * 3600 + minutes * 60 : Nat), rest) else none

/-- The offset of a local time in seconds. -/
def offset? : List Char → Option (Int × List Char)
  | u :: t :: c :: rest =>
    if [u, t, c].map Char.toUpper = ['U', 'T', 'C'] then some (0, rest)
    else plain (u :: t :: c :: rest)
  | s => plain s
where
  plain : List Char → Option (Int × List Char)
    | c :: rest =>
      if c = 'Z' || c = 'z' then some (0, rest)
      else if c = '+' then hoursAndMinutes? rest
      else if c = '-' || c = '\u2212' then (hoursAndMinutes? rest).map fun (n, rest) => (-n, rest)
      else none
    | [] => none

def parse? (text : String) : Option Instant := do
  let (year, s) ← year? text.toList
  let (month, s) ← number? 2 (← mark? '-' s)
  let (day, s) ← number? 2 (← mark? '-' s)
  let s ← match s with
    | c :: rest => if c = 'T' || c = 't' || c = ' ' then some rest else none
    | [] => none
  let (hour, s) ← number? 2 s
  let (minute, s) ← number? 2 (← mark? ':' s)
  let (second, s) ← number? 2 (← mark? ':' s)
  let (nanos, s) ← fraction? s
  let (offset, s) ← offset? (trimStart s)
  let date : Day := ⟨year, month, day⟩
  -- a leap second is counted in the nanoseconds of the second before it
  let seconds := date.number * secondsInDay + hour * 3600 + minute * 60 + min second 59 - offset
  if (trimStart s).isEmpty && date.isValid && inRange year
      && hour < 24 && minute < 60 && second ≤ 60
      && offset.natAbs < secondsInDay then
    ofParts? seconds (if second = 60 then nanosInSecond + nanos else nanos)
  else none

end Instant

end Scaffold
