import Almanac.Calendar.Scan
import Almanac.Text.Digits

/-!
# Calendar dates

Dates of the proleptic Gregorian calendar, from the year -262143 to the year
262142, with the text written for them and two readers: `parse?` for a date that
a person typed (no blank before a separator) and `ofDocument?` for a date inside a
document (blanks allowed before and after every part).
-/

namespace Almanac

def isLeapYear (y : Int) : Bool := y % 4 == 0 && (y % 100 != 0 || y % 400 == 0)

def daysInMonth (y : Int) (m : Nat) : Nat :=
  if m = 2 then (if isLeapYear y then 29 else 28)
  else if m = 4 ∨ m = 6 ∨ m = 9 ∨ m = 11 then 30
  else 31

def minYear : Int := -262143

def maxYear : Int := 262142

def IsDate (y : Int) (m d : Nat) : Prop :=
  (minYear ≤ y ∧ y ≤ maxYear) ∧ (1 ≤ m ∧ m ≤ 12) ∧ (1 ≤ d ∧ d ≤ daysInMonth y m)

instance (y : Int) (m d : Nat) : Decidable (IsDate y m d) := by
  unfold IsDate; infer_instance

/-- A date of the proleptic Gregorian calendar. -/
structure Date where
  year : Int
  month : Nat
  day : Nat
  isDate : IsDate year month day
  deriving Repr, DecidableEq

namespace Date

def ofFields? (y : Int) (m d : Nat) : Option Date :=
  if h : IsDate y m d then some ⟨y, m, d, h⟩ else none

def isBefore (a b : Date) : Bool :=
  a.year < b.year ∨ a.year = b.year ∧ (a.month < b.month ∨ a.month = b.month ∧ a.day < b.day)

/-! ## Writing -/

/-- The digits of a year: four at least, with a sign outside 0 to 9999. -/
def writeYear (y : Int) : List Char :=
  if y < 0 then '-' :: Text.padded 4 y.natAbs
  else if 9999 < y then '+' :: Text.padded 4 y.natAbs
  else Text.padded 4 y.natAbs

def write (d : Date) : List Char :=
  writeYear d.year ++ '-' :: Text.padded 2 d.month ++ '-' :: Text.padded 2 d.day

def text (d : Date) : String := String.ofList d.write

/-! ## Reading -/

def yearField (y : Int) : Except Calendar.Fault Unit :=
  Calendar.Scan.within Int32.minValue.toInt Int32.maxValue.toInt y

/-- The three fields in order.  `gap` drops what may stand before a hyphen and
after the day. -/
def scan (gap : List Char → List Char) (cs : List Char) :
    Except Calendar.Fault (Int × Nat × Nat × List Char) := do
  let (y, cs) ← Calendar.Scan.year cs
  yearField y
  let cs ← Calendar.Scan.mark '-' (gap cs)
  let (m, cs) ← Calendar.Scan.twoDigits cs
  Calendar.Scan.within 1 12 m
  let cs ← Calendar.Scan.mark '-' (gap cs)
  let (d, cs) ← Calendar.Scan.twoDigits cs
  Calendar.Scan.within 1 31 d
  return (y, m, d, gap cs)

/-- A whole text read as a date: fields first, then nothing may be left, and the
fields have to name a date. -/
def read (gap : List Char → List Char) (cs : List Char) : Except Calendar.Fault Date := do
  let (y, m, d, rest) ← scan gap cs
  Calendar.Scan.finish rest
  match ofFields? y m d with
  | some date => return date
  | none => throw .outOfRange

/-- Reads a date that a person typed, trimmed on both sides. -/
def parse? (s : String) : Except Calendar.Fault Date := read id (Text.trim s.toList)

def ofDocument? (s : String) : Except Calendar.Fault Date := read Text.trimStart s.toList

end Date

end Almanac
