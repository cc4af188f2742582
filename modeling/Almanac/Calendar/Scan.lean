import Almanac.Text.Blank

/-!
# Reading fields of dates and times

A date or a time is read field by field from the front.  Each scanner takes the
characters still to be read and gives back a value and the rest, or the first
fault it meets.
-/

namespace Almanac.Calendar

inductive Fault where
  | outOfRange
  | invalid
  | tooShort
  | trailing
  deriving Repr, DecidableEq

def Fault.message : Fault → String
  | .outOfRange => "input is out of range"
  | .invalid => "input contains invalid characters"
  | .tooShort => "premature end of input"
  | .trailing => "trailing input"

namespace Scan

/-- The largest number a field may reach while its digits are added up. -/
def fieldLimit : Nat := UInt64.size / 2 - 1

/-- Adds up at most `width` digits (any number for `none`) to `acc`. -/
def digits : (width : Option Nat) → (acc : Nat) → List Char → Except Fault (Nat × List Char)
  | some 0, acc, cs => .ok (acc, cs)
  | _, acc, [] => .ok (acc, [])
  | width, acc, c :: cs =>
    if c.isDigit then
      let next := 10 * acc + (c.toNat - '0'.toNat)
      if next ≤ fieldLimit then digits (width.map (· - 1)) next cs else .error .outOfRange
    else .ok (acc, c :: cs)

def number (width : Option Nat) : List Char → Except Fault (Nat × List Char)
  | [] => .error .tooShort
  | c :: cs => if c.isDigit then digits width 0 (c :: cs) else .error .invalid

/-- A number of one or two digits, after any blanks. -/
def twoDigits (cs : List Char) : Except Fault (Nat × List Char) :=
  number (some 2) (Text.trimStart cs)

/-- A year, after any blanks: up to four digits, or a sign and any number of
digits. -/
def year (cs : List Char) : Except Fault (Int × List Char) :=
  match Text.trimStart cs with
  | '-' :: rest => (number none rest).map fun (n, r) => (-(n : Int), r)
  | '+' :: rest => (number none rest).map fun (n, r) => ((n : Int), r)
  | rest => (number (some 4) rest).map fun (n, r) => ((n : Int), r)

def mark (c : Char) : List Char → Except Fault (List Char)
  | [] => .error .tooShort
  | d :: cs => if d = c then .ok cs else .error .invalid

def within (lo hi : Int) (n : Int) : Except Fault Unit :=
  if lo ≤ n ∧ n ≤ hi then .ok () else .error .outOfRange

def finish : List Char → Except Fault Unit
  | [] => .ok ()
  | _ :: _ => .error .trailing

end Scan

end Almanac.Calendar
