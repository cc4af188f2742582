import Almanac.Calendar.Date
import Almanac.Chart

/-!
# The current period

The nominal age of a person at a date, and the major period that an age falls into.
An age before the first period or after the last one takes that period, and an age
in a gap takes the last period that has begun; a list of periods without any has no
current one.
-/

namespace Almanac

inductive Placement where
  | within
  | beforeFirst
  | afterLast
  deriving Repr, DecidableEq

def Placement.name : Placement → String
  | within => "within"
  | beforeFirst => "before_first"
  | afterLast => "after_last"

namespace Ranking

/-- The age counted by calendar years, one in the year of birth; zero before. -/
def nominalAge (birth reference : Date) : UInt32 :=
  UInt32.ofNat (reference.year - birth.year + 1).toNat

/-- A position in the list of periods, and how it was found. -/
structure Location where
  position : Nat
  placement : Placement
  deriving Repr, DecidableEq

def lastBegun? (periods : List Period) (age : UInt32) : Option Nat :=
  (periods.reverse.findIdx? fun p => decide (p.startAge ≤ age)).map fun i => periods.length - 1 - i

/-- The current period at an age: the first that covers it, else the nearest as
described above; none only in an empty list. -/
def locate? (periods : List Period) (age : UInt32) : Option Location :=
  match periods.head?, periods.getLast? with
  | some first, some last =>
    some <|
      match periods.findIdx? (·.covers age) with
      | some position => ⟨position, .within⟩
      | none =>
        if age < first.startAge then ⟨0, .beforeFirst⟩
        else if last.endAge < age then ⟨periods.length - 1, .afterLast⟩
        else ⟨(lastBegun? periods age).getD 0, .within⟩
  | _, _ => none

end Ranking

end Almanac
