import Almanac.Json.Basic
import Almanac.Json.Fault

/-!
# Numerals

A number as it is spelled in a text, and the value it stands for.  A numeral
without fraction and exponent whose value fits into 64 bits is an integer, a minus
sign before zero apart; every other one is a binary number.  At most the first
digits that fit into 64 bits count; further digits of the whole part only shift
the power of ten.
-/

namespace Almanac.Json

/-- The parts of a spelled number; a fraction without digits is no fraction. -/
structure Numeral where
  negative : Bool
  whole : List Char
  fraction : List Char
  exponent : Option (Bool × List Char)
  deriving Repr, DecidableEq

namespace Numeral

def maxSignificand : Nat := UInt64.size - 1

/-- The largest exponent that is looked at. -/
def maxPower : Nat := UInt32.size / 2 - 1

/-- Adds digits to `acc` for as long as they fit; gives back the digits left. -/
def absorb (acc : Nat) : List Char → Nat × List Char
  | [] => (acc, [])
  | c :: cs =>
    let next := 10 * acc + (c.toNat - '0'.toNat)
    if next ≤ maxSignificand then absorb next cs else (acc, c :: cs)

def real (negative : Bool) (significand : Nat) (power : Int) : Except Fault Number :=
  match Binary64.ofDecimal? negative significand power with
  | some x => .ok (.real x)
  | none => .error .numberOutOfRange

/-- The integer with the given sign, if its value fits into 64 bits. -/
def integer (negative : Bool) (significand : Nat) : Number :=
  if !negative then .int significand
  else if significand = 0 ∨ UInt64.size / 2 < significand then
    .real (Binary64.ofNat significand).neg
  else .int (-(significand : Int))

def value (n : Numeral) : Except Fault Number :=
  let (front, dropped) := absorb 0 n.whole
  let (significand, left) := absorb front n.fraction
  let power : Int := (dropped.length : Int) - (n.fraction.length - left.length : Nat)
  match n.exponent with
  | none =>
    if n.fraction.isEmpty && dropped.isEmpty then .ok (integer n.negative significand)
    else real n.negative significand power
  | some (down, ds) =>
    let e := Text.valueOf ds
    if e ≤ maxPower then real n.negative significand (if down then power - e else power + e)
    else if significand = 0 ∨ down then .ok (.real (Binary64.zero n.negative))
    else .error .numberOutOfRange

end Numeral

end Almanac.Json
