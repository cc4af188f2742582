/-!
# Binary floating point

The finite numbers of the 64-bit binary format, as an integer times a power of
two, with the roundings to nearest that reading a decimal number needs.  Each
number has one representation, so equality is equality of the fields; zero has
two signs.
-/

namespace Almanac

/-! ## Powers -/

abbrev twoTo (k : Nat) : Nat := Nat.pow 2 k

abbrev tenTo (k : Nat) : Nat := Nat.pow 10 k

/-! ## Numbers -/

/-- The finite number `mantissa * 2 ^ exponent`, with a sign. -/
structure Binary64 where
  negative : Bool
  mantissa : Nat
  exponent : Int
  deriving Repr, DecidableEq

namespace Binary64

def precision : Nat := 53

def minExponent : Int := -1074

def maxExponent : Int := 971

def zero (negative : Bool) : Binary64 := ⟨negative, 0, minExponent⟩

/-- Whether a number is zero, of either sign. -/
def isZero (x : Binary64) : Bool := x.mantissa == 0

def neg (x : Binary64) : Binary64 := { x with negative := !x.negative }

/-- A quotient rounded to the nearest integer, a tie to the even one. -/
def roundQuotient (num den : Nat) : Nat :=
  let q := num / den
  let r := num % den
  if 2 * r > den ∨ (2 * r = den ∧ q % 2 = 1) then q + 1 else q

/-- `num / (den * 2 ^ e)`, rounded to the nearest integer. -/
def scaled (num den : Nat) (e : Int) : Nat :=
  roundQuotient (num * twoTo (-e).toNat) (den * twoTo e.toNat)

/-- The exponent at which the quotient of two positive integers has a full
mantissa, or the smallest exponent there is. -/
def exponentFor (num den : Nat) : Int :=
  let e : Int := (num.log2 : Int) - den.log2 - precision
  let e := if num * twoTo (-e).toNat / (den * twoTo e.toNat) < twoTo precision then e else e + 1
  max e minExponent

/-- The finite number nearest to a quotient, a tie to the even mantissa; nothing
if the quotient is too large to have one. -/
def ofQuotient? (negative : Bool) (num den : Nat) : Option Binary64 :=
  if num = 0 then some (zero negative)
  else
    let e := exponentFor num den
    let m := scaled num den e
    let (m, e) := if m = twoTo precision then (twoTo (precision - 1), e + 1) else (m, e)
    if e ≤ maxExponent then
      if m = 0 then some (zero negative) else some ⟨negative, m, e⟩
    else none

/-- The number nearest to an integer below 2 ^ 1000. -/
def ofNat (n : Nat) : Binary64 := (ofQuotient? false n 1).getD (zero false)

/-- The product rounded to nearest; nothing if it is too large. -/
def mul? (x y : Binary64) : Option Binary64 :=
  let e := x.exponent + y.exponent
  ofQuotient? (x.negative != y.negative) (x.mantissa * y.mantissa * twoTo e.toNat)
    (twoTo (-e).toNat)

/-- The quotient by a number other than zero, rounded to nearest; nothing if it
is too large. -/
def div? (x y : Binary64) : Option Binary64 :=
  let e := x.exponent - y.exponent
  ofQuotient? (x.negative != y.negative) (x.mantissa * twoTo e.toNat)
    (y.mantissa * twoTo (-e).toNat)

def powerOfTen (k : Nat) : Binary64 := ofNat (tenTo k)

/-- The largest power of ten that is below the largest number. -/
def maxPower : Nat := 308

/-- Divides by `10 ^ k`, in steps of at most `maxPower` powers. -/
def scaleDown (x : Binary64) (k : Nat) : Option Binary64 :=
  if k ≤ maxPower then x.div? (powerOfTen k)
  else if x.isZero then some x
  else (x.div? (powerOfTen maxPower)).bind fun y => scaleDown y (k - maxPower)
termination_by k
decreasing_by simp only [maxPower] at *; omega

def scaleUp (x : Binary64) (k : Nat) : Option Binary64 :=
  if k ≤ maxPower then x.mul? (powerOfTen k)
  else if x.isZero then some x
  else none

/-- `digits * 10 ^ power`, computed by one rounding of the digits and one per
multiplication or division, as decimal numbers in documents are read. -/
def ofDecimal? (negative : Bool) (digits : Nat) (power : Int) : Option Binary64 :=
  let x := ofNat digits
  let y := if 0 ≤ power then x.scaleUp power.toNat else x.scaleDown (-power).toNat
  y.map fun y => if negative then y.neg else y

example : ofNat 51 = ⟨false, 51 * twoTo 47, -47⟩ := by decide +kernel
example : ofDecimal? false 1 400 = none := by decide +kernel
example : ofDecimal? true 0 0 = some (zero true) := by decide +kernel

end Binary64

end Almanac
