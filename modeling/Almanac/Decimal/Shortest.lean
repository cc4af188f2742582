import Almanac.Decimal.Binary64
import Almanac.Text.Digits

/-!
# The shortest decimal text of a binary number

A number is written with the fewest digits that read back to it; of those the
nearest to it is taken.  `Shortest.digits` finds them on ever finer decimal grids,
in exact arithmetic.  `NumberFormat` holds what a document decides: which powers
are written out and how an exponent looks.
-/

namespace Almanac.Decimal

namespace Shortest

/-- The decimals `d * 10 ^ k` on both sides of `4 * m * 2 ^ (e - 2)` that lie in
the interval of numbers rounding to it, whose ends count if `m` is even; the
nearer one first decides. -/
def onGrid? (m : Nat) (e : Int) (k : Int) : Option Nat :=
  let a := twoTo (e - 2).toNat * tenTo (-k).toNat
  let b := twoTo (2 - e).toNat * tenTo k.toNat
  let value := 4 * m * a
  let upper := (4 * m + 2) * a
  let below := if m = twoTo (Binary64.precision - 1) ∧ e ≠ Binary64.minExponent then 1 else 2
  let lower := (4 * m - below) * a
  let inside (d : Nat) : Bool :=
    if m % 2 = 0 then lower ≤ d * b && d * b ≤ upper else lower < d * b && d * b < upper
  let d := value / b
  match inside d, inside (d + 1) with
  | true, true =>
    let left := value - d * b
    let right := (d + 1) * b - value
    if left < right ∨ (left = right ∧ d % 2 = 0) then some d else some (d + 1)
  | true, false => some d
  | false, true => some (d + 1)
  | false, false => none

/-- Tries the grids `10 ^ k`, `10 ^ (k - 1)`, … one after another. -/
def search (m : Nat) (e : Int) : (steps : Nat) → (k : Int) → Nat × Int
  | 0, k => (0, k)
  | steps + 1, k =>
    match onGrid? m e k with
    | some d => (d, k)
    | none => search m e steps (k - 1)

def digits (m : Nat) (e : Int) : Nat × Int := search m e 700 309

end Shortest

structure NumberFormat where
  /-- The smallest power of ten of a first digit that is written out. -/
  leastPlain : Int
  /-- The first power of ten of a first digit that needs an exponent. -/
  firstExponent : Int
  /-- The least number of digits of an exponent. -/
  exponentWidth : Nat

/-- A decimal written out, with a point and at least one digit on both sides. -/
def writePlain (ds : List Char) (first : Int) : List Char :=
  if first < 0 then
    '0' :: '.' :: List.replicate (-first - 1).toNat '0' ++ ds
  else
    let whole := first.toNat + 1
    let front := ds.take whole ++ List.replicate (whole - ds.length) '0'
    let back := ds.drop whole
    front ++ '.' :: (if back.isEmpty then ['0'] else back)

/-- A decimal with one digit before the point and an exponent with its sign. -/
def writeExponent (format : NumberFormat) (ds : List Char) (first : Int) : List Char :=
  let point := if ds.length ≤ 1 then ds else ds.take 1 ++ '.' :: ds.drop 1
  point ++ 'e' :: (if first < 0 then '-' else '+')
    :: Text.padded format.exponentWidth first.natAbs

def NumberFormat.write (format : NumberFormat) (x : Binary64) : List Char :=
  let body :=
    if x.mantissa = 0 then ['0', '.', '0']
    else
      let (d, k) := Shortest.digits x.mantissa x.exponent
      let ds := Text.digits d
      let first := k + ds.length - 1
      if format.leastPlain ≤ first ∧ first < format.firstExponent then writePlain ds first
      else writeExponent format ds first
  if x.negative then '-' :: body else body

end Almanac.Decimal
