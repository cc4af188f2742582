import Almanac.Decimal.Binary64
import Almanac.Text.Digits

/-!
# Spans of time

A length of time in nanoseconds, and its text: the number of the largest unit that
is not empty, with the rest as a fraction in the fewest digits.
-/

namespace Almanac

structure Span where
  nanos : Nat
  deriving Repr, DecidableEq

namespace Span

def ofMillis (n : Nat) : Span := ⟨n * 1000000⟩

def ofSeconds (n : Nat) : Span := ⟨n * 1000000000⟩

def seconds (s : Span) : Nat := s.nanos / 1000000000

def subsecond (s : Span) : Nat := s.nanos % 1000000000

/-- The digits of a fraction with `width` places, without zeros at the end; nothing
for zero. -/
def writeFraction (width n : Nat) : List Char :=
  if n = 0 then []
  else '.' :: ((Text.padded width n).reverse.dropWhile (· == '0')).reverse

/-- A number of units that are `tenTo width` nanoseconds long. -/
def writeUnits (width : Nat) (name : List Char) (nanos : Nat) : List Char :=
  Text.digits (nanos / tenTo width) ++ writeFraction width (nanos % tenTo width) ++ name

def write (s : Span) : List Char :=
  if s.nanos < 1000 then writeUnits 0 ['n', 's'] s.nanos
  else if s.nanos < 1000000 then writeUnits 3 ['µ', 's'] s.nanos
  else if s.nanos < 1000000000 then writeUnits 6 ['m', 's'] s.nanos
  else writeUnits 9 ['s'] s.nanos

def text (s : Span) : String := String.ofList s.write

example : (ofMillis 0).text = "0ns" := by decide +kernel
example : (ofMillis 1500).text = "1.5s" := by decide +kernel

end Span

end Almanac
