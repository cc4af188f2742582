/-!
# Digits

Numbers as decimal texts: plain, padded with zeros, and signed; hexadecimal digits;
and the reading of a whole text as an unsigned number with an upper limit.
-/

namespace Almanac.Text

/-- The decimal digits of a number, most significant first; `0` is one digit. -/
def digits (n : Nat) : List Char := Nat.toDigits 10 n

/-- The digits of a number, with zeros in front up to the given width. -/
def padded (width n : Nat) : List Char :=
  List.replicate (width - (digits n).length) '0' ++ digits n

def signed (i : Int) : List Char :=
  if i < 0 then '-' :: digits i.natAbs else digits i.natAbs

def decimal (i : Int) : String := String.ofList (signed i)

def valueOf (cs : List Char) : Nat := Nat.ofDigitChars 10 cs 0

def hexDigit? (c : Char) : Option Nat :=
  if c.isDigit then some (c.toNat - '0'.toNat)
  else if 'a' ≤ c ∧ c ≤ 'f' then some (c.toNat - 'a'.toNat + 10)
  else if 'A' ≤ c ∧ c ≤ 'F' then some (c.toNat - 'A'.toNat + 10)
  else none

inductive NumeralError where
  | empty
  | invalidDigit
  | tooLarge
  deriving Repr, DecidableEq

def NumeralError.message : NumeralError → String
  | .empty => "cannot parse integer from empty string"
  | .invalidDigit => "invalid digit found in string"
  | .tooLarge => "number too large to fit in target type"

/-- Adds digit after digit to `acc`.  The first character that is no digit, or
the first digit that takes the number past the limit, decides the error. -/
def readDigits (limit acc : Nat) : List Char → Except NumeralError Nat
  | [] => .ok acc
  | c :: cs =>
    if c.isDigit then
      let next := 10 * acc + (c.toNat - '0'.toNat)
      if next ≤ limit then readDigits limit next cs else .error .tooLarge
    else .error .invalidDigit

/-- Reads a whole text as a number of at most `limit`: digits, after a plus sign
if there is one. -/
def readUnsigned (limit : Nat) : List Char → Except NumeralError Nat
  | [] => .error .empty
  | ['+'] => .error .invalidDigit
  | '+' :: cs => readDigits limit 0 cs
  | cs => readDigits limit 0 cs

def maxWord : Nat := UInt64.size - 1

def readWord (cs : List Char) : Except NumeralError UInt64 :=
  (readUnsigned maxWord cs).map UInt64.ofNat

example : readUnsigned 99 "+08".toList = .ok 8 := rfl
example : readUnsigned 99 "100x".toList = .error .tooLarge := rfl
example : readUnsigned 99 "10x0".toList = .error .invalidDigit := rfl

end Almanac.Text
