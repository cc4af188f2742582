import Almanac.Calendar.Date
import Almanac.Decimal.Binary64
import Almanac.Toml.Value

/-!
# Numbers and moments

The values that begin with a sign, a digit or a letter: the words `true` and `false`,
integers, other numbers, and dates and times.  Every scanner takes the characters still to
be read and gives back what it has read and the rest.
-/

namespace Almanac.Toml

def afterWord : (word : List Char) → List Char → Option (List Char)
  | [], cs => some cs
  | _ :: _, [] => none
  | w :: ws, c :: cs => if w = c then afterWord ws cs else none

def spelling (cs rest : List Char) : String := String.ofList (cs.take (cs.length - rest.length))

namespace Scalar

/-! ## Digits -/

def moreDigits (ok : Char → Bool) : List Char → Option (List Char × List Char)
  | [] => some ([], [])
  | '_' :: c :: cs =>
    if ok c then (moreDigits ok cs).map fun (ds, rest) => (c :: ds, rest) else none
  | ['_'] => none
  | c :: cs =>
    if ok c then (moreDigits ok cs).map fun (ds, rest) => (c :: ds, rest)
    else some ([], c :: cs)

/-- A row of digits, in which one underscore may stand between two of them. -/
def digits (ok : Char → Bool) : List Char → Option (List Char × List Char)
  | [] => none
  | c :: cs =>
    if ok c then (moreDigits ok cs).map fun (ds, rest) => (c :: ds, rest) else none

/-- The digits of a whole part, which is zero or does not begin with a zero. -/
def whole : List Char → Option (List Char × List Char)
  | '0' :: cs => some (['0'], cs)
  | cs => digits Char.isDigit cs

/-- A sign, if there is one: whether it is a minus sign, and the rest. -/
def sign : List Char → Bool × List Char
  | '-' :: cs => (true, cs)
  | '+' :: cs => (false, cs)
  | cs => (false, cs)

/-! ## Numbers -/

def integer (negative : Bool) (n : Nat) : Option Value :=
  let i : Int := if negative then -(n : Int) else n
  if Int64.minValue.toInt ≤ i ∧ i ≤ Int64.maxValue.toInt then some (.integer i) else none

def valueTo (base : Nat) (ds : List Char) : Nat :=
  ds.foldl (fun n c => base * n + (Text.hexDigit? c).getD 0) 0

def based (base : Nat) (cs : List Char) : Option (Value × List Char) := do
  let ok (c : Char) : Bool := (Text.hexDigit? c).any (· < base)
  let (ds, rest) ← digits ok cs
  return (← integer false (valueTo base ds), rest)

/-- The fraction of a number: its digits, and whether there is one. -/
def fraction : List Char → Option (Bool × List Char × List Char)
  | '.' :: cs => (digits Char.isDigit cs).map fun (ds, rest) => (true, ds, rest)
  | cs => some (false, [], cs)

def exponent : List Char → Option (Bool × Int × List Char)
  | [] => some (false, 0, [])
  | c :: cs =>
    if c = 'e' ∨ c = 'E' then
      let (negative, cs) := sign cs
      (digits Char.isDigit cs).map fun (ds, rest) =>
        (true, if negative then -(Text.valueOf ds : Int) else Text.valueOf ds, rest)
    else some (false, 0, c :: cs)

/-- The least number that the 64-bit binary format rounds to infinity. -/
def tooLarge : Nat := (twoTo 54 - 1) * twoTo 970

/-- Whether `ds` times ten to `power` is `tooLarge` or more.  Powers that decide it by their size
alone are not computed. -/
def isTooLarge (ds : List Char) (power : Int) : Bool :=
  let n := Text.valueOf ds
  if n = 0 then false
  else if 400 < power then true
  else if (ds.length : Int) + power < 300 then false
  else tooLarge * tenTo (-power).toNat ≤ n * tenTo power.toNat

/-- A number in decimal digits.  A positive one may not be too large for the 64-bit binary
format. -/
def decimal (cs : List Char) : Option (Value × List Char) := do
  let (negative, rest) := sign cs
  let (front, rest) ← whole rest
  let (hasFraction, back, rest) ← fraction rest
  let (hasExponent, e, rest) ← exponent rest
  if hasFraction || hasExponent then
    if !negative && isTooLarge (front ++ back) (e - back.length) then none
    else return (.real (spelling cs rest), rest)
  else return (← integer negative (Text.valueOf front), rest)

def number (cs : List Char) : Option (Value × List Char) :=
  match cs with
  | '0' :: 'x' :: rest => based 16 rest
  | '0' :: 'o' :: rest => based 8 rest
  | '0' :: 'b' :: rest => based 2 rest
  | cs =>
    let unsigned := (sign cs).2
    match (afterWord ['i', 'n', 'f'] unsigned).or (afterWord ['n', 'a', 'n'] unsigned) with
    | some rest => some (.real (spelling cs rest), rest)
    | none => decimal cs

/-! ## Moments -/

def exactDigits (n : Nat) (cs : List Char) : Option (Nat × List Char) :=
  let ds := cs.take n
  if ds.length = n ∧ ds.all Char.isDigit then some (Text.valueOf ds, cs.drop n) else none

/-- What follows `n` digits and a mark, if they are in front. -/
def afterField (n : Nat) (mark : Char) (cs : List Char) : Option (Nat × List Char) := do
  let (value, cs) ← exactDigits n cs
  return (value, ← afterWord [mark] cs)

def afterDate (cs : List Char) : Option (List Char) := do
  let (y, cs) ← afterField 4 '-' cs
  let (m, cs) ← afterField 2 '-' cs
  let (d, cs) ← exactDigits 2 cs
  if IsDate y m d then some cs else none

def afterFraction : List Char → Option (List Char)
  | '.' :: c :: cs => if c.isDigit then some (cs.dropWhile Char.isDigit) else none
  | ['.'] => none
  | cs => some cs

/-- What follows a time of day; second 60 is a leap second. -/
def afterTime (cs : List Char) : Option (List Char) := do
  let (h, cs) ← afterField 2 ':' cs
  let (m, cs) ← afterField 2 ':' cs
  let (s, cs) ← exactDigits 2 cs
  if h < 24 ∧ m < 60 ∧ s ≤ 60 then afterFraction cs else none

def afterOffset : List Char → Option (List Char)
  | [] => some []
  | c :: cs =>
    if c = 'Z' ∨ c = 'z' then some cs
    else if c = '+' ∨ c = '-' then do
      let (h, cs) ← afterField 2 ':' cs
      let (m, cs) ← exactDigits 2 cs
      if h < 24 ∧ m < 60 then some cs else none
    else some (c :: cs)

def beginsDate (cs : List Char) : Bool := (afterField 4 '-' cs).isSome

def beginsTime (cs : List Char) : Bool := (afterField 2 ':' cs).isSome

def afterTimeOfDate : List Char → Option (List Char)
  | [] => some []
  | c :: cs =>
    if (c = 'T' ∨ c = 't' ∨ c = ' ') ∧ beginsTime cs then (afterTime cs).bind afterOffset
    else some (c :: cs)

/-- What follows a moment: a date, a date with a time, or a time. -/
def afterMoment (cs : List Char) : Option (List Char) :=
  if beginsDate cs then (afterDate cs).bind afterTimeOfDate else afterTime cs

end Scalar

open Scalar in
/-- A value that begins with a sign, a digit or a letter. -/
def scalar (cs : List Char) : Option (Value × List Char) :=
  match afterWord ['t', 'r', 'u', 'e'] cs, afterWord ['f', 'a', 'l', 's', 'e'] cs with
  | some rest, _ => some (.bool true, rest)
  | none, some rest => some (.bool false, rest)
  | none, none =>
    if beginsDate cs || beginsTime cs then
      (afterMoment cs).map fun rest => (.moment (spelling cs rest), rest)
    else number cs

end Almanac.Toml
