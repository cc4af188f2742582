import Almanac.Calendar.Scan
import Almanac.Decimal.Binary64
import Almanac.Text.Digits

/-!
# Times of day

A time of day to the nanosecond.  Second 60 stands for a leap second, which may
end any minute.  `parse?` reads what a person typed, with or without seconds;
`ofDocument?` reads a time inside a document, which may also have a fraction.
-/

namespace Almanac

/-- A time of day; second 60 is a leap second. -/
structure TimeOfDay where
  hour : Nat
  minute : Nat
  second : Nat
  nanos : Nat
  hour_lt : hour < 24
  minute_lt : minute < 60
  second_le : second ≤ 60
  nanos_lt : nanos < 1000000000
  deriving Repr, DecidableEq

namespace TimeOfDay

def ofFields? (h m s n : Nat) : Option TimeOfDay :=
  if hh : h < 24 ∧ m < 60 ∧ s ≤ 60 ∧ n < 1000000000 then
    some ⟨h, m, s, n, hh.1, hh.2.1, hh.2.2.1, hh.2.2.2⟩
  else none

/-! ## Writing -/

def writeMinutes (t : TimeOfDay) : List Char :=
  Text.padded 2 t.hour ++ ':' :: Text.padded 2 t.minute

/-- The fraction of a second in 3, 6 or 9 digits, the fewest that are exact;
nothing for a whole second. -/
def writeFraction (n : Nat) : List Char :=
  if n = 0 then []
  else if n % 1000000 = 0 then '.' :: Text.padded 3 (n / 1000000)
  else if n % 1000 = 0 then '.' :: Text.padded 6 (n / 1000)
  else '.' :: Text.padded 9 n

def write (t : TimeOfDay) : List Char :=
  t.writeMinutes ++ ':' :: Text.padded 2 t.second ++ writeFraction t.nanos

def text (t : TimeOfDay) : String := String.ofList t.write

/-! ## Reading -/

/-- Hour and minute; `gap` drops what may stand before the colon. -/
def scanMinutes (gap : List Char → List Char) (cs : List Char) :
    Except Calendar.Fault (Nat × Nat × List Char) := do
  let (h, cs) ← Calendar.Scan.twoDigits cs
  Calendar.Scan.within 0 23 h
  let cs ← Calendar.Scan.mark ':' (gap cs)
  let (m, cs) ← Calendar.Scan.twoDigits cs
  Calendar.Scan.within 0 59 m
  return (h, m, cs)

def scanSeconds (gap : List Char → List Char) (cs : List Char) :
    Except Calendar.Fault (Nat × List Char) := do
  let cs ← Calendar.Scan.mark ':' (gap cs)
  let (s, cs) ← Calendar.Scan.twoDigits cs
  Calendar.Scan.within 0 60 s
  return (s, cs)

/-- A fraction after the point, as nanoseconds: nine digits count, and further
ones are dropped. -/
def scanFraction : List Char → Except Calendar.Fault (Nat × List Char)
  | '.' :: cs => do
    let (n, rest) ← Calendar.Scan.number (some 9) cs
    return (n * tenTo (9 - (cs.length - rest.length)), rest.dropWhile Char.isDigit)
  | cs => .ok (0, cs)

/-- The time with the given fields; one that there is not is out of range. -/
def make (h m s n : Nat) : Except Calendar.Fault TimeOfDay :=
  match ofFields? h m s n with
  | some t => .ok t
  | none => .error .outOfRange

def readMinutes (cs : List Char) : Except Calendar.Fault TimeOfDay := do
  let (h, m, rest) ← scanMinutes id cs
  Calendar.Scan.finish rest
  make h m 0 0

def readSeconds (cs : List Char) : Except Calendar.Fault TimeOfDay := do
  let (h, m, rest) ← scanMinutes id cs
  let (s, rest) ← scanSeconds id rest
  Calendar.Scan.finish rest
  make h m s 0

/-- Reads a time that a person typed, trimmed on both sides: first without
seconds, else with them. -/
def parse? (s : String) : Except Calendar.Fault TimeOfDay :=
  let cs := Text.trim s.toList
  match readMinutes cs with
  | .ok t => .ok t
  | .error _ => readSeconds cs

def scanTail (cs : List Char) : Except Calendar.Fault (Nat × Nat × List Char) := do
  let (s, rest) ← scanSeconds Text.trimStart cs
  let (n, rest) ← scanFraction rest
  return (s, n, rest)

/-- Reads a time inside a document.  Where no seconds can be read after the
minutes, there are none, and what stands there has to be blank. -/
def ofDocument? (s : String) : Except Calendar.Fault TimeOfDay := do
  let (h, m, rest) ← scanMinutes Text.trimStart s.toList
  let (sec, n, rest) := match scanTail rest with
    | .ok (sec, n, rest) => (sec, n, rest)
    | .error _ => (0, 0, rest)
  Calendar.Scan.finish (Text.trimStart rest)
  make h m sec n

end TimeOfDay

end Almanac
