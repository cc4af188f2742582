/-!
# Permits

Engine calls are made under permits, of which there is a fixed number.  Whoever finds
none free stands in line, and a permit that is given back goes to the first in line.
After closing, no permit is given any more.
-/

namespace Almanac

/-- The three things that a fetch does at once. -/
inductive Task where
  | base
  | balance
  | pillars
  deriving Repr, DecidableEq

structure Ticket where
  fetch : Nat
  task : Task
  deriving Repr, DecidableEq

/-- The permits that are free, and those who wait for one. -/
structure Permits where
  free : Nat
  line : List Ticket := []
  closed : Bool := false
  deriving Repr

namespace Permits

/-- The largest number of permits that there can be.  A program that asks for more of them
breaks down. -/
def most : Nat := 0x1fffffffffffffff

inductive Answer where
  | granted
  | wait
  | refused
  deriving Repr, DecidableEq

def ask (p : Permits) (who : Ticket) : Answer × Permits :=
  if p.closed then (.refused, p)
  else if 0 < p.free then (.granted, { p with free := p.free - 1 })
  else (.wait, { p with line := p.line ++ [who] })

/-- Gives a permit back; names the one who gets it next. -/
def giveBack (p : Permits) : Option Ticket × Permits :=
  match p.line with
  | [] => (none, { p with free := p.free + 1 })
  | next :: line => (some next, { p with line })

def leave (p : Permits) (who : Ticket) : Permits :=
  { p with line := p.line.filter fun t => t != who }

def close (p : Permits) : Permits := { p with line := [], closed := true }

end Permits

end Almanac
