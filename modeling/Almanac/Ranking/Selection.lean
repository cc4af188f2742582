import Almanac.Chart

/-!
# Selected periods

A view shows the periods nearest to the current one: the current one first, then the
next, the one before, the one after next, and so on.  Where one side is used up, the
other goes on alone.  The position in this order is the priority of a period.
-/

namespace Almanac.Ranking

/-! ## The shape of a view -/

/-- How much of a chart a view shows: the number of periods, the current one included,
and the number of notable years kept for each. -/
structure Shape where
  periodCount : UInt64 := 10
  yearsPerPeriod : UInt64 := 3
  deriving Repr, DecidableEq

/-! ## Stubs -/

/-- A selected period; priority 1 is the current one. -/
structure Stub where
  period : Period
  priority : UInt32
  deriving Repr, DecidableEq

/-- Selects the period at a position, behind the stubs that there are. -/
def push (periods : List Period) (stubs : List Stub) (position : Nat) : List Stub :=
  stubs ++ periods[position]?.toList.map fun p => ⟨p, UInt32.ofNat (stubs.length + 1)⟩

/-- Goes on in both directions from the positions reached so far, forward first, until
there are `target` stubs or nothing is left on either side. -/
def outward (periods : List Period) (target forward backward : Nat) (stubs : List Stub) :
    List Stub :=
  if stubs.length < target then
    if forward + 1 < periods.length then
      let stubs := push periods stubs (forward + 1)
      if stubs.length = target then stubs
      else if 0 < backward then
        outward periods target (forward + 1) (backward - 1) (push periods stubs (backward - 1))
      else outward periods target (forward + 1) backward stubs
    else if 0 < backward then
      outward periods target forward (backward - 1) (push periods stubs (backward - 1))
    else stubs
  else stubs
termination_by periods.length - forward + backward
decreasing_by all_goals omega

/-- At most `count` periods around the one at position `current`; none if there is no
such position. -/
def select (periods : List Period) (current count : Nat) : List Stub :=
  let target := min count periods.length
  if target = 0 ∨ periods.length ≤ current then []
  else outward periods target current current (push periods [] current)

end Almanac.Ranking
