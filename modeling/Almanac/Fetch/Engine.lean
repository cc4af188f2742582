import Almanac.Chart
import Almanac.Failure

/-!
# Chart engines

What answers the three questions about a birth: the chart, the balance, and the
pillars in detail.  A call is answered after some milliseconds; what it will answer is
settled when it is made.  A snapshot is an engine that knows one birth, whatever
profile is asked for.
-/

namespace Almanac

/-- The answer to a call, and how many milliseconds it takes. -/
structure Reply (α : Type) where
  delay : Nat := 0
  result : Except EngineFault α

/-- A chart engine with states of type `ε`. -/
structure Engine (ε : Type) where
  base : Profile → ε → Reply Chart × ε
  balance : Profile → ε → Reply BalanceAnalysis × ε
  pillars : Profile → ε → Reply PillarAnalysis × ε

namespace Snapshot

def base (s : Snapshot) : Except EngineFault Chart := .ok s.chart

def balanceFor (s : Snapshot) : Except EngineFault BalanceAnalysis :=
  match s.balance with
  | some a => .ok a
  | none => .error (.notFound "snapshot has no balance analysis")

def pillarsFor (s : Snapshot) : Except EngineFault PillarAnalysis :=
  match s.pillars with
  | some a => .ok a
  | none => .error (.notFound "snapshot has no pillar analysis")

def engine : Engine Snapshot where
  base _ s := ({ result := s.base }, s)
  balance _ s := ({ result := s.balanceFor }, s)
  pillars _ s := ({ result := s.pillarsFor }, s)

end Snapshot

/-! ## Slow and failing engines -/

/-- How one question of a rehearsed engine is answered: late, and wrongly a number of
times. -/
structure Rehearsal where
  delay : Nat := 0
  failures : Nat := 0
  fault : EngineFault := .unavailable ""
  /-- The calls made so far. -/
  calls : Nat := 0

/-- Makes a call; `answer` is what a call that does not fail is answered. -/
def Rehearsal.call {α : Type} (r : Rehearsal) (answer : Except EngineFault α) :
    Reply α × Rehearsal :=
  let calls := r.calls + 1
  (⟨r.delay, if calls ≤ r.failures then .error r.fault else answer⟩, { r with calls })

/-- A snapshot whose three questions are answered as rehearsed. -/
structure RehearsedEngine where
  snapshot : Snapshot
  base : Rehearsal := {}
  balance : Rehearsal := {}
  pillars : Rehearsal := {}

namespace RehearsedEngine

def engine : Engine RehearsedEngine where
  base _ e :=
    let (reply, base) := e.base.call e.snapshot.base
    (reply, { e with base })
  balance _ e :=
    let (reply, balance) := e.balance.call e.snapshot.balanceFor
    (reply, { e with balance })
  pillars _ e :=
    let (reply, pillars) := e.pillars.call e.snapshot.pillarsFor
    (reply, { e with pillars })

end RehearsedEngine

end Almanac
