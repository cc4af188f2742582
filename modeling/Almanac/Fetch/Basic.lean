import Almanac.Cache.Flight
import Almanac.Fetch.Engine
import Almanac.Fetch.Permits

/-!
# Fetches

A fetch gets what a report is made of: the chart, which comes through the cache and is
required, and two analyses, which may be missing for a reason.  The three tasks run at
once; each engine call is made under a permit.  A chart without periods is never kept,
and never the outcome.

`Fetches.step` is one move of one task; the order of moves is not decided here.
-/

namespace Almanac

inductive Stage (α : Type) where
  /-- It has not asked for a permit. -/
  | idle
  /-- It stands in line for a permit. -/
  | waiting
  /-- It has a permit and is about to call. -/
  | granted
  /-- Its call is in progress. -/
  | calling
  | ended (result : α)

namespace Stage

variable {α : Type}

def holdsPermit : Stage α → Bool
  | granted => true
  | calling => true
  | _ => false

def isCalling : Stage α → Bool
  | calling => true
  | _ => false

def result? : Stage α → Option α
  | ended result => some result
  | _ => none

def permitted : Stage α → Stage α
  | waiting => granted
  | stage => stage

end Stage

/-- One fetch.  The flight that its base task runs has the same number as the fetch;
`base` is the engine call of that flight. -/
structure Fetch where
  base : Stage (Except Failure Chart) := .idle
  balance : Stage (Section BalanceAnalysis) := .idle
  pillars : Stage (Section PillarAnalysis) := .idle
  cancelled : Bool := false

structure Bundle where
  chart : Chart
  balance : Section BalanceAnalysis
  pillars : Section PillarAnalysis

namespace Fetch

/-- What is said of a task that gets no permit. -/
def closedReason : String := "fetch coordinator closed"

def permitted (f : Fetch) : Task → Fetch
  | .base => { f with base := f.base.permitted }
  | .balance => { f with balance := f.balance.permitted }
  | .pillars => { f with pillars := f.pillars.permitted }

def holdsPermit (f : Fetch) : Task → Bool
  | .base => f.base.holdsPermit
  | .balance => f.balance.holdsPermit
  | .pillars => f.pillars.holdsPermit

def without (f : Fetch) : Task → Fetch
  | .base => { f with base := .idle }
  | .balance => { f with balance := .idle }
  | .pillars => { f with pillars := .idle }

/-- What a chart from the engine is worth: one without periods is no chart. -/
def drawn : Except EngineFault Chart → Except Failure Chart
  | .error e => .error (.missingChart e.message)
  | .ok chart => if chart.periods.isEmpty then .error .noPeriods else .ok chart

def part {α : Type} : Except EngineFault α → Section α
  | .error e => .absent e.message
  | .ok a => .present a

end Fetch

/-- The fetches over one cache and one set of permits. -/
structure Fetches (σ : Type) where
  flights : Flights σ
  permits : Permits
  fetches : List Fetch := []
  /-- Whether a task has been let go on after a wait.  The flag stays until it is taken
  down by whoever looks after the tasks. -/
  stirred : Bool := false

inductive Fetches.Answer where
  | base (result : Except EngineFault Chart)
  | balance (result : Except EngineFault BalanceAnalysis)
  | pillars (result : Except EngineFault PillarAnalysis)

inductive Fetches.Move where
  | fetch (key : String)
  /-- The task goes on, if nothing holds it up. -/
  | proceed (fetch : Nat) (task : Task)
  /-- The engine answers a task's call. -/
  | answer (fetch : Nat) (answer : Fetches.Answer)
  | cancel (fetch : Nat)
  /-- No permit is given any more, and the cache is shut down. -/
  | shutdown

namespace Fetches

variable {σ : Type}

/-- The permits that a configuration asks for; there is always one. -/
def permitsFor (maxFetches : Nat) : Permits := { free := max maxFetches 1 }

def modify (fs : Fetches σ) (i : Nat) (f : Fetch → Fetch) : Fetches σ :=
  { fs with fetches := fs.fetches.modify i f }

/-- A permit is given back and goes to the first in line. -/
def giveBack (fs : Fetches σ) : Fetches σ :=
  match fs.permits.giveBack with
  | (none, permits) => { fs with permits }
  | (some next, permits) =>
    { fs with permits, stirred := true }.modify next.fetch (·.permitted next.task)

def onFlights (fs : Fetches σ) (flights : Flights σ) : Fetches σ :=
  { fs with flights, stirred := fs.stirred || fs.flights.letsGo flights }

/-- The flag that tasks have been let go on is taken down. -/
def calmed (fs : Fetches σ) : Fetches σ := { fs with stirred := false }

/-- A task goes on with its engine call; `refusal` is its result if there are no more
permits, and `put` puts the stage into its fetch. -/
def proceedCall {α : Type} (fs : Fetches σ) (who : Ticket) (stage : Stage α) (refusal : α)
    (put : Stage α → Fetch → Fetch) : Fetches σ :=
  match stage with
  | .idle =>
    match fs.permits.ask who with
    | (.granted, permits) => { fs with permits }.modify who.fetch (put .granted)
    | (.wait, permits) => { fs with permits }.modify who.fetch (put .waiting)
    | (.refused, permits) => { fs with permits }.modify who.fetch (put (.ended refusal))
  | .waiting => if fs.permits.closed then fs.modify who.fetch (put (.ended refusal)) else fs
  | .granted =>
    if fs.permits.closed then (fs.modify who.fetch (put (.ended refusal))).giveBack
    else fs.modify who.fetch (put .calling)
  | .calling => fs
  | .ended _ => fs

def putBase (stage : Stage (Except Failure Chart)) (f : Fetch) : Fetch := { f with base := stage }

def putBalance (stage : Stage (Section BalanceAnalysis)) (f : Fetch) : Fetch :=
  { f with balance := stage }

def putPillars (stage : Stage (Section PillarAnalysis)) (f : Fetch) : Fetch :=
  { f with pillars := stage }

/-- A task goes on as far as the next point at which it may be held up.  The base task
runs a flight, and calls the engine while the flight is drawing. -/
def proceed (S : Store σ) (now : Nat) (i : Nat) (task : Task) (fs : Fetches σ) : Fetches σ :=
  match fs.fetches[i]? with
  | none => fs
  | some f =>
    if f.cancelled then fs
    else
      match task with
      | .base =>
        match (fs.flights.phase i).isDrawing, f.base with
        | false, _ => fs.onFlights (fs.flights.proceed S now i)
        | true, .ended drawn =>
          (fs.onFlights (fs.flights.conclude now i drawn)).modify i (putBase .idle)
        | true, stage =>
          fs.proceedCall ⟨i, .base⟩ stage (.error (.missingChart Fetch.closedReason)) putBase
      | .balance =>
        fs.proceedCall ⟨i, .balance⟩ f.balance (.absent Fetch.closedReason) putBalance
      | .pillars =>
        fs.proceedCall ⟨i, .pillars⟩ f.pillars (.absent Fetch.closedReason) putPillars

def answer (i : Nat) (a : Answer) (fs : Fetches σ) : Fetches σ :=
  match fs.fetches[i]? with
  | none => fs
  | some f =>
    match a with
    | .base result =>
      if f.base.isCalling then (fs.modify i (putBase (.ended (Fetch.drawn result)))).giveBack
      else fs
    | .balance result =>
      if f.balance.isCalling then (fs.modify i (putBalance (.ended (Fetch.part result)))).giveBack
      else fs
    | .pillars result =>
      if f.pillars.isCalling then (fs.modify i (putPillars (.ended (Fetch.part result)))).giveBack
      else fs

/-- The outcome of a fetch once all its tasks are over. -/
def outcome? (fs : Fetches σ) (i : Nat) : Option (Except Failure Bundle) :=
  match fs.fetches[i]? with
  | none => none
  | some f =>
    match (fs.flights.phase i).outcome?, f.balance.result?, f.pillars.result? with
    | some (.ok chart), some balance, some pillars =>
      some (if chart.periods.isEmpty then .error .noPeriods else .ok ⟨chart, balance, pillars⟩)
    | some (.error e), some _, some _ => some (.error e)
    | _, _, _ => none

/-- A task is dropped: it leaves the line, or gives back the permit that it holds, which
may go to another task of the same fetch. -/
def drop (i : Nat) (fs : Fetches σ) (task : Task) : Fetches σ :=
  match fs.fetches[i]? with
  | none => fs
  | some f =>
    let rest := { fs with permits := fs.permits.leave ⟨i, task⟩ }.modify i (·.without task)
    if f.holdsPermit task then rest.giveBack else rest

/-- A fetch ends before it has an outcome: its tasks are dropped one after another, and
its flight is cancelled. -/
def cancel (i : Nat) (fs : Fetches σ) : Fetches σ :=
  match fs.fetches[i]? with
  | none => fs
  | some f =>
    if f.cancelled || (fs.outcome? i).isSome then fs
    else
      let fs := [Task.base, .balance, .pillars].foldl (drop i) fs
      (fs.onFlights (fs.flights.cancel i)).modify i fun _ => { cancelled := true }

def step (S : Store σ) (now : Nat) (fs : Fetches σ) : Move → Fetches σ
  | .fetch key =>
    { fs with flights := fs.flights.step S now (.call key), fetches := fs.fetches ++ [{}] }
  | .proceed i task => fs.proceed S now i task
  | .answer i a => fs.answer i a
  | .cancel i => fs.cancel i
  | .shutdown =>
    { fs with flights := fs.flights.step S now .shutdown, permits := fs.permits.close }

/-! ## What can go on -/

def canCall {α : Type} (p : Permits) : Stage α → Bool
  | .idle => true
  | .waiting => p.closed
  | .granted => true
  | .calling => false
  | .ended _ => false

/-- Whether a task of a fetch can go on without an answer from the engine. -/
def canProceed (fs : Fetches σ) (i : Nat) (task : Task) : Bool :=
  match fs.fetches[i]? with
  | none => false
  | some f =>
    !f.cancelled &&
      match task with
      | .base =>
        match fs.flights.phase i, f.base with
        | .drawing _, .ended _ => true
        | .drawing _, stage => canCall fs.permits stage
        | .queued cell, _ => !fs.flights.isLed cell
        | phase, _ => !phase.isOver
      | .balance => canCall fs.permits f.balance
      | .pillars => canCall fs.permits f.pillars

def isCalling (fs : Fetches σ) (i : Nat) (task : Task) : Bool :=
  match fs.fetches[i]? with
  | none => false
  | some f =>
    match task with
    | .base => f.base.isCalling
    | .balance => f.balance.isCalling
    | .pillars => f.pillars.isCalling

end Fetches

end Almanac
