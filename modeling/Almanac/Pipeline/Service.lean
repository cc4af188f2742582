import Almanac.Pipeline.Basic

/-!
# Serving orders

Orders that arrive together are served on one thread.  In each round all of them are
visited in turn; an order that is visited goes on until all its tasks are held up.  Its
tasks take turns in going first, from round to round.  If since the last round began
somebody who stood in line was let go on, another round follows at once; if not, time
passes first, to the next answer of the engine or the next deadline.  A first round begins
with the last one of the orders before.  An order that is complete when it is visited is
answered even if its deadline has come.
-/

namespace Almanac

/-- A call to the engine that is not answered yet. -/
structure EngineCall where
  fetch : Nat
  task : Task
  /-- The millisecond at which it is answered. -/
  due : Nat
  answer : Fetches.Answer

structure Job where
  order : Order
  /-- The milliseconds that it may take. -/
  limit : Nat
  result : Option (Except Failure Report) := none

/-- Orders that are served together, numbered like their fetches. -/
structure Service (σ ε : Type) where
  pipeline : Pipeline σ ε
  jobs : List Job
  calls : List EngineCall := []
  /-- The milliseconds that have passed. -/
  time : Nat := 0
  /-- The rounds that are over. -/
  rounds : Nat := 0

namespace Service

variable {σ ε : Type}

def placeCall (E : Engine ε) (profile : Profile) (i : Nat) (task : Task) (s : Service σ ε) :
    Service σ ε :=
  let engine := s.pipeline.engine
  let put (delay : Nat) (answer : Fetches.Answer) (engine : ε) : Service σ ε :=
    { s with
      pipeline := { s.pipeline with engine }
      calls := s.calls ++ [⟨i, task, s.time + delay, answer⟩] }
  match task with
  | .base =>
    let (reply, engine) := E.base profile engine
    put reply.delay (.base reply.result) engine
  | .balance =>
    let (reply, engine) := E.balance profile engine
    put reply.delay (.balance reply.result) engine
  | .pillars =>
    let (reply, engine) := E.pillars profile engine
    put reply.delay (.pillars reply.result) engine

def isOf (i : Nat) (task : Task) (c : EngineCall) : Bool := c.fetch == i && c.task == task

/-- A task goes on by one step: its call is made, or answered if it is due, or else the
task moves. -/
def advance (S : Store σ) (E : Engine ε) (profile : Profile) (i : Nat) (task : Task)
    (s : Service σ ε) : Service σ ε :=
  if s.pipeline.fetches.isCalling i task then
    match s.calls.find? (isOf i task) with
    | none => s.placeCall E profile i task
    | some c =>
      if c.due ≤ s.time then
        { s with
          pipeline := s.pipeline.step S (.answer i c.answer)
          calls := s.calls.filter fun c => !isOf i task c }
      else s
  else { s with pipeline := s.pipeline.step S (.proceed i task) }

/-- The largest number of steps that a task can take in one visit. -/
def longestWay : Nat := 10

/-- A task goes on until it is held up. -/
def settle (S : Store σ) (E : Engine ε) (profile : Profile) (i : Nat) (task : Task)
    (s : Service σ ε) : Service σ ε :=
  Nat.repeat (advance S E profile i task) longestWay s

def note (i : Nat) (result : Except Failure Report) (s : Service σ ε) : Service σ ε :=
  { s with jobs := s.jobs.modify i fun j => { j with result := some result } }

def giveUp (S : Store σ) (i : Nat) (failure : Failure) (s : Service σ ε) : Service σ ε :=
  { s with
    pipeline := s.pipeline.step S (.cancel i)
    calls := s.calls.filter fun c => c.fetch != i }.note i (.error failure)

/-- The order in which the tasks of an order go on: in each round another one is first. -/
def tasks (s : Service σ ε) : List Task :=
  [Task.base, .balance, .pillars].rotateLeft (s.rounds % 3)

/-- Visits an order: its tasks go on, and then it is answered if all are over, or given
up if it has used up its time. -/
def visit (S : Store σ) (E : Engine ε) (s : Service σ ε) (i : Nat) : Service σ ε :=
  match s.jobs[i]? with
  | none => s
  | some job =>
    if job.result.isSome then s
    else
      let s := s.tasks.foldl (fun s task => s.settle S E job.order.profile i task) s
      match s.pipeline.fetches.outcome? i with
      | some (.ok bundle) => s.note i (s.pipeline.report job.order bundle)
      | some (.error e) => s.note i (.error e)
      | none =>
        if job.limit ≤ s.time then s.giveUp S i (.deadlineExceeded (.ofMillis job.limit)) else s

def round (S : Store σ) (E : Engine ε) (s : Service σ ε) : Service σ ε :=
  let s := (List.range s.jobs.length).foldl (visit S E) s
  { s with rounds := s.rounds + 1 }

def unanswered (s : Service σ ε) : List Nat :=
  (List.range s.jobs.length).filter fun i => (s.jobs[i]?.bind (·.result)).isNone

/-- Whether somebody who stood in line has been let go on. -/
def isStirred (s : Service σ ε) : Bool := s.pipeline.fetches.stirred

/-- The service before another round for those who have been let go on. -/
def calmed (s : Service σ ε) : Service σ ε :=
  { s with pipeline := { s.pipeline with fetches := s.pipeline.fetches.calmed } }

/-- The next moment at which something happens: an answer of the engine, or the end of
an order's time. -/
def nextTime? (s : Service σ ε) : Option Nat :=
  (s.calls.map (·.due) ++ s.unanswered.filterMap fun i => s.jobs[i]?.map (·.limit)).min?

/-- Serves until all orders have a result, in at most `fuel` rounds. -/
def run (S : Store σ) (E : Engine ε) : (fuel : Nat) → Service σ ε → Service σ ε
  | 0, s => s
  | fuel + 1, s =>
    let s := s.round S E
    if s.unanswered.isEmpty then s
    else if s.isStirred then run S E fuel s.calmed
    else run S E fuel { s with time := s.nextTime?.getD s.time }

/-- A number of rounds that is enough.  Before every round but the first a task was let
go on, or time passed to an answer or to the end of an order, and each of these happens
to an order a few times at most. -/
def enoughRounds (orders : Nat) : Nat := 16 * (orders + 1)

/-- The result of a job; one that has none has run out of time. -/
def resultOf (j : Job) : Except Failure Report :=
  j.result.getD (.error (.deadlineExceeded (.ofMillis j.limit)))

end Service

namespace Pipeline

variable {σ ε : Type}

/-- Serves orders whose dates were looked at before. -/
def serveAll (S : Store σ) (E : Engine ε) (p : Pipeline σ ε) (orders : List Order) :
    List (Except Failure Report) × Pipeline σ ε :=
  let start := orders.foldl (startFetch S) p
  let jobs := orders.map fun o => ({ order := o, limit := p.deadlineFor o } : Job)
  let s := Service.run S E (Service.enoughRounds orders.length) { pipeline := start, jobs }
  let fetches := s.pipeline.fetches
  let flights := { fetches.flights with flights := [] }
  let p := { s.pipeline with fetches := { fetches with flights, fetches := [] } }
  (s.jobs.map Service.resultOf, p)

/-- An order whose date precedes the birth is not served. -/
def accept (o : Order) : Except Failure Order :=
  match o.profile.checkReference o.reference with
  | .ok _ => .ok o
  | .error fault => .error (.invalidProfile fault)

def assemble : List (Except Failure Order) → List (Except Failure Report) →
    List (Except Failure Report)
  | [], _ => []
  | .error e :: orders, results => .error e :: assemble orders results
  | .ok _ :: orders, r :: results => r :: assemble orders results
  | .ok _ :: _, [] => []

def serve (S : Store σ) (E : Engine ε) (p : Pipeline σ ε) (orders : List Order) :
    List (Except Failure Report) × Pipeline σ ε :=
  let accepted := orders.map accept
  let (results, p) := p.serveAll S E (accepted.filterMap Except.toOption)
  (assemble accepted results, p)

def generate (S : Store σ) (E : Engine ε) (p : Pipeline σ ε) (o : Order) :
    Except Failure Report × Pipeline σ ε :=
  match accept o with
  | .error e => (.error e, p)
  | .ok o =>
    let (results, p) := p.serveAll S E [o]
    (results.headD (.error (.deadlineExceeded (.ofMillis (p.deadlineFor o)))), p)

end Pipeline

end Almanac
