import Almanac.Cache.Layer

/-!
# Concurrent requests for charts

Each request for a chart is a flight.  A flight looks into both tiers, joins the cell
of its key, waits until it may lead the cell, looks again, draws the chart and
publishes it.  A cell has at most one leader; if its leader fails or is cancelled, a
waiting flight leads next, and if the leader gets a chart, all that wait for the cell
are handed it.  Whichever way a flight ends, it leaves its cell, and the key has no
cell from then on, even if other flights still wait for that one.

`Flights.step` is one move of one flight; the order of moves is not decided here.
-/

namespace Almanac

/-- How far a flight has come. -/
inductive Flight.Phase where
  /-- It has not looked anywhere. -/
  | called
  /-- The local tier did not have the chart; the store is asked. -/
  | asking
  /-- It waits to lead a cell. -/
  | queued (cell : Nat)
  /-- It leads a cell, and the store is asked again. -/
  | rechecking (cell : Nat)
  /-- It leads a cell, and the chart is being drawn. -/
  | drawing (cell : Nat)
  /-- It leads a cell, and the chart is being sent to the store. -/
  | publishing (cell : Nat) (chart : Chart)
  /-- The leader of its cell has got a chart. -/
  | handed (cell : Nat) (chart : Chart)
  | done (outcome : Except Failure Chart)
  | cancelled

namespace Flight.Phase

/-- The cell that a flight has joined and not left. -/
def cell? : Phase → Option Nat
  | queued cell => some cell
  | rechecking cell => some cell
  | drawing cell => some cell
  | publishing cell _ => some cell
  | handed cell _ => some cell
  | _ => none

def leads? : Phase → Option Nat
  | rechecking cell => some cell
  | drawing cell => some cell
  | publishing cell _ => some cell
  | _ => none

def isOver : Phase → Bool
  | done _ => true
  | cancelled => true
  | _ => false

def isDrawing : Phase → Bool
  | drawing _ => true
  | _ => false

def outcome? : Phase → Option (Except Failure Chart)
  | done outcome => some outcome
  | _ => none

end Flight.Phase

/-- A request for the chart of a key. -/
structure Flight where
  key : String
  phase : Flight.Phase := .called

/-- The flights over one cache, in the order of their calls. -/
structure Flights (σ : Type) where
  cache : Cache σ
  flights : List Flight := []

/-- A move of a flight, named by its number, or of the whole cache. -/
inductive Flights.Move where
  | call (key : String)
  /-- The flight goes on, if nothing holds it up. -/
  | proceed (flight : Nat)
  /-- The drawing of the chart ends. -/
  | conclude (flight : Nat) (drawn : Except Failure Chart)
  | cancel (flight : Nat)
  | shutdown

namespace Flights

variable {σ : Type}

/-- The phase of a flight; flights that were never called count as cancelled. -/
def phase (fs : Flights σ) (i : Nat) : Flight.Phase :=
  match fs.flights[i]? with
  | some f => f.phase
  | none => .cancelled

def set (fs : Flights σ) (i : Nat) (phase : Flight.Phase) : Flights σ :=
  { fs with flights := fs.flights.modify i fun f => { f with phase } }

def onCache (fs : Flights σ) (cache : Cache σ) : Flights σ := { fs with cache }

def onLayer (fs : Flights σ) (layer : Layer) : Flights σ :=
  { fs with cache := { fs.cache with layer } }

def isLed (fs : Flights σ) (cell : Nat) : Bool :=
  fs.flights.any fun f => f.phase.leads? == some cell

/-- Whether a flight waits for the leader of its cell. -/
def isHeldUp (fs : Flights σ) : Flight.Phase → Bool
  | .queued cell => fs.isLed cell
  | _ => false

/-- Whether a move lets some flight go on that was held up before it. -/
def letsGo (before after : Flights σ) : Bool :=
  (before.flights.zip after.flights).any fun (f, g) =>
    before.isHeldUp f.phase && !(after.isHeldUp g.phase || g.phase.isOver)

def hand (fs : Flights σ) (cell : Nat) (chart : Chart) : Flights σ :=
  { fs with flights := fs.flights.map fun f =>
      match f.phase with
      | .queued c => if c = cell then { f with phase := .handed cell chart } else f
      | _ => f }

/-- A flight leaves its cell and ends. -/
def land (fs : Flights σ) (i : Nat) (key : String) (cell : Nat) (last : Flight.Phase) :
    Flights σ :=
  (fs.onLayer (fs.cache.layer.leave key cell)).set i last

/-- The leader of a cell has a chart, hands it on and ends. -/
def deliver (fs : Flights σ) (i : Nat) (key : String) (cell : Nat) (chart : Chart) : Flights σ :=
  (fs.hand cell chart).land i key cell (.done (.ok chart))

/-- A flight goes on as far as the next point at which it may be held up. -/
def proceed (S : Store σ) (now : Nat) (i : Nat) (fs : Flights σ) : Flights σ :=
  match fs.flights[i]? with
  | none => fs
  | some ⟨key, phase⟩ =>
    match phase with
    | .called =>
      match fs.cache.layer.look now key with
      | (some chart, layer) => (fs.onLayer layer).set i (.done (.ok chart))
      | (none, layer) => (fs.onLayer layer).set i .asking
    | .asking =>
      match fs.cache.ask S now key with
      | (some chart, cache) => (fs.onCache cache).set i (.done (.ok chart))
      | (none, cache) =>
        let (cell, layer) := cache.layer.join key
        (fs.onCache { cache with layer }).set i (.queued cell)
    | .queued cell =>
      if fs.isLed cell then fs
      else
        match fs.cache.layer.look now key with
        | (some chart, layer) => (fs.onLayer layer).deliver i key cell chart
        | (none, layer) => (fs.onLayer layer).set i (.rechecking cell)
    | .rechecking cell =>
      match fs.cache.ask S now key with
      | (some chart, cache) => (fs.onCache cache).deliver i key cell chart
      | (none, cache) =>
        ((fs.onCache cache).onLayer cache.layer.countComputation).set i (.drawing cell)
    | .publishing cell chart =>
      (fs.onCache (fs.cache.publish S now key chart)).deliver i key cell chart
    | .handed cell chart => fs.land i key cell (.done (.ok chart))
    | .drawing _ => fs
    | .done _ => fs
    | .cancelled => fs

/-- The drawing of a chart ends.  A chart is in the local tier at once. -/
def conclude (now : Nat) (i : Nat) (drawn : Except Failure Chart) (fs : Flights σ) : Flights σ :=
  match fs.flights[i]? with
  | some ⟨key, .drawing cell⟩ =>
    match drawn with
    | .error e => fs.land i key cell (.done (.error e))
    | .ok chart => (fs.onLayer (fs.cache.layer.keep now key chart)).set i (.publishing cell chart)
  | _ => fs

def cancel (i : Nat) (fs : Flights σ) : Flights σ :=
  match fs.flights[i]? with
  | none => fs
  | some ⟨key, phase⟩ =>
    if phase.isOver then fs
    else
      match phase.cell? with
      | none => fs.set i .cancelled
      | some cell => fs.land i key cell .cancelled

def step (S : Store σ) (now : Nat) (fs : Flights σ) : Move → Flights σ
  | .call key => { fs with flights := fs.flights ++ [⟨key, .called⟩] }
  | .proceed i => fs.proceed S now i
  | .conclude i drawn => fs.conclude now i drawn
  | .cancel i => fs.cancel i
  | .shutdown => fs.onCache (fs.cache.shutdown S)

end Flights

end Almanac
