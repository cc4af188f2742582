import Almanac.Cache.Flight

/-!
# Flights in rounds

Many flights on one thread: they are visited in the order of their calls, each goes
on until it is held up, and the next round begins with the first again.  Drawing a
chart takes from one visit to the next.
-/

namespace Almanac

/-- Flights with the drawings that are under way. -/
structure Rounds (σ : Type) where
  flights : Flights σ
  /-- The time, which moves on with every step. -/
  clock : Nat
  /-- The number of drawings begun so far. -/
  begun : Nat := 0
  /-- The flights that are drawing, each with the number of its drawing. -/
  drawings : List (Nat × Nat) := []

namespace Rounds

variable {σ : Type} (S : Store σ)

def step (r : Rounds σ) (move : Flights.Move) : Rounds σ :=
  { r with flights := r.flights.step S r.clock move, clock := r.clock + 1 }

/-- A flight goes on until it is held up, which takes four moves at most. -/
def settle (r : Rounds σ) (i : Nat) : Rounds σ :=
  Nat.repeat (fun r => r.step S (.proceed i)) 4 r

def note (r : Rounds σ) (i : Nat) : Rounds σ :=
  if (r.flights.phase i).isDrawing && !(r.drawings.any fun d => d.1 == i) then
    { r with begun := r.begun + 1, drawings := r.drawings ++ [(i, r.begun + 1)] }
  else r

/-- A flight is visited.  A drawing that was under way ends, with the result that
`draw` has for its number; then the flight goes on. -/
def visit (draw : Nat → Except Failure Chart) (r : Rounds σ) (i : Nat) : Rounds σ :=
  let r :=
    match r.drawings.find? fun d => d.1 == i with
    | none => r
    | some (_, number) =>
      { r.step S (.conclude i (draw number)) with drawings := r.drawings.filter fun d => d.1 != i }
  (r.settle S i).note i

def round (draw : Nat → Except Failure Chart) (members : List Nat) (r : Rounds σ) : Rounds σ :=
  members.foldl (visit S draw) r

/-- Rounds for some flights: one more than there are flights, each of which draws once at
most. -/
def finish (draw : Nat → Except Failure Chart) (members : List Nat) (r : Rounds σ) : Rounds σ :=
  Nat.repeat (round S draw members) (members.length + 1) r

/-- Calls for a key a number of times; gives the numbers of the new flights. -/
def call (key : String) (times : Nat) (r : Rounds σ) : List Nat × Rounds σ :=
  (List.range' r.flights.flights.length times, Nat.repeat (fun r => r.step S (.call key)) times r)

end Rounds

end Almanac
