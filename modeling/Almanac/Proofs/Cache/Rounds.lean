import Mathlib
import Almanac.Cache.Rounds
import Almanac.Proofs.Cache.Outcomes

/-!
# Rounds are runs

Rounds decide which move comes next and at what time, and nothing else: what they come to is
what a run of the flights comes to, with one move at each time of the clock (`Rounds.Goes`).
So whatever holds after every run holds after rounds; the outcomes of flights are the case at
hand (`Rounds.outcome_of_finish`).
-/

namespace Almanac

namespace Rounds

variable {σ : Type} {S : Store σ} {Allowed Allowed' : Flights.Move → Prop} {r r' r'' : Rounds σ}
  {members : List Nat} {draw : Nat → Except Failure Chart}

/-! ## One move at each time -/

def timed (now : Nat) : List Flights.Move → List (Nat × Flights.Move)
  | [] => []
  | m :: moves => (now, m) :: timed (now + 1) moves

theorem timed_append (now : Nat) (first second : List Flights.Move) :
    timed now (first ++ second) = timed now first ++ timed (now + first.length) second := by
  induction first generalizing now with
  | nil => rfl
  | cons m first ih =>
      rw [List.cons_append, timed, ih, timed, List.cons_append, List.length_cons,
        Nat.add_right_comm, Nat.add_assoc]

theorem mem_of_mem_timed {now time : Nat} {m : Flights.Move} {moves : List Flights.Move}
    (h : (time, m) ∈ timed now moves) : m ∈ moves := by
  induction moves generalizing now with
  | nil => contradiction
  | cons first moves ih =>
      rcases List.mem_cons.mp h with he | h
      · rw [(Prod.mk.inj he).2]
        exact List.mem_cons_self
      · exact List.mem_cons_of_mem first (ih h)

/-- Rounds have gone on by moves of their flights, one at each time of the clock. -/
def Goes (S : Store σ) (Allowed : Flights.Move → Prop) (r r' : Rounds σ) : Prop :=
  ∃ moves, (∀ m ∈ moves, Allowed m) ∧ r'.clock = r.clock + moves.length ∧
    r'.flights = r.flights.run S (timed r.clock moves)

/-- Notes on drawings are no moves. -/
theorem Goes.of_eq (hclock : r'.clock = r.clock) (hflights : r'.flights = r.flights) :
    r.Goes S Allowed r' :=
  ⟨[], List.forall_mem_nil _, hclock, hflights⟩

theorem Goes.trans (h : r.Goes S Allowed r') (h' : r'.Goes S Allowed r'') :
    r.Goes S Allowed r'' := by
  obtain ⟨first, hfirst, hclock, hflights⟩ := h
  obtain ⟨second, hsecond, hclock', hflights'⟩ := h'
  refine ⟨first ++ second, ?_, ?_, ?_⟩
  · intro m hm
    exact (List.mem_append.mp hm).elim (hfirst m) (hsecond m)
  · rw [hclock', hclock, List.length_append, Nat.add_assoc]
  · rw [hflights', hflights, hclock, timed_append, Flights.run_append]

theorem Goes.mono (h : r.Goes S Allowed r') (hle : ∀ m, Allowed m → Allowed' m) :
    r.Goes S Allowed' r' := by
  obtain ⟨moves, hmoves, hgoes⟩ := h
  exact ⟨moves, fun m hm => hle m (hmoves m hm), hgoes⟩

theorem goes_step {m : Flights.Move} (hm : Allowed m) (r : Rounds σ) :
    r.Goes S Allowed (r.step S m) := by
  refine ⟨[m], fun m' h => ?_, rfl, rfl⟩
  rwa [List.mem_singleton.mp h]

theorem goes_repeat {f : Rounds σ → Rounds σ} (h : ∀ r : Rounds σ, r.Goes S Allowed (f r)) (n : Nat)
    (r : Rounds σ) : r.Goes S Allowed (Nat.repeat f n r) := by
  induction n with
  | zero => exact .of_eq rfl rfl
  | succ n ih => exact ih.trans (h _)

theorem goes_foldl {f : Rounds σ → Nat → Rounds σ} {l : List Nat}
    (h : ∀ i ∈ l, ∀ r : Rounds σ, r.Goes S Allowed (f r i)) (r : Rounds σ) :
    r.Goes S Allowed (l.foldl f r) := by
  induction l generalizing r with
  | nil => exact .of_eq rfl rfl
  | cons i l ih =>
      have hfirst := h i List.mem_cons_self r
      exact hfirst.trans (ih (fun j hj => h j (List.mem_cons_of_mem i hj)) (f r i))

/-! ## The moves of rounds -/

/-- The moves for some flights: they go on, and their drawings end as `draw` has it. -/
inductive IsVisiting (draw : Nat → Except Failure Chart) (members : List Nat) :
    Flights.Move → Prop
  | proceed {i : Nat} (member : i ∈ members) : IsVisiting draw members (.proceed i)
  | conclude {i : Nat} (member : i ∈ members) (number : Nat) :
    IsVisiting draw members (.conclude i (draw number))

theorem goes_settle {i : Nat} (hi : i ∈ members) (r : Rounds σ) :
    r.Goes S (IsVisiting draw members) (r.settle S i) :=
  goes_repeat (goes_step (.proceed hi)) 4 r

theorem goes_note (r : Rounds σ) (i : Nat) : r.Goes S Allowed (r.note i) := by
  rw [note]
  split <;> exact .of_eq rfl rfl

theorem goes_visit {i : Nat} (hi : i ∈ members) (r : Rounds σ) :
    r.Goes S (IsVisiting draw members) (r.visit S draw i) := by
  have hgoes : ∀ r : Rounds σ, r.Goes S (IsVisiting draw members) ((r.settle S i).note i) :=
    fun r => (goes_settle hi r).trans (goes_note _ i)
  rw [visit]
  split
  · exact hgoes r
  · rename_i number _
    have hmove : IsVisiting draw members (.conclude i (draw number)) := .conclude hi number
    have hconclude := goes_step (S := S) hmove r
    exact (hconclude.trans (.of_eq rfl rfl)).trans (hgoes _)

theorem goes_round (draw : Nat → Except Failure Chart) (members : List Nat) (r : Rounds σ) :
    r.Goes S (IsVisiting draw members) (r.round S draw members) :=
  goes_foldl (fun _ => goes_visit) r

/-- **Rounds are a run**, in which the given flights go on and their drawings end. -/
theorem goes_finish (draw : Nat → Except Failure Chart) (members : List Nat) (r : Rounds σ) :
    r.Goes S (IsVisiting draw members) (r.finish S draw members) :=
  goes_repeat (goes_round draw members) _ r

theorem goes_call (key : String) (times : Nat) (r : Rounds σ) :
    r.Goes S (· = .call key) (r.call S key times).2 := by
  have hstep : ∀ r : Rounds σ, r.Goes S (· = .call key) (r.step S (.call key)) := goes_step rfl
  exact goes_repeat hstep times r

/-! ## Outcomes -/

/-- **A flight in rounds ends with what was there for its key, or with what a drawing gave.**
So it fails only as some drawing has failed. -/
theorem outcome_of_finish (hfresh : r.flights.board.Fresh) (called : String) (times : Nat)
    (draw : Nat → Except Failure Chart) (members : List Nat) {i : Nat} {key : String}
    {outcome : Except Failure Chart}
    (hdone : ((r.call S called times).2.finish S draw members).flights.board.IsAt i key
      (.done outcome)) :
    match outcome with
    | .ok chart => ∀ Holds, S.Faithful Holds →
        r.flights.Near key chart ∨ r.flights.Stored Holds key chart ∨ ∃ n, draw n = .ok chart
    | .error e => ∃ n, draw n = .error e := by
  have hgoes : r.Goes S (fun m => m = .call called ∨ IsVisiting draw members m)
      ((r.call S called times).2.finish S draw members) :=
    ((goes_call called times r).mono fun _ => .inl).trans
      ((goes_finish draw members _).mono fun _ => .inr)
  obtain ⟨moves, hmoves, -, hflights⟩ := hgoes
  rw [hflights] at hdone
  -- A drawing that ends in the run ends as `draw` has it.
  have hdrawn : ∀ j k drawn, r.flights.Returns S (timed r.clock moves) j k drawn →
      ∃ n, draw n = drawn := by
    rintro j k drawn ⟨before, now, after, cell, hsplit, -⟩
    have hmem : (now, .conclude j drawn) ∈ timed r.clock moves := by
      rw [hsplit]
      exact List.mem_append_right before List.mem_cons_self
    rcases hmoves _ (mem_of_mem_timed hmem) with he | hvisiting
    · contradiction
    · cases hvisiting with
      | conclude member number => exact ⟨number, rfl⟩
  match outcome with
  | .error e => exact hdrawn i key _ (Flights.returns_of_failed hfresh hdone)
  | .ok chart =>
      intro Holds hS
      have hstart : r.flights.Sound Holds fun key chart => r.flights.Near key chart ∨
          r.flights.Stored Holds key chart ∨ ∃ n, draw n = .ok chart := by
        refine ⟨⟨fun key e he => .inl ⟨e, he, rfl⟩, ?_⟩, hfresh.valid,
          Flights.hasGood_of_fresh hfresh⟩
        exact fun key payload chart hk hd => .inr (.inl ⟨payload, hk, hd⟩)
      have hrun := hstart.run hS fun j k chart h => .inr (.inr (hdrawn j k _ h))
      exact hrun.charts i key _ chart hdone rfl

end Rounds

end Almanac
