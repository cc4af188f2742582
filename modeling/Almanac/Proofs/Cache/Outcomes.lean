import Mathlib
import Almanac.Proofs.Cache.FlightSoundness
import Almanac.Proofs.Cache.Onward

/-!
# Every flight ends with an outcome of its own

However the moves of many flights are mixed, whoever leads a cell and whoever takes it
over: a flight that runs to its end has a chart for its own key, which was drawn for that
key or found in a tier, or else the failure with which its own drawing has ended, and that
drawing ended only once (`Flights.outcome_is_own`).
-/

namespace Almanac

namespace Flights

variable {σ : Type} {S : Store σ} {fs : Flights σ} {i : Nat} {key : String}

/-! ## Drawings that have ended -/

/-- In the course of some moves the drawing of a flight ends. -/
def Returns (S : Store σ) (fs : Flights σ) (moves : List (Nat × Move)) (i : Nat) (key : String)
    (drawn : Except Failure Chart) : Prop :=
  ∃ before now after cell, moves = before ++ (now, .conclude i drawn) :: after ∧
    (fs.run S before).board.IsAt i key (.drawing cell)

/-- The drawing of a flight is over, and this is what came of it. -/
def HasDrawn (fs : Flights σ) (i : Nat) (key : String) (drawn : Except Failure Chart) : Prop :=
  ∃ p, fs.board.IsAt i key p ∧ 4 < p.rank ∧ ∀ e, p.failure? = some e ↔ drawn = .error e

theorem hasDrawn_conclude (now : Nat) (drawn : Except Failure Chart) {cell : Nat}
    (hat : fs.board.IsAt i key (.drawing cell)) :
    (fs.conclude now i drawn).HasDrawn i key drawn := by
  have hflights : fs.flights[i]? = some ⟨key, .drawing cell⟩ := hat
  rw [conclude, hflights]
  cases drawn with
  | error e =>
      refine ⟨.done (.error e), Board.isAt_set_self (b := fs.board) hat, by simp, ?_⟩
      simp [Flight.Phase.failure?]
  | ok chart =>
      refine ⟨.publishing cell chart, Board.isAt_set_self (b := fs.board) hat, by simp, ?_⟩
      simp [Flight.Phase.failure?]

theorem HasDrawn.step {drawn : Except Failure Chart} (h : fs.HasDrawn i key drawn) (now : Nat)
    (m : Move) : (fs.step S now m).HasDrawn i key drawn := by
  obtain ⟨p, hat, hp, hdrawn⟩ := h
  obtain ⟨q, hq, hpq⟩ := (step_goes S fs now m).onward i key p hat
  rcases hpq with rfl | hlt
  · exact ⟨q, hq, hp, hdrawn⟩
  · refine ⟨q, hq, Nat.lt_trans hp hlt, fun e => ?_⟩
    -- Whoever fails by this move was drawing before it, and whoever has failed stays so.
    have hbefore : p.failure? ≠ some e := by
      intro hfail
      cases p with
      | done outcome => cases q <;> simp at hlt
      | _ => cases hfail
    have hafter : q.failure? ≠ some e := by
      intro hfail
      obtain rfl : q = .done (.error e) := by
        rcases q with _ | _ | _ | _ | _ | _ | _ | ⟨e' | c⟩ | _ <;> cases hfail
        rfl
      rcases (fs.step_board S now m).failure hq with hold | ⟨-, cell, hold⟩
      · obtain ⟨-, rfl⟩ := hat.unique hold
        exact hbefore rfl
      · obtain ⟨-, rfl⟩ := hat.unique hold
        simp at hp
    exact ⟨fun h => absurd h hafter, fun h => absurd ((hdrawn e).mpr h) hbefore⟩

theorem Returns.hasDrawn {moves : List (Nat × Move)} {drawn : Except Failure Chart}
    (h : fs.Returns S moves i key drawn) : (fs.run S moves).HasDrawn i key drawn := by
  obtain ⟨before, now, after, cell, rfl, hat⟩ := h
  rw [run_append]
  show (((fs.run S before).conclude now i drawn).run S after).HasDrawn i key drawn
  apply run_induction (P := fun fs => fs.HasDrawn i key drawn)
  · exact hasDrawn_conclude now drawn hat
  · intro _ now m _ _ h
    exact h.step now m

theorem returns_of_failed (hfresh : fs.board.Fresh) {moves : List (Nat × Move)} {e : Failure}
    (hfail : (fs.run S moves).board.IsAt i key (.done (.error e))) :
    fs.Returns S moves i key (.error e) := by
  have hall : ∀ i key e, (fs.run S moves).board.IsAt i key (.done (.error e)) →
      fs.Returns S moves i key (.error e) := by
    apply run_induction (P := fun fs' => ∀ i key e, fs'.board.IsAt i key (.done (.error e)) →
      fs.Returns S moves i key (.error e))
    · intro i key e hat
      rw [Board.IsAt, hfresh.1] at hat
      contradiction
    · intro before now m after hsplit ih i key e hat
      rcases ((fs.run S before).step_board S now m).failure hat with hold | ⟨rfl, cell, hdrawing⟩
      · exact ih i key e hold
      · exact ⟨before, now, after, cell, hsplit, hdrawing⟩
  exact hall i key e hfail

/-! ## Charts that have come -/

/-- In the course of some moves a chart comes for a key. -/
def Brought (S : Store σ) (fs : Flights σ) (moves : List (Nat × Move)) (key : String)
    (chart : Chart) : Prop :=
  ∃ before now m after, moves = before ++ (now, m) :: after ∧
    (fs.run S before).Brings S now m key chart

variable {Good : String → Chart → Prop} {moves : List (Nat × Move)}

theorem Stocked.run (h : fs.Stocked Good)
    (hgood : ∀ key chart, fs.Brought S moves key chart → Good key chart) :
    (fs.run S moves).Stocked Good := by
  apply run_induction (P := fun fs => fs.Stocked Good) h
  intro before now m after hsplit h
  apply h.step (step_goes S _ now m)
  intro key chart hb
  exact hgood key chart ⟨before, now, m, after, hsplit, hb⟩

theorem Sound.run {Holds : σ → String → ByteArray → Prop} (hS : S.Faithful Holds)
    (h : fs.Sound Holds Good)
    (hgood : ∀ i key chart, fs.Returns S moves i key (.ok chart) → Good key chart) :
    (fs.run S moves).Sound Holds Good := by
  apply run_induction (P := fun fs => fs.Sound Holds Good) h
  intro before now m after hsplit h
  apply h.step hS now
  match m with
  | .conclude i (.ok chart) =>
      exact fun key cell hat => hgood i key chart ⟨before, now, after, cell, hsplit, hat⟩
  | .conclude i (.error e) => trivial
  | .call key => trivial
  | .proceed i => trivial
  | .cancel i => trivial
  | .shutdown => trivial

/-! ## Outcomes -/

def Near (fs : Flights σ) (key : String) (chart : Chart) : Prop :=
  ∃ e, fs.cache.layer.tier.entries.get? key = some e ∧ e.value = chart

def Stored (Holds : σ → String → ByteArray → Prop) (fs : Flights σ) (key : String)
    (chart : Chart) : Prop :=
  ∃ payload, Holds fs.cache.store key payload ∧ Layer.decode payload = some chart

theorem hasGood_of_fresh (hfresh : fs.board.Fresh) : fs.board.HasGood Good := by
  intro i key p chart hat
  rw [Board.IsAt, hfresh.1] at hat
  contradiction

/-- **A flight that runs to its end has an outcome of its own.**  A chart was in the local
tier before, or a drawing for the key ended with it, or the store answered with it; from a
store that makes nothing up, it was there before or was drawn.  A failure is what the
flight's own drawing ended with, and nothing else has come of that drawing. -/
theorem outcome_is_own (hfresh : fs.board.Fresh) {outcome : Except Failure Chart}
    (hdone : (fs.run S moves).board.IsAt i key (.done outcome)) :
    match outcome with
    | .ok chart =>
      (fs.Near key chart ∨ fs.Brought S moves key chart) ∧
        ∀ Holds, S.Faithful Holds →
          fs.Near key chart ∨ fs.Stored Holds key chart ∨ ∃ j, fs.Returns S moves j key (.ok chart)
    | .error e => ∀ drawn, fs.Returns S moves i key drawn ↔ drawn = .error e := by
  match outcome with
  | .ok chart =>
      constructor
      · have hstart : fs.Stocked fun key chart => fs.Near key chart ∨ fs.Brought S moves key chart :=
          ⟨fun key e he => .inl ⟨e, he, rfl⟩, hfresh.valid, hasGood_of_fresh hfresh⟩
        exact (hstart.run fun _ _ => .inr).charts i key _ chart hdone rfl
      · intro Holds hS
        have hstart : fs.Sound Holds fun key chart =>
            fs.Near key chart ∨ fs.Stored Holds key chart ∨
              ∃ j, fs.Returns S moves j key (.ok chart) := by
          refine ⟨⟨fun key e he => .inl ⟨e, he, rfl⟩, ?_⟩, hfresh.valid, hasGood_of_fresh hfresh⟩
          exact fun key payload chart hk hd => .inr (.inl ⟨payload, hk, hd⟩)
        exact (hstart.run hS fun j _ _ h => .inr (.inr ⟨j, h⟩)).charts i key _ chart hdone rfl
  | .error e =>
      have hreturned := returns_of_failed hfresh hdone
      intro drawn
      refine ⟨fun h => ?_, fun h => h ▸ hreturned⟩
      obtain ⟨p, hat, -, hdrawn⟩ := h.hasDrawn
      obtain ⟨-, rfl⟩ := hat.unique hdone
      exact (hdrawn e).mp rfl

def blankChart : Chart := ⟨⟨"", "", "", ""⟩, "", [], []⟩

/-- The first flight fails, the second takes over its cell and draws, and a third, which
came between, finds the chart. -/
def takeover : List (Nat × Move) :=
  List.map (Prod.mk 0) [.call "k", .proceed 0, .proceed 0, .proceed 0, .proceed 0,
    .call "k", .proceed 1, .proceed 1, .conclude 0 (.error (.missingChart "down")),
    .call "k", .proceed 2, .proceed 2, .proceed 1, .proceed 1, .conclude 1 (.ok blankChart),
    .proceed 1, .proceed 2]

theorem outcome_is_own_takeover :
    (∀ drawn, nobody.Returns SharedStore.store takeover 0 "k" drawn ↔
      drawn = .error (.missingChart "down")) ∧
      (nobody.Near "k" blankChart ∨ nobody.Brought SharedStore.store takeover "k" blankChart) := by
  have hfailed : (nobody.run SharedStore.store takeover).board.IsAt 0 "k"
      (.done (.error (.missingChart "down"))) := rfl
  have hfound : (nobody.run SharedStore.store takeover).board.IsAt 2 "k"
      (.done (.ok blankChart)) := rfl
  constructor
  · exact outcome_is_own fresh_nobody hfailed
  · exact (outcome_is_own fresh_nobody hfound).1

end Flights

end Almanac
