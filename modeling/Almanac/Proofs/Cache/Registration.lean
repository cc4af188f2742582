import Mathlib
import Almanac.Proofs.Cache.Ownership

/-!
# No key keeps a cell that nobody is in

The flight that finds its key without a cell brings one and joins it, and a flight that
leaves a cell takes it away from the key.  So whatever the moves of a run are, each cell
that a key has is joined by an unfinished flight for that very key; and once all flights
are over, no key has a cell (`Flights.registered_cells_are_joined`).
-/

namespace Almanac

theorem Table.eq_empty_of_get? {κ α : Type} [DecidableEq κ] {t : Table κ α}
    (h : ∀ name, t.get? name = none) : t = .empty := by
  rcases t with ⟨_ | ⟨⟨name, a⟩, entries⟩, hnodup⟩
  · rfl
  · have hfirst := Table.get?_eq_some_iff (t := ⟨(name, a) :: entries, hnodup⟩).mpr
      List.mem_cons_self
    rw [h name] at hfirst
    contradiction

namespace Board

variable {b b' : Board} {i j cell c : Nat} {key k : String} {p q : Flight.Phase}
  {view : Flight.Phase → Option Nat} {chart : Chart}

/-! ## Flights that keep what they have -/

theorem Has.set_of_ne (h : b.Has view j key cell) (hne : i ≠ j) :
    (b.set i q).Has view j key cell := by
  obtain ⟨r, hr, hv⟩ := h
  exact ⟨r, isAt_set.mpr ⟨r, hr, (if_neg hne).symm⟩, hv⟩

theorem Has.set_of_le (h : b.Has view j key cell) (hat : b.IsAt i k p)
    (hle : ∀ cell, view p = some cell → view q = some cell) :
    (b.set i q).Has view j key cell := by
  by_cases hij : i = j
  · subst hij
    obtain ⟨r, hr, hv⟩ := h
    obtain ⟨rfl, rfl⟩ := hat.unique hr
    exact ⟨q, isAt_set_self hr, hle cell hv⟩
  · exact h.set_of_ne hij

theorem Has.hand (h : b.Has (·.cell?) j key cell) (c : Nat) (chart : Chart) :
    (b.hand c chart).Has (·.cell?) j key cell := by
  obtain ⟨r, hr, hv⟩ := h
  exact ⟨r.taking c chart, isAt_hand.mpr ⟨r, hr, rfl⟩, (r.cell?_taking c chart).trans hv⟩

/-! ## Cells that are joined -/

/-- Every cell that a key has is joined by a flight for this key. -/
structure Tended (b : Board) : Prop where
  joined : ∀ {key cell}, b.inflight.get? key = some cell → ∃ i, b.Has (·.cell?) i key cell

theorem Tended.set (h : b.Tended) (hat : b.IsAt i k p)
    (hle : ∀ cell, p.cell? = some cell → q.cell? = some cell) : (b.set i q).Tended := by
  refine ⟨fun hr => ?_⟩
  obtain ⟨j, hj⟩ := h.joined hr
  exact ⟨j, hj.set_of_le hat hle⟩

/-- A flight leaves its cell and takes it away from the key, so the cell need not be
joined by others. -/
theorem Tended.leave (h : b.Tended) (hat : b.IsAt i k p) (hcell : p.cell? = some c) :
    ((b.leave k c).set i q).Tended := by
  refine ⟨fun hr => ?_⟩
  obtain ⟨hr, hleft⟩ := get?_leave.mp hr
  obtain ⟨j, hj⟩ := h.joined hr
  have hne : i ≠ j := by
    rintro rfl
    obtain ⟨r, hr, hv⟩ := hj
    obtain ⟨rfl, rfl⟩ := hat.unique hr
    exact hleft ⟨rfl, Option.some.inj (hv.symm.trans hcell)⟩
  exact ⟨j, Has.set_of_ne (b := b.leave k c) hj hne⟩

theorem Tended.hand (h : b.Tended) (c : Nat) (chart : Chart) : (b.hand c chart).Tended := by
  refine ⟨fun hr => ?_⟩
  obtain ⟨j, hj⟩ := h.joined hr
  exact ⟨j, hj.hand c chart⟩

/-- **Every move keeps the cells of the keys joined.** -/
theorem Tended.step {m : Flights.Move} (h : b.Tended) (hs : b.Step m b') : b'.Tended := by
  cases hs with
  | idle => exact h
  | @call k =>
      refine ⟨fun hr => ?_⟩
      obtain ⟨j, p, hat, hp⟩ := h.joined hr
      exact ⟨j, p, hat.to_call k, hp⟩
  | roam at' before after fine =>
      apply h.set at'
      intro cell hc
      rw [before] at hc
      contradiction
  | join at' registered => exact h.set at' fun cell hc => by cases hc
  | @found _ i k at' unregistered =>
      refine ⟨fun {key cell} hr => ?_⟩
      have hput : (b.inflight.put k b.cells).get? key = some cell := hr
      rw [Table.get?_put] at hput
      split at hput
      -- The new cell is joined by the flight that brings it.
      · rename_i hk
        subst hk
        rw [← Option.some.inj hput]
        exact ⟨i, _, isAt_set_self (b := b.register key) at', rfl⟩
      · obtain ⟨j, hj⟩ := h.joined hput
        exact ⟨j, Has.set_of_le (b := b.register k) hj at' fun cell hc => by cases hc⟩
  | lead at' unled => exact h.set at' fun cell hc => hc
  | work at' before after =>
      apply h.set at'
      intro cell hc
      rw [Flight.Phase.cell?_of_leads? before] at hc
      rw [Flight.Phase.cell?_of_leads? after, hc]
  | land at' joined lands => exact h.leave at' joined
  | @deliver _ i c k p chart at' joined alone =>
      have hat : (b.hand c chart).IsAt i k (p.taking c chart) := isAt_hand.mpr ⟨p, at', rfl⟩
      apply (h.hand c chart).leave hat
      rw [Flight.Phase.cell?_taking, Flight.Phase.cell?_of_claims? joined]
  | shutdown => exact ⟨fun hr => by cases hr⟩

theorem Fresh.tended (h : b.Fresh) : b.Tended := by
  refine ⟨fun {key cell} hr => ?_⟩
  rw [h.2 key] at hr
  contradiction

end Board

namespace Flights

variable {σ : Type} {S : Store σ} {fs : Flights σ}

/-- **Each cell that a key has is joined by an unfinished flight for that key**, whoever
succeeds, fails or is cancelled, and even if all cells are forgotten on the way.  Once no
flight is unfinished, no key has a cell. -/
theorem registered_cells_are_joined (hfresh : fs.board.Fresh) (moves : List (Nat × Move)) :
    (∀ key cell, (fs.run S moves).board.inflight.get? key = some cell →
      ∃ i p, (fs.run S moves).board.IsAt i key p ∧ p.isOver = false ∧ p.cell? = some cell) ∧
      ((∀ i key p, (fs.run S moves).board.IsAt i key p → p.isOver = true) →
        (fs.run S moves).board.inflight = .empty) := by
  have htended : (fs.run S moves).board.Tended := by
    apply run_induction (P := fun fs => fs.board.Tended) hfresh.tended
    intro before now m after _ h
    exact h.step ((fs.run S before).step_board S now m)
  have hjoined : ∀ key cell, (fs.run S moves).board.inflight.get? key = some cell →
      ∃ i p, (fs.run S moves).board.IsAt i key p ∧ p.isOver = false ∧ p.cell? = some cell := by
    intro key cell hr
    obtain ⟨i, p, hat, hp⟩ := htended.joined hr
    refine ⟨i, p, hat, ?_, hp⟩
    rw [← Bool.not_eq_true]
    intro hover
    have hcell : p.cell? = some cell := hp
    rw [Flight.Phase.cell?_of_isOver hover] at hcell
    contradiction
  refine ⟨hjoined, fun hover => ?_⟩
  apply Table.eq_empty_of_get?
  intro key
  rcases hr : (fs.run S moves).board.inflight.get? key with _ | cell
  · rfl
  · obtain ⟨i, p, hat, hlive, -⟩ := hjoined key cell hr
    rw [hover i key p hat] at hlive
    contradiction

/-- A waiting flight is cancelled while the first one draws, and a third one brings a new
cell for the same key. -/
def replaced : List (Nat × Move) :=
  List.map (Prod.mk 0) [.call "k", .proceed 0, .proceed 0, .proceed 0, .proceed 0,
    .call "k", .proceed 1, .proceed 1, .cancel 1, .call "k", .proceed 2, .proceed 2]

/-- After that the cells are forgotten, a fourth flight brings another one, and all are
cancelled. -/
def deserted : List (Nat × Move) :=
  replaced ++ List.map (Prod.mk 0) [.shutdown, .call "k", .proceed 3, .proceed 3,
    .cancel 0, .cancel 3, .cancel 2]

theorem registered_cells_are_joined_deserted :
    (∃ i p, (nobody.run SharedStore.store replaced).board.IsAt i "k" p ∧ p.isOver = false ∧
      p.cell? = some 1) ∧ (nobody.run SharedStore.store deserted).board.inflight = .empty := by
  constructor
  · exact (registered_cells_are_joined fresh_nobody replaced).1 "k" 1 rfl
  · apply (registered_cells_are_joined fresh_nobody deserted).2
    intro i key p hat
    have hflights : (nobody.run SharedStore.store deserted).board.flights
        = List.replicate 4 ⟨"k", .cancelled⟩ := rfl
    rw [Board.IsAt, hflights, List.getElem?_replicate, Option.ite_none_right_eq_some] at hat
    cases hat.2
    rfl

end Flights

end Almanac
