import Mathlib
import Almanac.Cache.SharedStore
import Almanac.Proofs.Cache.Board

/-!
# Cells and their keys

What every run keeps (`Board.Valid`): a cell has one key, no cell has two leaders, and a
cell whose chart has been handed on has no key any more.
-/

namespace Almanac

/-! ## Who has what -/

def Flight.Phase.handed? : Phase → Option Nat
  | handed cell _ => some cell
  | _ => none

namespace Flight.Phase

theorem cell?_of_leads? {p : Phase} {cell : Nat} (h : p.leads? = some cell) :
    p.cell? = some cell := by
  cases p <;> first | exact h | cases h

theorem cell?_of_claims? {p : Phase} {cell : Nat} (h : p.claims? = some cell) :
    p.cell? = some cell := by
  cases p <;> first | exact h | cases h

theorem cell?_of_handed? {p : Phase} {cell : Nat} (h : p.handed? = some cell) :
    p.cell? = some cell := by
  cases p <;> first | exact h | cases h

theorem cell?_of_isOver {p : Phase} (h : p.isOver = true) : p.cell? = none := by
  cases p <;> first | rfl | cases h

theorem leads?_of_cell? {p : Phase} (h : p.cell? = none) : p.leads? = none := by
  cases p <;> first | rfl | cases h

theorem handed?_of_cell? {p : Phase} (h : p.cell? = none) : p.handed? = none := by
  cases p <;> first | rfl | cases h

theorem handed?_of_leads? {p : Phase} {cell : Nat} (h : p.leads? = some cell) :
    p.handed? = none := by
  cases p <;> first | rfl | cases h

theorem cell?_taking (p : Phase) (cell : Nat) (chart : Chart) :
    (p.taking cell chart).cell? = p.cell? := by
  cases p with
  | queued c =>
      rw [taking]
      split
      · rename_i he
        rw [he]
        rfl
      · rfl
  | _ => rfl

theorem leads?_taking (p : Phase) (cell : Nat) (chart : Chart) :
    (p.taking cell chart).leads? = p.leads? := by
  cases p with
  | queued c =>
      rw [taking]
      split <;> rfl
  | _ => rfl

/-- Whoever is handed a chart was handed it before, or has waited for it. -/
theorem handed?_of_taking {p : Phase} {cell c : Nat} {chart : Chart}
    (h : (p.taking cell chart).handed? = some c) :
    p.handed? = some c ∨ c = cell ∧ p.claims? = some cell := by
  cases p with
  | queued d =>
      rw [taking] at h
      split at h
      · rename_i he
        exact .inr ⟨(Option.some.inj h).symm, by rw [he]; rfl⟩
      · cases h
  | _ => exact .inl h

/-- Nobody waits any more for a chart that has been handed on. -/
theorem claims?_of_taking {p : Phase} {cell c : Nat} {chart : Chart}
    (h : (p.taking cell chart).claims? = some c) :
    p.claims? = some c ∧ (c = cell → p.leads? = some c) := by
  cases p with
  | queued d =>
      rw [taking] at h
      split at h
      · cases h
      · rename_i he
        exact ⟨h, fun hc => absurd ((Option.some.inj h).trans hc) he⟩
  | _ => exact ⟨h, fun _ => h⟩

end Flight.Phase

namespace Board

variable {b b' : Board} {i j cell c : Nat} {key k : String} {p q : Flight.Phase}
  {view : Flight.Phase → Option Nat} {chart : Chart}

/-- A flight for a key has a cell in the given sense. -/
def Has (b : Board) (view : Flight.Phase → Option Nat) (i : Nat) (key : String) (cell : Nat) :
    Prop := ∃ p, b.IsAt i key p ∧ view p = some cell

theorem IsAt.unique (h : b.IsAt i key p) (h' : b.IsAt i k q) : key = k ∧ p = q := by
  have he := h.symm.trans h'
  simp only [Option.some.injEq, Flight.mk.injEq] at he
  exact he

theorem IsAt.has (h : b.IsAt i key p) (hp : view p = some cell) : b.Has view i key cell :=
  ⟨p, h, hp⟩

theorem isAt_set :
    (b.set i q).IsAt j key p ↔ ∃ p', b.IsAt j key p' ∧ p = if i = j then q else p' := by
  simp only [IsAt, set, List.getElem?_modify, Option.map_eq_map, Option.map_eq_some_iff]
  constructor
  · rintro ⟨⟨k, p'⟩, hat, he⟩
    refine ⟨p', ?_, ?_⟩
    · split at he <;> simp_all
    · split at he <;> simp_all
  · rintro ⟨p', hat, rfl⟩
    exact ⟨_, hat, by split <;> rfl⟩

theorem isAt_set_self (hat : b.IsAt i key p) : (b.set i q).IsAt i key q :=
  isAt_set.mpr ⟨p, hat, (if_pos rfl).symm⟩

theorem set_set (b : Board) (i : Nat) (p q : Flight.Phase) : (b.set i p).set i q = b.set i q := by
  simp only [set, mk.injEq, and_true]
  apply List.ext_getElem?
  intro j
  simp only [List.getElem?_modify]
  cases b.flights[j]? with
  | none => rfl
  | some f =>
      by_cases h : i = j
      · simp only [if_pos h, Option.map_eq_map, Option.map_some]
      · simp only [if_neg h, Option.map_eq_map, Option.map_some]

theorem set_self (hat : b.IsAt i key p) : b.set i p = b := by
  have hsame : b.flights.modify i (fun f => { f with phase := p }) = b.flights := by
    apply List.ext_getElem?
    intro j
    rw [List.getElem?_modify]
    by_cases h : i = j
    · subst h
      rw [hat]
      simp
    · simp [h]
  simp only [set, hsame]

theorem length_set (b : Board) (i : Nat) (p : Flight.Phase) :
    (b.set i p).flights.length = b.flights.length := by
  rw [set, List.length_modify]

theorem IsAt.lt (h : b.IsAt i key p) : i < b.flights.length :=
  (List.getElem?_eq_some_iff.mp h).1

theorem IsAt.to_call (h : b.IsAt i key p) (k : String) : (b.call k).IsAt i key p := by
  rw [IsAt, call, List.getElem?_append_left h.lt]
  exact h

theorem isAt_call_self (b : Board) (key : String) :
    (b.call key).IsAt b.flights.length key .called := by
  rw [IsAt, call, List.getElem?_append_right (Nat.le_refl _), Nat.sub_self]
  rfl

theorem Has.of_set (h : (b.set i q).Has view j key cell) :
    j = i ∧ view q = some cell ∧ (∃ p, b.IsAt i key p) ∨ j ≠ i ∧ b.Has view j key cell := by
  obtain ⟨p, hat, hv⟩ := h
  obtain ⟨p', hat', rfl⟩ := isAt_set.mp hat
  split at hv
  · rename_i he
    subst he
    exact .inl ⟨rfl, hv, p', hat'⟩
  · rename_i he
    exact .inr ⟨fun h => he h.symm, hat'.has hv⟩

theorem Has.of_set_of_le (hat : b.IsAt i k p)
    (hle : ∀ cell, view q = some cell → view p = some cell)
    (h : (b.set i q).Has view j key cell) : b.Has view j key cell := by
  rcases h.of_set with ⟨rfl, hv, p', hat'⟩ | ⟨-, h⟩
  · obtain ⟨rfl, rfl⟩ := hat.unique hat'
    exact hat.has (hle cell hv)
  · exact h

theorem Has.of_set_of_none (hat : b.IsAt i k p) (hnone : view q = none)
    (h : (b.set i q).Has view j key cell) : b.Has view j key cell := by
  apply h.of_set_of_le hat
  intro cell hv
  rw [hnone] at hv
  contradiction

theorem isAt_hand : (b.hand c chart).IsAt j key p ↔
    ∃ p', b.IsAt j key p' ∧ p = p'.taking c chart := by
  simp only [IsAt, hand, List.getElem?_map, Option.map_eq_some_iff]
  constructor
  · rintro ⟨⟨k, p'⟩, hat, he⟩
    simp only [Flight.mk.injEq] at he
    obtain ⟨rfl, rfl⟩ := he
    exact ⟨p', hat, rfl⟩
  · rintro ⟨p', hat, rfl⟩
    exact ⟨⟨key, p'⟩, hat, rfl⟩

theorem IsAt.of_call (h : (b.call k).IsAt j key p) :
    b.IsAt j key p ∨ j = b.flights.length ∧ key = k ∧ p = .called := by
  simp only [IsAt, call, List.getElem?_append] at h
  split at h
  · exact .inl h
  · rw [List.getElem?_singleton] at h
    split at h
    · simp only [Option.some.injEq, Flight.mk.injEq] at h
      exact .inr ⟨by omega, h.1.symm, h.2.symm⟩
    · contradiction

theorem Has.of_hand (h : (b.hand c chart).Has view j key cell) :
    ∃ p, b.IsAt j key p ∧ view (p.taking c chart) = some cell := by
  obtain ⟨p, hat, hv⟩ := h
  obtain ⟨p', hold, rfl⟩ := isAt_hand.mp hat
  exact ⟨p', hold, hv⟩

theorem Has.of_call (hview : view .called = none) (h : (b.call k).Has view j key cell) :
    b.Has view j key cell := by
  obtain ⟨p, hat, hv⟩ := h
  rcases hat.of_call with hold | ⟨-, -, rfl⟩
  · exact hold.has hv
  · rw [hview] at hv
    contradiction

/-- Leaving takes a cell away from its key, and nothing else. -/
theorem get?_leave : (b.leave key cell).inflight.get? k = some c ↔
    b.inflight.get? k = some c ∧ ¬(k = key ∧ c = cell) := by
  simp only [leave]
  split
  · rename_i hreg
    rw [Table.get?_erase]
    split
    · rename_i hk
      subst hk
      refine ⟨(by cases ·), ?_⟩
      rintro ⟨h, hne⟩
      exact absurd ⟨rfl, Option.some.inj (h.symm.trans hreg)⟩ hne
    · rename_i hk
      exact ⟨fun h => ⟨h, fun he => hk he.1⟩, And.left⟩
  · rename_i hreg
    refine ⟨fun h => ⟨h, ?_⟩, And.left⟩
    rintro ⟨rfl, rfl⟩
    exact hreg h

/-! ## What every run keeps -/

/-- A cell belongs to one key, and the next one is new. -/
structure Owned (b : Board) : Prop where
  registered_lt : ∀ {key cell}, b.inflight.get? key = some cell → cell < b.cells
  joined_lt : ∀ {i key cell}, b.Has (·.cell?) i key cell → cell < b.cells
  registered_once : ∀ {key k cell}, b.inflight.get? key = some cell →
    b.inflight.get? k = some cell → key = k
  registered_key : ∀ {i key k cell}, b.Has (·.cell?) i key cell →
    b.inflight.get? k = some cell → key = k
  same_key : ∀ {i j key k cell}, b.Has (·.cell?) i key cell → b.Has (·.cell?) j k cell → key = k

structure LedOnce (b : Board) : Prop where
  eq : ∀ {i j key k cell}, b.Has (·.leads?) i key cell → b.Has (·.leads?) j k cell → i = j

/-- A cell whose chart has been handed on has no key any more. -/
structure HandedLeft (b : Board) : Prop where
  ne : ∀ {i key cell}, b.Has (·.handed?) i key cell → b.inflight.get? key ≠ some cell

theorem Owned.of_le (h : b.Owned) (hcells : b'.cells = b.cells)
    (hreg : ∀ {key cell}, b'.inflight.get? key = some cell → b.inflight.get? key = some cell)
    (hhas : ∀ {i key cell}, b'.Has (·.cell?) i key cell → b.Has (·.cell?) i key cell) :
    b'.Owned where
  registered_lt hr := hcells ▸ h.registered_lt (hreg hr)
  joined_lt hj := hcells ▸ h.joined_lt (hhas hj)
  registered_once hr hr' := h.registered_once (hreg hr) (hreg hr')
  registered_key hj hr := h.registered_key (hhas hj) (hreg hr)
  same_key hj hj' := h.same_key (hhas hj) (hhas hj')

theorem Owned.join (h : b.Owned) (hreg : b.inflight.get? k = some c) (hat : b.IsAt i k p) :
    (b.set i (.queued c)).Owned := by
  -- The flight that joins is the only one that is new in a cell.
  have old : ∀ {j key cell}, (b.set i (.queued c)).Has (·.cell?) j key cell →
      (key = k ∧ cell = c) ∨ b.Has (·.cell?) j key cell := by
    intro j key cell hj
    rcases hj.of_set with ⟨rfl, hc, -⟩ | ⟨-, hj⟩
    · obtain ⟨q, hat', -⟩ := hj
      obtain ⟨p', hat', -⟩ := isAt_set.mp hat'
      exact .inl ⟨(hat'.unique hat).1, (Option.some.inj hc).symm⟩
    · exact .inr hj
  refine ⟨h.registered_lt, ?_, h.registered_once, ?_, ?_⟩
  · intro j key cell hj
    rcases old hj with ⟨-, rfl⟩ | hj
    · exact h.registered_lt hreg
    · exact h.joined_lt hj
  · intro j key k' cell hj hr
    rcases old hj with ⟨rfl, rfl⟩ | hj
    · exact h.registered_once hreg hr
    · exact h.registered_key hj hr
  · intro j j' key k' cell hj hj'
    rcases old hj with ⟨rfl, rfl⟩ | hb
    · rcases old hj' with ⟨rfl, -⟩ | hb'
      · rfl
      · exact (h.registered_key hb' hreg).symm
    · rcases old hj' with ⟨rfl, rfl⟩ | hb'
      · exact h.registered_key hb hreg
      · exact h.same_key hb hb'

/-- The next cell is nobody's, so it may be given to a key. -/
theorem Owned.register (h : b.Owned) (k : String) : (b.register k).Owned := by
  have hreg : ∀ {key cell}, (b.register k).inflight.get? key = some cell →
      (key = k ∧ cell = b.cells) ∨ b.inflight.get? key = some cell := by
    intro key cell hr
    rw [Board.register, Table.get?_put] at hr
    split at hr
    · exact .inl ⟨‹_›, (Option.some.inj hr).symm⟩
    · exact .inr hr
  refine ⟨?_, fun hj => Nat.lt_succ_of_lt (h.joined_lt hj), ?_, ?_, h.same_key⟩
  · intro key cell hr
    rcases hreg hr with ⟨-, rfl⟩ | hr
    · exact Nat.lt_succ_self _
    · exact Nat.lt_succ_of_lt (h.registered_lt hr)
  · intro key k' cell hr hr'
    rcases hreg hr with ⟨rfl, rfl⟩ | hb
    · rcases hreg hr' with ⟨rfl, -⟩ | hb'
      · rfl
      · exact absurd (h.registered_lt hb') (Nat.lt_irrefl _)
    · rcases hreg hr' with ⟨rfl, rfl⟩ | hb'
      · exact absurd (h.registered_lt hb) (Nat.lt_irrefl _)
      · exact h.registered_once hb hb'
  · intro j key k' cell hj hr
    rcases hreg hr with ⟨-, rfl⟩ | hr
    · exact absurd (h.joined_lt hj) (Nat.lt_irrefl _)
    · exact h.registered_key hj hr

theorem Owned.step {m : Flights.Move} (h : b.Owned) (hs : b.Step m b') : b'.Owned := by
  cases hs with
  | idle => exact h
  | call => exact h.of_le rfl id (Has.of_call rfl)
  | roam at' before after fine =>
      exact h.of_le rfl id (Has.of_set_of_none at' after)
  | join at' registered => exact h.join registered at'
  | found at' unregistered =>
      refine (h.register _).join ?_ at'
      rw [Board.register, Table.get?_put, if_pos rfl]
  | lead at' unled => exact h.of_le rfl id (Has.of_set_of_le at' fun _ hc => hc)
  | work at' before after =>
      refine h.of_le rfl id (Has.of_set_of_le at' fun _ hc => ?_)
      rw [Flight.Phase.cell?_of_leads? before, ← hc, Flight.Phase.cell?_of_leads? after]
  | land at' joined lands =>
      refine h.of_le rfl (fun hr => (get?_leave.mp hr).1) ?_
      exact Has.of_set_of_none (b := b.leave _ _) at' (Flight.Phase.cell?_of_isOver lands.isOver)
  | deliver at' joined alone =>
      refine h.of_le rfl (fun hr => (get?_leave.mp hr).1) ?_
      intro j key cell hj
      rcases hj.of_set with ⟨-, hc, -⟩ | ⟨-, hj⟩
      · contradiction
      · obtain ⟨p, hat, hc⟩ := hj.of_hand
        rw [Flight.Phase.cell?_taking] at hc
        exact hat.has hc
  | shutdown => exact h.of_le rfl (fun hr => by cases hr) id

theorem LedOnce.of_le (h : b.LedOnce)
    (hhas : ∀ {i key cell}, b'.Has (·.leads?) i key cell → b.Has (·.leads?) i key cell) :
    b'.LedOnce :=
  ⟨fun hi hj => h.eq (hhas hi) (hhas hj)⟩

theorem LedOnce.step {m : Flights.Move} (h : b.LedOnce) (hs : b.Step m b') : b'.LedOnce := by
  cases hs with
  | idle => exact h
  | call => exact h.of_le (Has.of_call rfl)
  | roam at' before after fine =>
      exact h.of_le (Has.of_set_of_none at' (Flight.Phase.leads?_of_cell? after))
  | join at' registered => exact h.of_le (Has.of_set_of_none at' rfl)
  | found at' unregistered =>
      exact h.of_le (Has.of_set_of_none (b := b.register _) at' rfl)
  | @lead _ i cell k at' unled =>
      -- The flight that begins to lead finds no other leader.
      have other : ∀ {j key}, (b.set i (.rechecking cell)).Has (·.leads?) j key cell → j = i := by
        intro j key hj
        rcases hj.of_set with ⟨rfl, -, -⟩ | ⟨-, p, hat, hl⟩
        · rfl
        · exact absurd hl (unled j key p hat)
      refine ⟨?_⟩
      intro j j' key key' c hj hj'
      rcases hj.of_set with ⟨rfl, hc, -⟩ | ⟨-, hb⟩
      · obtain rfl := Option.some.inj hc
        exact (other hj').symm
      · rcases hj'.of_set with ⟨rfl, hc, -⟩ | ⟨-, hb'⟩
        · obtain rfl := Option.some.inj hc
          exact other hj
        · exact h.eq hb hb'
  | work at' before after =>
      refine h.of_le (Has.of_set_of_le at' fun _ hl => ?_)
      rw [before, ← hl, after]
  | land at' joined lands =>
      have hnone := Flight.Phase.leads?_of_cell? (Flight.Phase.cell?_of_isOver lands.isOver)
      exact h.of_le (Has.of_set_of_none (b := b.leave _ _) at' hnone)
  | deliver at' joined alone =>
      apply h.of_le
      intro j key cell hj
      rcases hj.of_set with ⟨-, hc, -⟩ | ⟨-, hj⟩
      · contradiction
      · obtain ⟨p, hat, hl⟩ := hj.of_hand
        rw [Flight.Phase.leads?_taking] at hl
        exact hat.has hl
  | shutdown => exact h.of_le id

theorem HandedLeft.of_le (h : b.HandedLeft)
    (hreg : ∀ {key cell}, b'.inflight.get? key = some cell → b.inflight.get? key = some cell)
    (hhas : ∀ {i key cell}, b'.Has (·.handed?) i key cell → b.Has (·.handed?) i key cell) :
    b'.HandedLeft :=
  ⟨fun hi hr => h.ne (hhas hi) (hreg hr)⟩

theorem HandedLeft.step {m : Flights.Move} (h : b.HandedLeft) (howned : b.Owned)
    (hs : b.Step m b') : b'.HandedLeft := by
  cases hs with
  | idle => exact h
  | call => exact h.of_le id (Has.of_call rfl)
  | roam at' before after fine =>
      exact h.of_le id (Has.of_set_of_none at' (Flight.Phase.handed?_of_cell? after))
  | join at' registered => exact h.of_le id (Has.of_set_of_none at' rfl)
  | @found _ i k at' unregistered =>
      -- The cell that is found is new: no chart has been handed on in it.
      refine ⟨?_⟩
      intro j key cell hj hr
      have hb : b.Has (·.handed?) j key cell :=
        Has.of_set_of_none (b := b.register k) at' rfl hj
      obtain ⟨p, hat, hp⟩ := hb
      have hr : (b.inflight.put k b.cells).get? key = some cell := hr
      rw [Table.get?_put] at hr
      split at hr
      · have hlt := howned.joined_lt (hat.has (Flight.Phase.cell?_of_handed? hp))
        exact absurd (Option.some.inj hr) (Nat.ne_of_gt hlt)
      · exact h.ne (hat.has hp) hr
  | lead at' unled => exact h.of_le id (Has.of_set_of_none at' rfl)
  | work at' before after =>
      exact h.of_le id (Has.of_set_of_none at' (Flight.Phase.handed?_of_leads? after))
  | land at' joined lands =>
      have hnone := Flight.Phase.handed?_of_cell? (Flight.Phase.cell?_of_isOver lands.isOver)
      exact h.of_le (fun hr => (get?_leave.mp hr).1)
        (Has.of_set_of_none (b := b.leave _ _) at' hnone)
  | @deliver _ i cell k p chart at' joined alone =>
      -- Whoever is handed the chart has the key of the cell, which has left it.
      refine ⟨?_⟩
      intro j key c hj hr
      obtain ⟨hr, hleft⟩ := get?_leave.mp hr
      rcases hj.of_set with ⟨-, hc, -⟩ | ⟨-, hj⟩
      · contradiction
      · obtain ⟨q, hat, hc⟩ := hj.of_hand
        rcases Flight.Phase.handed?_of_taking hc with hc | ⟨rfl, hc⟩
        · exact h.ne (hat.has hc) hr
        · have hkey : key = k := howned.same_key (hat.has (Flight.Phase.cell?_of_claims? hc))
            (at'.has (Flight.Phase.cell?_of_claims? joined))
          exact hleft ⟨hkey, rfl⟩
  | shutdown => exact h.of_le (fun hr => by cases hr) id

structure Valid (b : Board) : Prop where
  owned : b.Owned
  ledOnce : b.LedOnce
  handedLeft : b.HandedLeft

theorem Valid.step {m : Flights.Move} (h : b.Valid) (hs : b.Step m b') : b'.Valid :=
  ⟨h.owned.step hs, h.ledOnce.step hs, h.handedLeft.step h.owned hs⟩

def Fresh (b : Board) : Prop := b.flights = [] ∧ ∀ key, b.inflight.get? key = none

theorem Fresh.valid (h : b.Fresh) : b.Valid := by
  have nobody : ∀ {view i key cell}, ¬b.Has view i key cell := by
    rintro view i key cell ⟨p, hat, -⟩
    rw [IsAt, h.1] at hat
    contradiction
  have nowhere : ∀ {key cell}, b.inflight.get? key ≠ some cell := by
    intro key cell hr
    rw [h.2] at hr
    contradiction
  refine ⟨⟨?_, ?_, ?_, ?_, ?_⟩, ⟨fun hi => absurd hi nobody⟩, ⟨fun hi => absurd hi nobody⟩⟩
  · exact fun hr => absurd hr nowhere
  · exact fun hi => absurd hi nobody
  · exact fun hr => absurd hr nowhere
  · exact fun hi => absurd hi nobody
  · exact fun hi => absurd hi nobody

end Board

/-- **Every run keeps the board valid**, whatever the moves are. -/
theorem Flights.board_run_valid {σ : Type} (S : Store σ) {fs : Flights σ} (h : fs.board.Valid)
    (moves : List (Nat × Flights.Move)) : (fs.run S moves).board.Valid := by
  apply run_induction (P := fun fs => fs.board.Valid) h
  intro before now m after _ hvalid
  exact hvalid.step ((fs.run S before).step_board S now m)

def Flights.nobody : Flights SharedStore := ⟨⟨.ofSettings {}, {}⟩, []⟩

theorem Flights.fresh_nobody : nobody.board.Fresh := ⟨rfl, fun _ => rfl⟩

end Almanac
