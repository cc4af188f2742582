import Mathlib
import Almanac.Proofs.Cache.Ownership
import Almanac.Proofs.Cache.Soundness

/-!
# One drawing at a time

As long as no flight gives up a cell that another flight still waits for or leads, all
flights for a key are gathered in the cell that the key has, and at most one of them
draws.  A flight that gives up such a cell takes it away from the key: those who are
left in the cell go on there, and whoever comes next joins a new one.  Unless somebody
has the chart by then, both draw.
-/

namespace Almanac

namespace Flight.Phase

theorem claims?_of_cell? {p : Phase} (h : p.cell? = none) : p.claims? = none := by
  cases p <;> first | rfl | cases h

theorem claims?_of_leads? {p : Phase} {cell : Nat} (h : p.leads? = some cell) :
    p.claims? = some cell := by
  cases p <;> first | exact h | cases h

theorem claims?_or_handed? {p : Phase} {cell : Nat} (h : p.cell? = some cell) :
    p.claims? = some cell ∨ p.handed? = some cell := by
  cases p <;> first | exact .inl h | exact .inr h

end Flight.Phase

/-! ## Flights that stay together -/

namespace Board

variable {b b' : Board} {key : String} {m : Flights.Move}

/-- By this move a flight for the key gives up a cell that another flight still waits
for or leads. -/
def Forsakes (b : Board) (key : String) (m : Flights.Move) : Prop :=
  ∃ i j cell p last k, Lands i m p last ∧ b.IsAt i key p ∧ p.claims? = some cell ∧ j ≠ i ∧
    b.Has (·.claims?) j k cell

/-- Only a cancelled flight and one whose drawing fails give up a cell for others. -/
theorem Forsakes.cause (h : b.Forsakes key m) :
    (∃ i, m = .cancel i) ∨ ∃ i e, m = .conclude i (.error e) := by
  obtain ⟨i, -, cell, p, last, -, hl, -, hp, -⟩ := h
  cases m with
  | cancel j => exact .inl ⟨j, rfl⟩
  | conclude j drawn =>
      cases drawn with
      | error e => exact .inr ⟨j, e, rfl⟩
      | ok chart => cases p <;> exact hl.elim
  | proceed j =>
      cases p with
      | handed c chart => cases hp
      | _ => exact hl.elim
  | call k => cases p <;> exact hl.elim
  | shutdown => cases p <;> exact hl.elim

/-- All flights for the key wait for, or lead, the cell that the key has. -/
def Gathered (b : Board) (key : String) : Prop :=
  ∀ i cell, b.Has (·.claims?) i key cell → b.inflight.get? key = some cell

/-- A flight may leave the cell alone if nobody is left in it, and everybody may take
the chart that the cell has got. -/
theorem Gathered.step (h : b.Gathered key) (hvalid : b.Valid) (hs : b.Step m b')
    (hopen : m ≠ .shutdown) (hkept : ¬b.Forsakes key m) : b'.Gathered key := by
  cases hs with
  | idle => exact h
  | call => exact fun i cell hi => h i cell (hi.of_call rfl)
  | roam at' before after fine =>
      exact fun i cell hi =>
        h i cell (hi.of_set_of_none at' (Flight.Phase.claims?_of_cell? after))
  | @join _ i c k at' registered =>
      intro j cell hj
      rcases hj.of_set with ⟨rfl, hc, p, hat⟩ | ⟨-, hj⟩
      · rw [(hat.unique at').1, ← Option.some.inj hc]
        exact registered
      · exact h j cell hj
  | @found _ i k at' unregistered =>
      intro j cell hj
      show (b.inflight.put k b.cells).get? key = some cell
      rw [Table.get?_put]
      rcases hj.of_set with ⟨rfl, hc, p, hat⟩ | ⟨-, hj⟩
      · rw [if_pos (hat.unique at').1, ← Option.some.inj hc]
      · rw [if_neg]
        · exact h j cell hj
        · rintro rfl
          cases unregistered.symm.trans (h j cell hj)
  | lead at' unled =>
      intro i cell hi
      exact h i cell (hi.of_set_of_le (q := .rechecking _) at' fun _ hc => hc)
  | work at' before after =>
      intro i cell hi
      refine h i cell (hi.of_set_of_le at' fun c hc => ?_)
      rw [Flight.Phase.claims?_of_leads? after] at hc
      rw [Flight.Phase.claims?_of_leads? before, hc]
  | @land _ i c k p q at' joined lands =>
      intro j cell hj
      have hnone := Flight.Phase.claims?_of_cell? (Flight.Phase.cell?_of_isOver lands.isOver)
      rcases hj.of_set with ⟨-, hc, -⟩ | ⟨hne, hj⟩
      · cases hnone.symm.trans hc
      -- A flight that is left in the cell would be forsaken.
      · refine (get?_leave.mpr ⟨h j cell hj, ?_⟩)
        rintro ⟨rfl, rfl⟩
        rcases Flight.Phase.claims?_or_handed? joined with hc | hc
        · exact hkept ⟨i, j, cell, p, q, key, lands, at', hc, hne, hj⟩
        · exact hvalid.handedLeft.ne (at'.has hc) (h j cell hj)
  | @deliver _ i c k p chart at' joined alone =>
      intro j cell hj
      rcases hj.of_set with ⟨-, hc, -⟩ | ⟨hne, hj⟩
      · contradiction
      · obtain ⟨q, hat, hc⟩ := hj.of_hand
        obtain ⟨hc, hlead⟩ := Flight.Phase.claims?_of_taking hc
        refine get?_leave.mpr ⟨h j cell (hat.has hc), ?_⟩
        rintro ⟨rfl, rfl⟩
        -- Whoever still waits has been handed the chart, so only a leader could be left.
        rcases alone with hled | hunled
        · exact hne (hvalid.ledOnce.eq (hat.has (hlead rfl)) (at'.has hled))
        · exact hunled j key q hat (hlead rfl)
  | shutdown => exact absurd rfl hopen

end Board

namespace Flights

variable {σ : Type} {S : Store σ} {fs : Flights σ} {key : String}

def Draws (fs : Flights σ) (key : String) (i : Nat) : Prop :=
  ∃ cell, fs.flights[i]? = some ⟨key, .drawing cell⟩

/-- A run without a shutdown in which no flight for the key gives up a shared cell. -/
def Orderly (S : Store σ) (key : String) (fs : Flights σ) : List (Nat × Move) → Prop
  | [] => True
  | (now, m) :: moves =>
    m ≠ .shutdown ∧ ¬fs.board.Forsakes key m ∧ (fs.step S now m).Orderly S key moves

theorem draws_unique (hvalid : fs.board.Valid) (h : fs.board.Gathered key) {i j : Nat}
    (hi : fs.Draws key i) (hj : fs.Draws key j) : i = j := by
  obtain ⟨c, hi⟩ := hi
  obtain ⟨d, hj⟩ := hj
  have hi : fs.board.IsAt i key (.drawing c) := hi
  have hj : fs.board.IsAt j key (.drawing d) := hj
  have hc := h i c (hi.has rfl)
  have hd := h j d (hj.has rfl)
  have hcd : c = d := Option.some.inj (hc.symm.trans hd)
  subst hcd
  exact hvalid.ledOnce.eq (hi.has rfl) (hj.has rfl)

theorem gathered_run {moves : List (Nat × Move)} (hvalid : fs.board.Valid)
    (h : fs.board.Gathered key) (ho : fs.Orderly S key moves) :
    (fs.run S moves).board.Gathered key := by
  induction moves generalizing fs with
  | nil => exact h
  | cons move moves ih =>
      obtain ⟨now, m⟩ := move
      obtain ⟨hopen, hkept, ho⟩ := ho
      have hs := fs.step_board S now m
      exact ih (hvalid.step hs) (h.step hvalid hs hopen hkept) ho

end Flights

/-! ## A key that nobody has a chart for -/

namespace Store

variable {σ : Type} {S : Store σ} {key : String} {s : σ}

/-- The store has no chart for a key, however often it is asked. -/
def Lacks (S : Store σ) (key : String) (s : σ) : Prop :=
  ∀ (times : List Nat) now payload,
    (S.get now key (times.foldl (fun s now => (S.get now key s).2) s)).1 = .ok (some payload) →
      Layer.decode payload = none

theorem Lacks.answer (h : S.Lacks key s) {now : Nat} {payload : ByteArray}
    (ha : (S.get now key s).1 = .ok (some payload)) : Layer.decode payload = none :=
  h [] now payload ha

theorem Lacks.get (h : S.Lacks key s) (now : Nat) : S.Lacks key (S.get now key s).2 :=
  fun times => h (now :: times)

end Store

namespace Cache

variable {σ : Type} {S : Store σ} {key : String} {c : Cache σ}

structure Bare (S : Store σ) (key : String) (c : Cache σ) : Prop where
  tier : c.layer.tier.entries.get? key = none
  store : S.Lacks key c.store

theorem Bare.look (h : c.Bare S key) (now : Nat) : c.layer.look now key = (none, c.layer) := by
  simp only [Layer.look, LocalTier.get, h.tier]

theorem Bare.ask (h : c.Bare S key) (now : Nat) :
    (c.ask S now key).1 = none ∧ (c.ask S now key).2.Bare S key := by
  have hanswer : ∀ payload, (S.get now key c.store).1 = .ok (some payload) →
      Layer.decode payload = none := fun payload => h.store.answer
  have hnext := h.store.get now
  rw [Cache.ask]
  rcases hget : S.get now key c.store with ⟨e | _ | payload, store⟩ <;>
    rw [hget] at hanswer hnext
  · exact ⟨rfl, h.tier, hnext⟩
  · exact ⟨rfl, h.tier, hnext⟩
  · have hd : Layer.decode payload = none := hanswer payload rfl
    simp only [Layer.take, hd]
    exact ⟨trivial, h.tier, hnext⟩

end Cache

namespace Flights

variable {σ : Type} {S : Store σ} {fs : Flights σ} {key : String} {i cell : Nat}

theorem proceed_called (h : fs.cache.Bare S key) (hat : fs.board.IsAt i key .called) :
    (fs.proceed S 0 i).board = fs.board.set i .asking ∧ (fs.proceed S 0 i).cache.Bare S key := by
  have hat : fs.flights[i]? = some ⟨key, .called⟩ := hat
  simp only [proceed, hat, h.look 0]
  exact ⟨rfl, h⟩

theorem proceed_asking (h : fs.cache.Bare S key) (hat : fs.board.IsAt i key .asking)
    (hreg : fs.board.inflight.get? key = none) :
    (fs.proceed S 0 i).board = (fs.board.register key).set i (.queued fs.board.cells) ∧
      (fs.proceed S 0 i).cache.Bare S key := by
  have hat : fs.flights[i]? = some ⟨key, .asking⟩ := hat
  obtain ⟨hnone, hbare⟩ := h.ask 0
  rcases hask : fs.cache.ask S 0 key with ⟨_ | chart, cache⟩
  · have hcells := sameCells_of_ask hask
    rw [hask] at hbare
    have hcell : cache.layer.inflight.get? key = none := hcells.1 ▸ hreg
    simp only [proceed, hat, hask, Layer.join, hcell]
    refine ⟨?_, hbare.tier, hbare.store⟩
    rw [← fs.board_onCache hcells]
    rfl
  · rw [hask] at hnone
    contradiction

theorem proceed_queued (h : fs.cache.Bare S key) (hat : fs.board.IsAt i key (.queued cell))
    (hunled : fs.board.IsUnled cell) :
    (fs.proceed S 0 i).board = fs.board.set i (.rechecking cell) ∧
      (fs.proceed S 0 i).cache.Bare S key := by
  have hat : fs.flights[i]? = some ⟨key, .queued cell⟩ := hat
  have hled : fs.isLed cell = false := by
    rw [isLed, List.any_eq_false]
    intro f hf
    obtain ⟨j, hj⟩ := List.mem_iff_getElem?.mp hf
    simpa using hunled j f.key f.phase hj
  simp only [proceed, hat, hled, h.look 0, Bool.false_eq_true, if_false]
  exact ⟨rfl, h⟩

theorem proceed_rechecking (h : fs.cache.Bare S key)
    (hat : fs.board.IsAt i key (.rechecking cell)) :
    (fs.proceed S 0 i).board = fs.board.set i (.drawing cell) ∧
      (fs.proceed S 0 i).cache.Bare S key := by
  have hat : fs.flights[i]? = some ⟨key, .rechecking cell⟩ := hat
  obtain ⟨hnone, hbare⟩ := h.ask 0
  rcases hask : fs.cache.ask S 0 key with ⟨_ | chart, cache⟩
  · have hcells := sameCells_of_ask hask
    rw [hask] at hbare
    simp only [proceed, hat, hask]
    refine ⟨?_, hbare.tier, hbare.store⟩
    rw [← fs.board_onCache hcells]
    rfl
  · rw [hask] at hnone
    contradiction

/-- A flight can go on by itself until the board looks like this, and still nobody has a
chart for the key. -/
def Reaches (S : Store σ) (key : String) (i : Nat) (fs : Flights σ) (b : Board) : Prop :=
  ∃ moves, (∀ move ∈ moves, move.2 = Move.proceed i) ∧ (fs.run S moves).board = b ∧
    (fs.run S moves).cache.Bare S key

theorem Reaches.refl (h : fs.cache.Bare S key) : fs.Reaches S key i fs.board :=
  ⟨[], by simp, rfl, h⟩

theorem Reaches.step {b : Board} (h : (fs.proceed S 0 i).Reaches S key i b) :
    fs.Reaches S key i b := by
  obtain ⟨moves, hmoves, hb⟩ := h
  refine ⟨(0, .proceed i) :: moves, ?_, hb⟩
  intro move hm
  rcases List.mem_cons.mp hm with rfl | hm
  · rfl
  · exact hmoves move hm

theorem reaches_drawing_of_rechecking (h : fs.cache.Bare S key)
    (hat : fs.board.IsAt i key (.rechecking cell)) :
    fs.Reaches S key i (fs.board.set i (.drawing cell)) := by
  obtain ⟨hb, hbare⟩ := proceed_rechecking h hat
  exact .step (hb ▸ .refl hbare)

theorem reaches_drawing_of_queued (h : fs.cache.Bare S key)
    (hat : fs.board.IsAt i key (.queued cell)) (hunled : fs.board.IsUnled cell) :
    fs.Reaches S key i (fs.board.set i (.drawing cell)) := by
  obtain ⟨hb, hbare⟩ := proceed_queued h hat hunled
  have hnext := reaches_drawing_of_rechecking hbare (hb ▸ Board.isAt_set_self hat)
  rw [hb, Board.set_set] at hnext
  exact hnext.step

/-- A flight that is called when its key has no cell gets to draw in a new one. -/
theorem reaches_drawing_of_called (h : fs.cache.Bare S key) (howned : fs.board.Owned)
    (hat : fs.board.IsAt i key .called) (hreg : fs.board.inflight.get? key = none) :
    fs.Reaches S key i ((fs.board.register key).set i (.drawing fs.board.cells)) := by
  obtain ⟨hb, hbare⟩ := proceed_called h hat
  obtain ⟨hb', hbare'⟩ := proceed_asking hbare (hb ▸ Board.isAt_set_self hat) (hb ▸ hreg)
  have hboard : ((fs.proceed S 0 i).proceed S 0 i).board
      = (fs.board.register key).set i (.queued fs.board.cells) := by
    rw [hb', hb]
    exact (fs.board.register key).set_set i _ _
  -- Its cell is new, so nobody leads it.
  have hunled : ((fs.proceed S 0 i).proceed S 0 i).board.IsUnled fs.board.cells := by
    intro j k p hj hled
    have hhas : ((fs.board.register key).set i (.queued fs.board.cells)).Has (·.leads?) j k
        fs.board.cells := (hboard ▸ hj).has hled
    obtain ⟨q, hq, hled⟩ := hhas.of_set_of_none (b := fs.board.register key) hat rfl
    exact Nat.lt_irrefl _ (howned.joined_lt (Board.IsAt.has hq (Flight.Phase.cell?_of_leads? hled)))
  have hqueued : ((fs.proceed S 0 i).proceed S 0 i).board.IsAt i key (.queued fs.board.cells) := by
    rw [hboard]
    exact Board.isAt_set_self (b := fs.board.register key) hat
  have hnext := reaches_drawing_of_queued hbare' hqueued hunled
  rw [hboard, Board.set_set] at hnext
  exact hnext.step.step

/-! ## What happens to a forsaken cell -/

theorem board_step_of_lands (S : Store σ) (now : Nat) {m : Move} {p : Flight.Phase}
    {last : Flight.Phase} (hat : fs.board.IsAt i key p) (hcell : p.cell? = some cell)
    (hl : Board.Lands i m p last) :
    (fs.step S now m).board = (fs.board.leave key cell).set i last ∧
      (fs.step S now m).cache.layer.tier = fs.cache.layer.tier ∧
      (fs.step S now m).cache.store = fs.cache.store := by
  have hat : fs.flights[i]? = some ⟨key, p⟩ := hat
  have landed : (fs.land i key cell last).board = (fs.board.leave key cell).set i last ∧
      (fs.land i key cell last).cache.layer.tier = fs.cache.layer.tier ∧
      (fs.land i key cell last).cache.store = fs.cache.store :=
    ⟨fs.board_land i key cell last, Layer.tier_leave _ _ _, rfl⟩
  cases m with
  | cancel j =>
      obtain ⟨rfl, rfl⟩ : j = i ∧ last = .cancelled := by cases p <;> exact hl
      have hover : p.isOver = false := by
        cases p <;> first | rfl | cases hcell
      simp only [step, cancel, hat, hover, hcell]
      exact landed
  | conclude j drawn =>
      cases drawn with
      | error e =>
          cases p with
          | drawing c =>
              obtain ⟨rfl, rfl⟩ := hl
              obtain rfl : c = cell := Option.some.inj hcell
              simp only [step, conclude, hat]
              exact landed
          | _ => exact hl.elim
      | ok chart => cases p <;> exact hl.elim
  | proceed j =>
      cases p with
      | handed c chart =>
          obtain ⟨rfl, rfl⟩ := hl
          obtain rfl : c = cell := Option.some.inj hcell
          simp only [step, proceed, hat]
          exact landed
      | _ => exact hl.elim
  | call k => cases p <;> exact hl.elim
  | shutdown => cases p <;> exact hl.elim

/-- Nobody has a chart for the key: no tier, and no flight that has just drawn it. -/
structure Unknown (S : Store σ) (key : String) (fs : Flights σ) : Prop where
  bare : fs.cache.Bare S key
  unpublished : ∀ i cell chart, ¬fs.board.IsAt i key (.publishing cell chart)

/-- Whoever is left in a cell is drawing, or gets to draw. -/
theorem reaches_drawing_of_claims (h : fs.Unknown S key) (howned : fs.board.Owned) {j : Nat}
    (hclaims : fs.board.Has (·.claims?) j key cell) :
    ∃ i p, fs.board.IsAt i key p ∧ p.claims? = some cell ∧
      fs.Reaches S key i (fs.board.set i (.drawing cell)) := by
  -- If nobody leads the cell, the flight left there does so next; else its leader goes on.
  by_cases hunled : fs.board.IsUnled cell
  · obtain ⟨p, hat, hp⟩ := hclaims
    cases p with
    | queued c =>
        obtain rfl : c = cell := Option.some.inj hp
        exact ⟨j, _, hat, rfl, reaches_drawing_of_queued h.bare hat hunled⟩
    | _ => exact absurd hp (hunled j key _ hat)
  · simp only [Board.IsUnled, Classical.not_forall, ne_eq, Decidable.not_not] at hunled
    obtain ⟨i, k, p, hat, hled⟩ := hunled
    obtain ⟨q, hq, hclaims⟩ := hclaims
    obtain rfl : k = key := howned.same_key (hat.has (Flight.Phase.cell?_of_leads? hled))
      (hq.has (Flight.Phase.cell?_of_claims? hclaims))
    refine ⟨i, p, hat, Flight.Phase.claims?_of_leads? hled, ?_⟩
    cases p with
    | rechecking c =>
        obtain rfl : c = cell := Option.some.inj hled
        exact reaches_drawing_of_rechecking h.bare hat
    | drawing c =>
        obtain rfl : c = cell := Option.some.inj hled
        rw [Board.set_self hat]
        exact .refl h.bare
    | publishing c chart => exact absurd hat (h.unpublished i c chart)
    | _ => cases hled

/-- If a key has lost its cell while a flight is left there, two flights get to draw. -/
theorem reaches_two_drawings (h : fs.Unknown S key) (hvalid : fs.board.Valid) {j : Nat}
    (hclaims : fs.board.Has (·.claims?) j key cell) (hreg : fs.board.inflight.get? key = none) :
    ∃ moves, (∀ move ∈ moves, move.2 = Move.call key ∨ ∃ i, move.2 = Move.proceed i) ∧
      ∃ i j, i ≠ j ∧ (fs.run S moves).Draws key i ∧ (fs.run S moves).Draws key j := by
  obtain ⟨i, p, hat, hp, first, hfirst, hboard, hbare⟩ :=
    reaches_drawing_of_claims h hvalid.owned hclaims
  -- Then a flight is called, which stands behind all others.
  generalize hfs' : (fs.run S first).step S 0 (.call key) = fs'
  have hcalled : fs'.board = (fs.board.set i (.drawing cell)).call key := by
    rw [← hboard, ← hfs']
    rfl
  have hdrawing : fs'.board.IsAt i key (.drawing cell) := by
    rw [hcalled]
    exact (Board.isAt_set_self hat).to_call key
  have hnew : fs'.board.IsAt fs.board.flights.length key .called := by
    rw [hcalled, ← fs.board.length_set i (.drawing cell)]
    exact Board.isAt_call_self _ key
  have hvalid' : fs'.board.Valid :=
    hfs' ▸ (board_run_valid S hvalid first).step (step_board S _ 0 _)
  have hbare' : fs'.cache.Bare S key := hfs' ▸ hbare
  obtain ⟨second, hsecond, hboard', -⟩ := reaches_drawing_of_called hbare' hvalid'.owned hnew
    (hcalled ▸ hreg)
  have hrun : fs.run S (first ++ (0, .call key) :: second) = fs'.run S second := by
    rw [run_append, ← hfs']
    rfl
  have hne : fs.board.flights.length ≠ i := Nat.ne_of_gt (Board.IsAt.lt hat)
  refine ⟨first ++ (0, .call key) :: second, ?_, i, fs.board.flights.length, hne.symm, ?_⟩
  · intro move hm
    rcases List.mem_append.mp hm with hm | hm
    · exact .inr ⟨i, hfirst move hm⟩
    · rcases List.mem_cons.mp hm with rfl | hm
      · exact .inl rfl
      · exact .inr ⟨_, hsecond move hm⟩
  · rw [hrun]
    constructor
    · refine ⟨cell, show (fs'.run S second).board.IsAt i key (.drawing cell) from ?_⟩
      rw [hboard']
      exact Board.isAt_set.mpr ⟨_, hdrawing, (if_neg hne).symm⟩
    · refine ⟨fs'.board.cells, show (fs'.run S second).board.IsAt _ key _ from ?_⟩
      rw [hboard']
      exact Board.isAt_set_self (b := fs'.board.register key) hnew

/-- If a flight gives up a cell that another one still uses, two flights get to draw. -/
theorem reaches_two_drawings_of_forsakes (hvalid : fs.board.Valid) (h : fs.board.Gathered key)
    (hunknown : fs.Unknown S key) (now : Nat) {m : Move} (hm : fs.board.Forsakes key m) :
    ∃ moves, (∀ move ∈ moves, move.2 = Move.call key ∨ ∃ i, move.2 = Move.proceed i) ∧
      ∃ i j, i ≠ j ∧ ((fs.step S now m).run S moves).Draws key i ∧
        ((fs.step S now m).run S moves).Draws key j := by
  obtain ⟨i, j, cell, p, last, k, hl, hat, hp, hne, hj⟩ := hm
  obtain ⟨hboard, htier, hstore⟩ :=
    board_step_of_lands S now hat (Flight.Phase.cell?_of_claims? hp) hl
  have hstep := hvalid.step (fs.step_board S now m)
  have hreg := h i cell (hat.has hp)
  have hbare : (fs.step S now m).cache.Bare S key :=
    ⟨htier ▸ hunknown.bare.tier, hstore ▸ hunknown.bare.store⟩
  -- The flight that was forsaken is still there, and its cell is no longer the key's.
  have hleft : (fs.step S now m).board.Has (·.claims?) j key cell := by
    obtain ⟨p', hat', hp'⟩ := hj
    obtain rfl : k = key := hvalid.owned.same_key (hat'.has (Flight.Phase.cell?_of_claims? hp'))
      (hat.has (Flight.Phase.cell?_of_claims? hp))
    rw [hboard]
    exact ⟨p', Board.isAt_set.mpr ⟨p', hat', (if_neg (Ne.symm hne)).symm⟩, hp'⟩
  refine reaches_two_drawings ⟨hbare, ?_⟩ hstep hleft ?_
  · intro j' c chart hpub
    rw [hboard] at hpub
    obtain ⟨p', hat', he⟩ := Board.isAt_set.mp hpub
    split at he
    · have hover := hl.isOver
      rw [← he] at hover
      contradiction
    · exact hunknown.unpublished j' c chart (he ▸ hat')
  · rw [hboard]
    rcases hget : (fs.board.leave key cell).inflight.get? key with _ | c
    · exact hget
    · obtain ⟨hc, hgone⟩ := Board.get?_leave.mp hget
      exact absurd ⟨rfl, Option.some.inj (hc.symm.trans hreg)⟩ hgone

/-! ## The exact condition -/

/-- **Flights for a key draw one at a time, until one of them gives up a cell that
another still uses.**  From then on, if nobody has a chart for the key, flights may go on
so that two of them draw at once. -/
theorem draws_unique_until_forsaken (hfresh : fs.board.Fresh) {moves : List (Nat × Move)}
    (ho : fs.Orderly S key moves) :
    (∀ i j, (fs.run S moves).Draws key i → (fs.run S moves).Draws key j → i = j) ∧
      ∀ now m, (fs.run S moves).board.Forsakes key m → (fs.run S moves).Unknown S key →
        ∃ more, (∀ move ∈ more, move.2 = Move.call key ∨ ∃ i, move.2 = Move.proceed i) ∧
          ∃ i j, i ≠ j ∧ (((fs.run S moves).step S now m).run S more).Draws key i ∧
            (((fs.run S moves).step S now m).run S more).Draws key j := by
  have hvalid := board_run_valid S hfresh.valid moves
  have hgathered : (fs.run S moves).board.Gathered key := by
    refine gathered_run hfresh.valid ?_ ho
    rintro i cell ⟨p, hat, -⟩
    rw [Board.IsAt, hfresh.1] at hat
    contradiction
  refine ⟨fun i j => draws_unique hvalid hgathered, ?_⟩
  intro now m hm hunknown
  exact reaches_two_drawings_of_forsakes hvalid hgathered hunknown now hm

theorem orderly_of_proceeds {moves : List (Nat × Move)}
    (h : ∀ move ∈ moves, (∃ k, move.2 = Move.call k) ∨ ∃ i, move.2 = Move.proceed i) :
    fs.Orderly S key moves := by
  induction moves generalizing fs with
  | nil => trivial
  | cons move moves ih =>
      obtain ⟨now, m⟩ := move
      refine ⟨?_, ?_, ih fun move hm => h move (List.mem_cons_of_mem _ hm)⟩
      · rcases h _ List.mem_cons_self with ⟨k, rfl⟩ | ⟨i, rfl⟩ <;> exact fun h => by cases h
      · intro hf
        rcases h _ List.mem_cons_self with ⟨k, rfl⟩ | ⟨i, rfl⟩ <;>
          rcases hf.cause with ⟨j, he⟩ | ⟨j, e, he⟩ <;> contradiction

def waiting : List (Nat × Move) :=
  (0, .call "k") :: List.replicate 4 (0, .proceed 0)
    ++ (0, .call "k") :: List.replicate 2 (0, .proceed 1)

theorem draws_unique_until_waiter_cancelled :
    (∀ i j, (nobody.run SharedStore.store waiting).Draws "k" i →
      (nobody.run SharedStore.store waiting).Draws "k" j → i = j) ∧
      ∃ more, (∀ move ∈ more, move.2 = Move.call "k" ∨ ∃ i, move.2 = Move.proceed i) ∧
        ∃ i j, i ≠ j ∧
          (((nobody.run SharedStore.store waiting).step SharedStore.store 0 (.cancel 1)).run
            SharedStore.store more).Draws "k" i ∧
          (((nobody.run SharedStore.store waiting).step SharedStore.store 0 (.cancel 1)).run
            SharedStore.store more).Draws "k" j := by
  have ho : nobody.Orderly SharedStore.store "k" waiting := by
    apply orderly_of_proceeds
    simp [waiting]
  have hempty : ∀ times : List Nat,
      times.foldl (fun s now => (SharedStore.store.get now "k" s).2) {} = {} := by
    intro times
    induction times with
    | nil => rfl
    | cons now times ih => exact ih
  obtain ⟨hunique, hforsaken⟩ := draws_unique_until_forsaken fresh_nobody ho
  refine ⟨hunique, hforsaken 0 (.cancel 1) ?_ ⟨⟨rfl, ?_⟩, ?_⟩⟩
  · exact ⟨1, 0, 0, .queued 0, .cancelled, "k", ⟨rfl, rfl⟩, rfl, rfl, by decide, .drawing 0, rfl,
      rfl⟩
  · intro times now payload h
    have hnone : (SharedStore.store.get now "k" (times.foldl
        (fun s now => (SharedStore.store.get now "k" s).2) {})).1 = .ok (some payload) := h
    rw [hempty] at hnone
    cases Except.ok.inj hnone
  · intro i cell chart hat
    have hflights : (nobody.run SharedStore.store waiting).board.flights
        = [⟨"k", .drawing 0⟩, ⟨"k", .queued 0⟩] := rfl
    rw [Board.IsAt, hflights] at hat
    rcases i with _ | _ | i <;> cases hat

/-- A waiting flight is cancelled and a third one is called: two flights draw at once. -/
theorem two_drawings_after_cancelled_waiter :
    ¬∀ moves : List (Nat × Move), (∀ move ∈ moves, move.2 ≠ .shutdown) →
      ∀ i j, (nobody.run SharedStore.store moves).Draws "k" i →
        (nobody.run SharedStore.store moves).Draws "k" j → i = j := by
  intro h
  have := h (waiting ++ (0, .cancel 1) :: (0, .call "k") :: List.replicate 4 (0, .proceed 2))
    (by simp [waiting]) 0 2 ⟨0, rfl⟩ ⟨1, rfl⟩
  contradiction

end Flights

end Almanac
