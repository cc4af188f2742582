import Mathlib
import Almanac.Proofs.Cache.Moves

/-!
# Who shares which cell

The board of some flights says how far each of them has come and which cell each key
has.  `Board.Step` lists everything that one move can do to it: `Flights.step_board`.
-/

namespace Almanac

/-- The phase of a flight once the leader of a cell has got a chart. -/
def Flight.Phase.taking (cell : Nat) (chart : Chart) : Phase → Phase
  | queued c => if c = cell then handed cell chart else queued c
  | p => p

def Flight.Phase.claims? : Phase → Option Nat
  | queued cell => some cell
  | p => p.leads?

def Flight.Phase.failure? : Phase → Option Failure
  | done (.error e) => some e
  | _ => none

/-- The flights, and the cells that requests for a key join. -/
structure Board where
  flights : List Flight
  inflight : Table String Nat
  cells : Nat

namespace Board

def IsAt (b : Board) (i : Nat) (key : String) (phase : Flight.Phase) : Prop :=
  b.flights[i]? = some ⟨key, phase⟩

def set (b : Board) (i : Nat) (phase : Flight.Phase) : Board :=
  { b with flights := b.flights.modify i fun f => { f with phase } }

def call (b : Board) (key : String) : Board :=
  { b with flights := b.flights ++ [⟨key, .called⟩] }

def hand (b : Board) (cell : Nat) (chart : Chart) : Board :=
  { b with flights := b.flights.map fun f => { f with phase := f.phase.taking cell chart } }

/-- A key has no cell any more, if it was this one. -/
def leave (b : Board) (key : String) (cell : Nat) : Board :=
  { b with inflight :=
      if b.inflight.get? key = some cell then b.inflight.erase key else b.inflight }

def register (b : Board) (key : String) : Board :=
  { b with inflight := b.inflight.put key b.cells, cells := b.cells + 1 }

def IsUnled (b : Board) (cell : Nat) : Prop :=
  ∀ i key phase, b.IsAt i key phase → phase.leads? ≠ some cell

/-! ## What a move can do -/

/-- A move with which a flight leaves its cell alone, and how it ends: it is cancelled,
its drawing fails, or it takes the chart that it was handed. -/
def Lands (i : Nat) : Flights.Move → Flight.Phase → (last : Flight.Phase) → Prop
  | .cancel j, _, last => j = i ∧ last = .cancelled
  | .conclude j (.error e), .drawing _, last => j = i ∧ last = .done (.error e)
  | .proceed j, .handed _ chart, last => j = i ∧ last = .done (.ok chart)
  | _, _, _ => False

/-- Everything that a move can do to a board. -/
inductive Step (b : Board) : Flights.Move → Board → Prop where
  /-- Nothing. -/
  | idle {m : Flights.Move} : Step b m b
  | call {key : String} : Step b (.call key) (b.call key)
  /-- A flight without a cell goes on without one, and does not fail. -/
  | roam {m : Flights.Move} {i : Nat} {key : String} {p q : Flight.Phase} (at' : b.IsAt i key p)
      (before : p.cell? = none) (after : q.cell? = none) (fine : q.failure? = none) :
      Step b m (b.set i q)
  /-- A flight joins the cell that its key has. -/
  | join {m : Flights.Move} {i cell : Nat} {key : String} (at' : b.IsAt i key .asking)
      (registered : b.inflight.get? key = some cell) : Step b m (b.set i (.queued cell))
  /-- A flight joins a new cell. -/
  | found {m : Flights.Move} {i : Nat} {key : String} (at' : b.IsAt i key .asking)
      (unregistered : b.inflight.get? key = none) :
      Step b m ((b.register key).set i (.queued b.cells))
  /-- A flight that has waited leads its cell. -/
  | lead {m : Flights.Move} {i cell : Nat} {key : String} (at' : b.IsAt i key (.queued cell))
      (unled : b.IsUnled cell) : Step b m (b.set i (.rechecking cell))
  /-- A leader goes on. -/
  | work {m : Flights.Move} {i cell : Nat} {key : String} {p q : Flight.Phase}
      (at' : b.IsAt i key p) (before : p.leads? = some cell) (after : q.leads? = some cell) :
      Step b m (b.set i q)
  /-- A flight leaves its cell and ends. -/
  | land {m : Flights.Move} {i cell : Nat} {key : String} {p q : Flight.Phase}
      (at' : b.IsAt i key p) (joined : p.cell? = some cell) (lands : Lands i m p q) :
      Step b m ((b.leave key cell).set i q)
  /-- A flight that leads its cell, or may lead it, has a chart and hands it on. -/
  | deliver {m : Flights.Move} {i cell : Nat} {key : String} {p : Flight.Phase} {chart : Chart}
      (at' : b.IsAt i key p) (joined : p.claims? = some cell)
      (alone : p.leads? = some cell ∨ b.IsUnled cell) :
      Step b m (((b.hand cell chart).leave key cell).set i (.done (.ok chart)))
  | shutdown : Step b .shutdown { b with inflight := .empty }

theorem Lands.isOver {i : Nat} {m : Flights.Move} {p last : Flight.Phase}
    (h : Lands i m p last) : last.isOver = true := by
  cases m with
  | cancel j =>
      obtain rfl : last = .cancelled := by cases p <;> exact h.2
      rfl
  | conclude j drawn =>
      cases drawn with
      | error e =>
          cases p with
          | drawing c => rw [h.2]; rfl
          | _ => exact h.elim
      | ok chart => cases p <;> exact h.elim
  | proceed j =>
      cases p with
      | handed c chart => rw [h.2]; rfl
      | _ => exact h.elim
  | call k => cases p <;> exact h.elim
  | shutdown => cases p <;> exact h.elim

end Board

namespace Flights

variable {σ : Type}

def board (fs : Flights σ) : Board :=
  ⟨fs.flights, fs.cache.layer.inflight, fs.cache.layer.cells⟩

/-- Moves one after another, each at its time. -/
def run (S : Store σ) (fs : Flights σ) (moves : List (Nat × Move)) : Flights σ :=
  moves.foldl (fun fs move => fs.step S move.1 move.2) fs

variable {S : Store σ}

theorem run_append (fs : Flights σ) (first second : List (Nat × Move)) :
    fs.run S (first ++ second) = (fs.run S first).run S second := List.foldl_append

/-- What holds before a run and is kept by each of its moves holds after it. -/
theorem run_induction {fs : Flights σ} {P : Flights σ → Prop} {moves : List (Nat × Move)}
    (h : P fs)
    (hstep : ∀ before now m after, moves = before ++ (now, m) :: after →
      P (fs.run S before) → P ((fs.run S before).step S now m)) : P (fs.run S moves) := by
  induction moves using List.reverseRecOn with
  | nil => exact h
  | append_singleton moves move ih =>
      rw [run_append]
      refine hstep moves move.1 move.2 [] rfl (ih ?_)
      rintro before now m after rfl
      exact hstep before now m (after ++ [move]) (List.append_assoc _ _ _)

end Flights

/-! ## Layers whose cells stay the same -/

namespace Layer

def SameCells (l l' : Layer) : Prop := l'.inflight = l.inflight ∧ l'.cells = l.cells

theorem SameCells.of_look {l l' : Layer} {now : Nat} {key : String} {found : Option Chart}
    (h : l.look now key = (found, l')) : l.SameCells l' := by
  rw [look] at h
  rcases hget : l.tier.get now key with ⟨_ | chart, tier⟩ <;> rw [hget] at h
  · cases h
    exact ⟨rfl, rfl⟩
  · cases h
    exact ⟨rfl, rfl⟩

theorem sameCells_take (l : Layer) (now : Nat) (key : String)
    (answer : Except StoreFault (Option ByteArray)) : l.SameCells (l.take now key answer).2 := by
  rcases answer with e | _ | payload
  · exact ⟨rfl, rfl⟩
  · exact ⟨rfl, rfl⟩
  · rw [take]
    split <;> exact ⟨rfl, rfl⟩

theorem sameCells_countOutcome {α : Type} (l : Layer) (outcome : Except StoreFault α) :
    l.SameCells (l.countOutcome outcome) := by
  cases outcome <;> exact ⟨rfl, rfl⟩

theorem inflight_leave (l : Layer) (key : String) (cell : Nat) :
    (l.leave key cell).inflight
      = if l.inflight.get? key = some cell then l.inflight.erase key else l.inflight := by
  unfold leave
  split <;> rfl

theorem cells_leave (l : Layer) (key : String) (cell : Nat) :
    (l.leave key cell).cells = l.cells := by
  unfold leave
  split <;> rfl

end Layer

/-! ## Every move is such a step -/

namespace Flights

variable {σ : Type} (S : Store σ) (fs : Flights σ)

theorem board_onCache {cache : Cache σ} (h : fs.cache.layer.SameCells cache.layer) :
    (fs.onCache cache).board = fs.board := by
  simp only [board, onCache, h.1, h.2]

theorem board_hand (cell : Nat) (chart : Chart) :
    (fs.hand cell chart).board = fs.board.hand cell chart := by
  have each : ∀ f : Flight,
      (match f.phase with
        | .queued c => if c = cell then { f with phase := .handed cell chart } else f
        | _ => f) = { f with phase := f.phase.taking cell chart } := by
    rintro ⟨key, phase⟩
    cases phase with
    | queued c =>
        simp only [Flight.Phase.taking]
        split <;> rfl
    | _ => rfl
  simp only [board, hand, Board.hand, Board.mk.injEq, and_true]
  exact List.map_congr_left fun f _ => each f

theorem board_land (i : Nat) (key : String) (cell : Nat) (last : Flight.Phase) :
    (fs.land i key cell last).board = (fs.board.leave key cell).set i last := by
  simp only [land, board, set, onLayer, Layer.inflight_leave, Layer.cells_leave]
  rfl

theorem board_deliver (i : Nat) (key : String) (cell : Nat) (chart : Chart) :
    (fs.deliver i key cell chart).board
      = ((fs.board.hand cell chart).leave key cell).set i (.done (.ok chart)) := by
  rw [deliver, board_land, board_hand]

theorem isUnled_of_isLed {cell : Nat} (h : fs.isLed cell = false) : fs.board.IsUnled cell := by
  intro i key phase hat hled
  have hany : fs.isLed cell = true := by
    rw [isLed, List.any_eq_true]
    exact ⟨⟨key, phase⟩, List.mem_of_getElem? hat, by simp [hled]⟩
  rw [h] at hany
  contradiction

variable {S} in
theorem sameCells_of_ask {cache cache' : Cache σ} {now : Nat} {key : String}
    {found : Option Chart} (h : cache.ask S now key = (found, cache')) :
    cache.layer.SameCells cache'.layer := by
  have hsame : cache.layer.SameCells (cache.ask S now key).2.layer :=
    cache.layer.sameCells_take now key (S.get now key cache.store).1
  rw [h] at hsame
  exact hsame

theorem sameCells_publish (cache : Cache σ) (now : Nat) (key : String) (chart : Chart) :
    cache.layer.SameCells (cache.publish S now key chart).layer :=
  cache.layer.sameCells_countOutcome _

/-! A flight goes on over a cache that has kept its cells. -/

section

variable {fs} {cache : Cache σ} {m : Move} {i cell : Nat} {key : String} {p q : Flight.Phase}

theorem step_board_roam (hcells : fs.cache.layer.SameCells cache.layer)
    (hat : fs.board.IsAt i key p) (before : p.cell? = none) (after : q.cell? = none)
    (fine : q.failure? = none) : fs.board.Step m ((fs.onCache cache).set i q).board := by
  rw [← fs.board_onCache hcells] at hat ⊢
  exact .roam hat before after fine

theorem step_board_join (hcells : fs.cache.layer.SameCells cache.layer)
    (hat : fs.board.IsAt i key .asking) :
    fs.board.Step (.proceed i) (((fs.onCache cache).onLayer (cache.layer.join key).2).set i
      (.queued (cache.layer.join key).1)).board := by
  rw [← fs.board_onCache hcells] at hat ⊢
  rcases hcell : cache.layer.inflight.get? key with _ | cell
  · have hnew : (fs.onCache cache).board.inflight.get? key = none := hcell
    simp only [Layer.join, hcell]
    exact .found hat hnew
  · have hold : (fs.onCache cache).board.inflight.get? key = some cell := hcell
    simp only [Layer.join, hcell]
    exact .join hat hold

theorem step_board_lead (hcells : fs.cache.layer.SameCells cache.layer)
    (hat : fs.board.IsAt i key (.queued cell)) (unled : fs.board.IsUnled cell) :
    fs.board.Step (.proceed i) ((fs.onCache cache).set i (.rechecking cell)).board := by
  rw [← fs.board_onCache hcells] at hat unled ⊢
  exact .lead hat unled

theorem step_board_work (hcells : fs.cache.layer.SameCells cache.layer)
    (hat : fs.board.IsAt i key p) (before : p.leads? = some cell) (after : q.leads? = some cell) :
    fs.board.Step m ((fs.onCache cache).set i q).board := by
  rw [← fs.board_onCache hcells] at hat ⊢
  exact .work hat before after

theorem step_board_deliver {chart : Chart} (hcells : fs.cache.layer.SameCells cache.layer)
    (hat : fs.board.IsAt i key p) (joined : p.claims? = some cell)
    (alone : p.leads? = some cell ∨ fs.board.IsUnled cell) :
    fs.board.Step m ((fs.onCache cache).deliver i key cell chart).board := by
  rw [board_deliver]
  rw [← fs.board_onCache hcells] at hat alone ⊢
  exact .deliver hat joined alone

end

variable {S fs} {fs' : Flights σ} {now : Nat} {m : Move}

theorem Goes.board (h : fs.Goes S now m fs') : fs.board.Step m fs'.board := by
  cases h with
  | idle => exact .idle
  | call => exact .call
  | miss at' looked => exact step_board_roam (.of_look looked) at' rfl rfl rfl
  | find at' looked => exact step_board_roam (.of_look looked) at' rfl rfl rfl
  | join at' asked => exact step_board_join (sameCells_of_ask asked) at'
  | fetch at' asked => exact step_board_roam (sameCells_of_ask asked) at' rfl rfl rfl
  | lead at' unled looked =>
      exact step_board_lead (.of_look looked) at' (fs.isUnled_of_isLed unled)
  | findLate at' unled looked =>
      exact step_board_deliver (.of_look looked) at' rfl (.inr (fs.isUnled_of_isLed unled))
  | @draw _ cell _ cache at' asked =>
      -- A computation is counted, which leaves the cells as they are.
      have hcounted : fs.cache.layer.SameCells cache.layer.countComputation :=
        sameCells_of_ask asked
      exact step_board_work hcounted at' (show Flight.Phase.leads? _ = some cell from rfl) rfl
  | fetchLate at' asked => exact step_board_deliver (sameCells_of_ask asked) at' rfl (.inl rfl)
  | @publish _ _ key chart at' =>
      exact step_board_deliver (sameCells_publish S fs.cache now key chart) at' rfl (.inl rfl)
  | take at' =>
      rw [board_land]
      exact .land at' rfl ⟨rfl, rfl⟩
  | fail at' =>
      rw [board_land]
      exact .land at' rfl ⟨rfl, rfl⟩
  | @keep i cell _ _ at' =>
      exact .work (i := i) at' (show Flight.Phase.leads? _ = some cell from rfl) rfl
  | @giveUp i _ _ at' live free => exact .roam (i := i) at' free rfl rfl
  | @leave _ _ _ p at' joined =>
      rw [board_land]
      exact .land at' joined (by cases p <;> exact ⟨rfl, rfl⟩)
  | shutdown => exact .shutdown

/-- **A move does nothing to the board but what `Board.Step` lists.** -/
theorem step_board (S : Store σ) (fs : Flights σ) (now : Nat) (m : Move) :
    fs.board.Step m (fs.step S now m).board := (step_goes S fs now m).board

end Flights

end Almanac
