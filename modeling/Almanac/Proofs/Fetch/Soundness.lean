import Mathlib
import Almanac.Proofs.Cache.FlightSoundness
import Almanac.Proofs.Fetch.Results

/-!
# What a fetch gets

Fetches over a sound cache get good charts, or fail with a failure that their own engine
call was answered with.
-/

namespace Almanac.Fetches

variable {σ : Type} {S : Store σ} {Holds : σ → String → ByteArray → Prop}
  {Good : String → Chart → Prop} {Known Known' : Nat → Answer → Prop} {keys : List String}
  {fs : Fetches σ}

/-- What is known of some fetches while permits are given: their charts are good, their
results are made of known answers, and each is for the chart of its key. -/
structure Sound (Holds : σ → String → ByteArray → Prop) (Good : String → Chart → Prop)
    (Known : Nat → Answer → Prop) (keys : List String) (fs : Fetches σ) : Prop where
  flights : fs.flights.Sound Holds Good
  backed : fs.Backed Known
  failed : ∀ i key e, fs.flights.board.IsAt i key (.done (.error e)) →
    ∃ a, Known i (.base a) ∧ Fetch.drawn a = .error e
  keys : fs.flights.board.keys = keys
  given : fs.permits.closed = false

/-- The charts in known answers are good for the keys of the fetches that they answer. -/
def KnownGood (Good : String → Chart → Prop) (Known : Nat → Answer → Prop)
    (keys : List String) : Prop :=
  ∀ i key a chart, Known i (.base a) → Fetch.drawn a = .ok chart → keys[i]? = some key →
    Good key chart

theorem Sound.mono (h : fs.Sound Holds Good Known keys) (hle : ∀ i a, Known i a → Known' i a) :
    fs.Sound Holds Good Known' keys where
  flights := h.flights
  backed := h.backed.mono hle
  failed i key e hat := (h.failed i key e hat).imp fun _ ha => ⟨hle _ _ ha.1, ha.2⟩
  keys := h.keys
  given := h.given

theorem Sound.drawsGood (h : fs.Sound Holds Good Known keys) (hgood : KnownGood Good Known keys)
    {m : Move} {move : Flights.Move} (hmove : fs.Moves m move) :
    fs.flights.DrawsGood Good move := by
  cases hmove with
  | @conclude i f drawn hf hended =>
      cases drawn with
      | error e => trivial
      | ok chart =>
          intro key cell hat
          obtain ⟨a, ha, hdrawn⟩ := (h.backed i f hf).base _ hended
          exact hgood i key a chart ha hdrawn.symm (h.keys ▸ hat.getElem?_keys)
  | call key => trivial
  | proceed i => trivial
  | cancel i => trivial
  | shutdown => trivial

theorem Sound.failed_step (h : fs.Sound Holds Good Known keys) (now : Nat) {m : Move}
    {move : Flights.Move} (hmove : fs.Moves m move) {i : Nat} {key : String} {e : Failure}
    (hat : (fs.flights.step S now move).board.IsAt i key (.done (.error e))) :
    ∃ a, Known i (.base a) ∧ Fetch.drawn a = .error e := by
  rcases (fs.flights.step_board S now move).failure hat with hold | ⟨rfl, -⟩
  · exact h.failed i key e hold
  · cases hmove with
    | @conclude _ f _ hf hended =>
        obtain ⟨a, ha, hdrawn⟩ := (h.backed i f hf).base _ hended
        exact ⟨a, ha, hdrawn.symm⟩

/-- **Every move keeps fetches sound**, if the answers that are given are known. -/
theorem Sound.step (hS : S.Faithful Holds) (h : fs.Sound Holds Good Known keys)
    (hgood : KnownGood Good Known keys) (now : Nat) {m : Move} (hm : m ≠ .shutdown)
    (hcall : ∀ key, m ≠ .fetch key) (hanswer : ∀ i a, m = .answer i a → Known i a) :
    (fs.step S now m).Sound Holds Good Known keys := by
  have hbacked := h.backed.step S now h.given hanswer
  have hgiven := (closed_step S now fs hm).trans h.given
  rcases flights_step S now fs m with hsame | ⟨move, hmove, hstep⟩
  · refine ⟨?_, hbacked, ?_, ?_, hgiven⟩ <;> rw [hsame]
    · exact h.flights
    · exact h.failed
    · exact h.keys
  · refine ⟨?_, hbacked, ?_, ?_, hgiven⟩ <;> rw [hstep]
    · exact h.flights.step hS now (h.drawsGood hgood hmove)
    · exact fun i key e => h.failed_step now hmove
    · rcases (fs.flights.step_board S now move).keys with hkeys | ⟨key, rfl, -⟩
      · exact hkeys.trans h.keys
      · cases hmove
        exact absurd rfl (hcall key)

theorem Sound.fetch (hS : S.Faithful Holds) (h : fs.Sound Holds Good Known keys) (now : Nat)
    (key : String) : (fs.step S now (.fetch key)).Sound Holds Good Known (keys ++ [key]) where
  flights := h.flights.step hS now (m := .call key) trivial
  backed := h.backed.step S now h.given (by simp)
  failed _ _ _ hat := h.failed_step (S := S) now (.call key) hat
  keys := by
    rw [← h.keys]
    exact List.map_append
  given := h.given

/-! ## Outcomes -/

/-- What a fetch may get: a good chart and two parts that were answered, or the failure
that its engine call was answered with. -/
def Gets (Good : String → Chart → Prop) (Known : Answer → Prop) (key : String) :
    Except Failure Bundle → Prop
  | .ok b => Good key b.chart ∧ (∃ a, Known (.balance a) ∧ b.balance = Fetch.part a) ∧
      ∃ a, Known (.pillars a) ∧ b.pillars = Fetch.part a
  | .error e => ∃ a, Known (.base a) ∧ Fetch.drawn a = .error e

theorem isAt_of_outcome? {i : Nat} {key : String} {outcome : Except Failure Chart}
    (hkey : fs.flights.board.keys[i]? = some key)
    (h : (fs.flights.phase i).outcome? = some outcome) :
    fs.flights.board.IsAt i key (.done outcome) := by
  rw [Board.keys, List.getElem?_map] at hkey
  obtain ⟨f, hf, rfl⟩ := Option.map_eq_some_iff.mp hkey
  have hf : fs.flights.flights[i]? = some f := hf
  rw [Flights.phase, hf] at h
  rw [Board.IsAt, show fs.flights.board.flights[i]? = some f from hf]
  rcases f with ⟨key, phase⟩
  cases phase with
  | done o => rw [← Option.some.inj h]
  | _ => cases h

/-- **What fetches get is good, or failed by itself.** -/
theorem Sound.gets (h : fs.Sound Holds Good Known keys)
    (hperiods : ∀ key chart, Good key chart → chart.periods.isEmpty = false) {i : Nat}
    {key : String} (hkey : keys[i]? = some key) {outcome : Except Failure Bundle}
    (ho : fs.outcome? i = some outcome) : Gets Good (Known i) key outcome := by
  rw [← h.keys] at hkey
  rw [outcome?] at ho
  split at ho
  · contradiction
  · rename_i f hf
    have hbacked := h.backed i f hf
    split at ho
    · rename_i chart balance pillars hphase hbalance hpillars
      have hgood := h.flights.charts i key _ chart (isAt_of_outcome? hkey hphase) rfl
      rw [hperiods key chart hgood] at ho
      obtain rfl := Option.some.inj ho
      exact ⟨hgood, hbacked.balance _ (Stage.eq_ended hbalance),
        hbacked.pillars _ (Stage.eq_ended hpillars)⟩
    · rename_i e balance pillars hphase hbalance hpillars
      obtain rfl := Option.some.inj ho
      exact h.failed i key e (isAt_of_outcome? hkey hphase)
    · contradiction

end Almanac.Fetches
