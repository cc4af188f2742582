import Mathlib
import Almanac.Proofs.Fetch.Occupancy

/-!
# Fetches are never stuck

The leader of a cell waits for a permit while others wait for the cell, and the tasks that
hold the permits belong to other fetches.  But whoever holds a permit calls the engine or is
about to, and waits for nobody.  So as long as some fetch is unfinished, some call is in
progress or some task can go on: `Fetches.bounded_and_never_stuck`.
-/

namespace Almanac

theorem Stage.exists_of_plain {α : Type} {s : Stage α} {u : Unit} (h : s.plain.result? = some u) :
    ∃ r, s.result? = some r := by
  cases s with
  | ended r => exact ⟨r, rfl⟩
  | _ => contradiction

/-! ## What a move does to the other flights -/

namespace Flights

variable {σ : Type} {S : Store σ} {fs fs' : Flights σ} {now i j : Nat} {m : Move}

def Move.flight? : Move → Option Nat
  | .proceed i => some i
  | .conclude i _ => some i
  | .cancel i => some i
  | _ => none

theorem phase_set_of_ne (h : i ≠ j) (q : Flight.Phase) : (fs.set i q).phase j = fs.phase j := by
  simp [phase, set, h]

theorem phase_set_self (h : i < fs.flights.length) (q : Flight.Phase) :
    (fs.set i q).phase i = q := by
  simp [phase, set, h]

theorem phase_hand (fs : Flights σ) (cell : Nat) (chart : Chart) (j : Nat) :
    (fs.hand cell chart).phase j = (fs.phase j).taking cell chart := by
  simp only [phase, hand, List.getElem?_map]
  rcases fs.flights[j]? with _ | ⟨key, p⟩
  · rfl
  · cases p with
    | queued c =>
        simp only [Option.map_some, Flight.Phase.taking]
        split <;> rfl
    | _ => rfl

/-- A flight has stayed where it was, or was handed the chart that it waited for. -/
def Kept (p q : Flight.Phase) : Prop :=
  q = p ∨ ∃ cell chart, p = .queued cell ∧ q = .handed cell chart

theorem kept_taking (p : Flight.Phase) (cell : Nat) (chart : Chart) :
    Kept p (p.taking cell chart) := by
  cases p with
  | queued c =>
      rw [Flight.Phase.taking]
      split
      · rename_i hc
        exact .inr ⟨c, chart, rfl, hc ▸ rfl⟩
      · exact .inl rfl
  | _ => exact .inl rfl

theorem kept_deliver (h : i ≠ j) (cache : Cache σ) (key : String) (cell : Nat) (chart : Chart) :
    Kept (fs.phase j) (((fs.onCache cache).deliver i key cell chart).phase j) := by
  have hphase : ((fs.onCache cache).deliver i key cell chart).phase j
      = (fs.hand cell chart).phase j := phase_set_of_ne h _
  rw [hphase, phase_hand]
  exact kept_taking _ _ _

/-- **A move leaves the other flights where they are**, unless it hands them a chart. -/
theorem Goes.others (h : fs.Goes S now m fs') (hm : m.flight? ≠ some j)
    (hj : j < fs.flights.length) : Kept (fs.phase j) (fs'.phase j) := by
  have hne : ∀ {i}, m.flight? = some i → i ≠ j := fun hi he => hm (he ▸ hi)
  cases h with
  | idle => exact .inl rfl
  | call =>
      left
      simp [phase, List.getElem?_append_left hj]
  | miss | find | join | fetch | lead | draw | fail | keep | giveUp | leave | take =>
      exact .inl (phase_set_of_ne (hne rfl) _)
  | @findLate _ _ _ layer => exact kept_deliver (hne rfl) { fs.cache with layer } _ _ _
  | fetchLate | publish => exact kept_deliver (hne rfl) _ _ _ _
  | shutdown => exact .inl rfl

theorem Goes.length_eq (h : fs.Goes S now m fs') (hm : m.flight? = some i) :
    fs'.flights.length = fs.flights.length := by
  cases h with
  | idle => rfl
  | call | shutdown => cases hm
  | miss | find | join | fetch | lead | draw | fail | keep | giveUp | leave | take =>
      exact List.length_modify ..
  | findLate | fetchLate | publish =>
      exact (List.length_modify ..).trans (List.length_map ..)

theorem Kept.eq {p q : Flight.Phase} (h : Kept p q) (hp : ∀ cell, p ≠ .queued cell) : q = p :=
  h.resolve_right fun ⟨cell, _, hq, _⟩ => hp cell hq

theorem Kept.ne_cancelled {p q : Flight.Phase} (h : Kept p q) (hp : p ≠ .cancelled) :
    q ≠ .cancelled := by
  rcases h with rfl | ⟨cell, chart, -, rfl⟩
  · exact hp
  · exact nofun

theorem Kept.isOver {p q : Flight.Phase} (h : Kept p q) (hp : p.isOver = true) :
    q.isOver = true := by
  rw [h.eq fun cell he => by rw [he] at hp; contradiction]
  exact hp

theorem Kept.isDrawing {p q : Flight.Phase} (h : Kept p q) (hp : p.isDrawing = true) :
    q.isDrawing = true := by
  rw [h.eq fun cell he => by rw [he] at hp; contradiction]
  exact hp

theorem lt_of_isDrawing (h : (fs.phase j).isDrawing = true) : j < fs.flights.length := by
  by_contra hge
  rw [phase, List.getElem?_eq_none (Nat.le_of_not_lt hge)] at h
  contradiction

/-! ## What a move does to its own flight -/

variable {key : String} {p : Flight.Phase}

theorem phase_of_getElem? (hat : fs.flights[i]? = some ⟨key, p⟩) : fs.phase i = p := by
  rw [phase, hat]

theorem phase_set_of_getElem? (hat : fs.flights[i]? = some ⟨key, p⟩) (q : Flight.Phase) :
    (fs.set i q).phase i = q :=
  phase_set_self (List.getElem?_eq_some_iff.mp hat).1 q

theorem phase_deliver_self (hat : fs.flights[i]? = some ⟨key, p⟩) (cell : Nat) (chart : Chart) :
    (fs.deliver i key cell chart).phase i = .done (.ok chart) := by
  have hhand : (fs.hand cell chart).flights.length = fs.flights.length := by simp [hand]
  exact phase_set_self (hhand ▸ (List.getElem?_eq_some_iff.mp hat).1) _

/-- A flight that goes on is not cancelled, and somewhere else unless it is over or held up. -/
theorem phase_proceed (S : Store σ) (now : Nat) (hat : fs.flights[i]? = some ⟨key, p⟩)
    (hkept : p ≠ .cancelled) (hdrawing : p.isDrawing = false) :
    ∃ q, (fs.proceed S now i).phase i = q ∧ q ≠ .cancelled ∧
      (fs.isHeldUp p = false → p.isOver = false → q ≠ p) := by
  cases p with
  | called =>
      simp only [proceed, hat]
      split <;> exact ⟨_, phase_set_of_getElem? hat _, by rintro ⟨⟩, fun _ _ => by rintro ⟨⟩⟩
  | asking =>
      simp only [proceed, hat]
      split <;> exact ⟨_, phase_set_of_getElem? hat _, by rintro ⟨⟩, fun _ _ => by rintro ⟨⟩⟩
  | queued cell =>
      simp only [proceed, hat]
      split
      · rename_i hled
        refine ⟨_, phase_of_getElem? hat, by rintro ⟨⟩, fun hheld => ?_⟩
        exact absurd (hheld.symm.trans hled) Bool.false_ne_true
      · split
        · exact ⟨_, phase_deliver_self hat _ _, by rintro ⟨⟩, fun _ _ => by rintro ⟨⟩⟩
        · exact ⟨_, phase_set_of_getElem? hat _, by rintro ⟨⟩, fun _ _ => by rintro ⟨⟩⟩
  | rechecking cell =>
      simp only [proceed, hat]
      split
      · exact ⟨_, phase_deliver_self hat _ _, by rintro ⟨⟩, fun _ _ => by rintro ⟨⟩⟩
      · exact ⟨_, phase_set_of_getElem? hat _, by rintro ⟨⟩, fun _ _ => by rintro ⟨⟩⟩
  | publishing cell chart =>
      simp only [proceed, hat]
      exact ⟨_, phase_deliver_self hat _ _, by rintro ⟨⟩, fun _ _ => by rintro ⟨⟩⟩
  | handed cell chart =>
      simp only [proceed, hat]
      exact ⟨_, phase_set_of_getElem? hat _, by rintro ⟨⟩, fun _ _ => by rintro ⟨⟩⟩
  | done outcome =>
      simp only [proceed, hat]
      exact ⟨_, phase_of_getElem? hat, by rintro ⟨⟩, fun _ hlive => by cases hlive⟩
  | drawing cell => contradiction
  | cancelled => contradiction

theorem phase_conclude (now : Nat) (hat : fs.flights[i]? = some ⟨key, p⟩)
    (drawn : Except Failure Chart) (hdrawing : p.isDrawing = true) :
    ∃ q, (fs.conclude now i drawn).phase i = q ∧ q ≠ .cancelled ∧ q ≠ p := by
  cases p with
  | drawing cell =>
      cases drawn with
      | error e =>
          simp only [conclude, hat]
          exact ⟨_, phase_set_of_getElem? hat _, by rintro ⟨⟩, by rintro ⟨⟩⟩
      | ok chart =>
          simp only [conclude, hat]
          exact ⟨_, phase_set_of_getElem? hat _, by rintro ⟨⟩, by rintro ⟨⟩⟩
  | _ => contradiction

/-- Whoever is held up waits for a leader, who is not. -/
theorem exists_leader (hheld : fs.isHeldUp p = true) :
    ∃ j < fs.flights.length, (fs.phase j).isOver = false ∧ fs.isHeldUp (fs.phase j) = false := by
  obtain ⟨cell, hled⟩ : ∃ cell, fs.isLed cell = true := by
    cases p with
    | queued cell => exact ⟨cell, hheld⟩
    | _ => contradiction
  rw [isLed, List.any_eq_true] at hled
  obtain ⟨⟨key, q⟩, hmem, hleads⟩ := hled
  obtain ⟨j, hj⟩ := List.mem_iff_getElem?.mp hmem
  refine ⟨j, (List.getElem?_eq_some_iff.mp hj).1, ?_⟩
  rw [phase_of_getElem? hj]
  cases q <;> first | exact ⟨rfl, rfl⟩ | contradiction

theorem isOver_cancel (hi : i < fs.flights.length) : ((fs.cancel i).phase i).isOver = true := by
  obtain ⟨⟨key, p⟩, hat⟩ : ∃ f, fs.flights[i]? = some f := ⟨_, List.getElem?_eq_getElem hi⟩
  simp only [cancel, hat]
  split
  · rename_i hover
    rw [phase_of_getElem? hat]
    exact hover
  · split
    · rw [phase_set_of_getElem? hat]
      rfl
    · rw [show (fs.land i key _ .cancelled).phase i = .cancelled from
        phase_set_of_getElem? hat _]
      rfl

end Flights

/-! ## Fetches and their flights -/

namespace Fetches

variable {σ : Type} {α : Type} {S : Store σ} {fs fs' : Fetches σ} {total now i : Nat}
  {task : Task} {f : Fetch}

def flags (fs : Fetches σ) : List Bool := fs.fetches.map (·.cancelled)

/-- The fetches go with their flights: the flight of a fetch that is cancelled is over, the
flight of another one is not cancelled, and a base task asks for a permit only while its
flight is drawing. -/
structure Coherent (fs : Fetches σ) : Prop where
  length : fs.flags.length = fs.flights.flights.length
  kept : ∀ i, fs.flags[i]? = some false → fs.flights.phase i ≠ .cancelled
  ended : ∀ i, fs.flags[i]? = some true → (fs.flights.phase i).isOver = true
  idle : ∀ i, fs.flags[i]? = some true → ∀ task, fs.stages ⟨i, task⟩ = .idle
  drawing : ∀ i, fs.stages ⟨i, .base⟩ ≠ .idle → (fs.flights.phase i).isDrawing = true

theorem flags_modify (fs : Fetches σ) (i : Nat) {g : Fetch → Fetch}
    (hg : ∀ f, (g f).cancelled = f.cancelled) : (fs.modify i g).flags = fs.flags := by
  apply List.ext_getElem?
  intro j
  simp only [flags, modify, List.getElem?_map, List.getElem?_modify]
  rcases fs.fetches[j]? with _ | f
  · rfl
  · simp only [Option.map_eq_map, Option.map_some]
    split
    · rw [hg]
    · rfl

theorem flags_giveBack (fs : Fetches σ) : fs.giveBack.flags = fs.flags := by
  unfold giveBack
  split
  · rfl
  · rename_i next permits _
    refine flags_modify ({ fs with permits, stirred := true }) _ fun f => ?_
    rcases next with ⟨_, _ | _ | _⟩ <;> rfl

theorem flags_drop (i : Nat) (fs : Fetches σ) (task : Task) :
    (fs.drop i task).flags = fs.flags := by
  have hrest : ({ fs with permits := fs.permits.leave ⟨i, task⟩ }.modify i
      (·.without task)).flags = fs.flags :=
    flags_modify ({ fs with permits := fs.permits.leave ⟨i, task⟩ }) i
      fun f => by cases task <;> rfl
  unfold drop
  split
  · rfl
  · simp only
    split
    · rw [flags_giveBack, hrest]
    · exact hrest

theorem flags_proceedCall (fs : Fetches σ) (who : Ticket) (stage : Stage α) (refusal : α)
    {put : Stage α → Fetch → Fetch} (hput : ∀ s f, (put s f).cancelled = f.cancelled) :
    (fs.proceedCall who stage refusal put).flags = fs.flags := by
  have hmodify : ∀ permits s, ({ fs with permits }.modify who.fetch (put s)).flags = fs.flags :=
    fun permits s => flags_modify ({ fs with permits }) _ (hput s)
  cases stage with
  | idle =>
      rw [proceedCall]
      split <;> exact hmodify _ _
  | waiting =>
      rw [proceedCall]
      split
      · exact hmodify fs.permits _
      · rfl
  | granted =>
      rw [proceedCall]
      split
      · rw [flags_giveBack]
        exact hmodify fs.permits _
      · exact hmodify fs.permits _
  | calling => rfl
  | ended r => rfl

theorem flags_answer (i : Nat) (a : Answer) (fs : Fetches σ) :
    (fs.answer i a).flags = fs.flags := by
  unfold answer
  split
  · rfl
  · cases a <;> simp only <;> split <;>
      first | rw [flags_giveBack]; exact flags_modify _ _ fun _ => rfl | rfl

theorem stages_proceedCall_idle {stage : Stage α} (refusal : α) {put : Stage α → Fetch → Fetch}
    (hf : fs.fetches[i]? = some f)
    (hput : ∀ s t, (put s f).stage t = if t = task then s.plain else f.stage t) {t : Ticket}
    (ht : t ≠ ⟨i, task⟩) (hidle : fs.stages t = .idle) :
    (fs.proceedCall ⟨i, task⟩ stage refusal put).stages t = .idle := by
  have hmodify : ∀ permits s, ({ fs with permits }.modify i (put s)).stages t = .idle := by
    intro permits s
    rw [stages_modify ({ fs with permits }) hf (hput s), Function.update_of_ne ht]
    exact hidle
  cases stage with
  | idle =>
      rw [proceedCall]
      split <;> exact hmodify _ _
  | waiting =>
      rw [proceedCall]
      split
      · exact hmodify fs.permits _
      · exact hidle
  | granted =>
      rw [proceedCall]
      split
      · exact stages_giveBack_of_ne (hmodify fs.permits _) (by rintro ⟨⟩)
      · exact hmodify fs.permits _
  | calling => exact hidle
  | ended r => exact hidle

/-! ## What every move keeps -/

/-- Only calls have gone on: a task that is idle no more may have a permit. -/
theorem Coherent.of_calls (h : fs.Coherent) (hflags : fs'.flags = fs.flags)
    (hflights : fs'.flights = fs.flights)
    (hidle : ∀ t, fs.stages t = .idle → fs'.stages t ≠ .idle → fs.flags[t.fetch]? = some false ∧
      (t.task = .base → (fs.flights.phase t.fetch).isDrawing = true)) : fs'.Coherent := by
  refine ⟨?_, ?_, ?_, fun j hj task => ?_, fun j hj => ?_⟩
  · rw [hflags, hflights]
    exact h.length
  · rw [hflags, hflights]
    exact h.kept
  · rw [hflags, hflights]
    exact h.ended
  · rw [hflags] at hj
    by_contra hne
    rw [(hidle _ (h.idle j hj task) hne).1] at hj
    contradiction
  · rw [hflights]
    by_cases hbefore : fs.stages ⟨j, .base⟩ = .idle
    · exact (hidle _ hbefore hj).2 rfl
    · exact h.drawing j hbefore

theorem Coherent.of_idle (h : fs.Coherent) (hflags : fs'.flags = fs.flags)
    (hflights : fs'.flights = fs.flights)
    (hidle : ∀ t, fs.stages t = .idle → fs'.stages t = .idle) : fs'.Coherent :=
  h.of_calls hflags hflights fun t ht hne => absurd (hidle t ht) hne

/-- A flight has moved for which no call is in progress, and its fetch may be cancelled
now; the other flights are where they were, or were handed a chart. -/
theorem Coherent.of_move (h : fs.Coherent) {m : Flights.Move} (hm : m.flight? = some i)
    (hgoes : fs.flights.Goes S now m fs'.flights) (hlength : fs'.flags.length = fs.flags.length)
    (hflags : ∀ j, i ≠ j → fs'.flags[j]? = fs.flags[j]?)
    (hkept : fs'.flags[i]? = some false → fs'.flights.phase i ≠ .cancelled)
    (hended : fs'.flags[i]? = some true →
      (fs'.flights.phase i).isOver = true ∧ ∀ task, fs'.stages ⟨i, task⟩ = .idle)
    (hidle : ∀ t, fs.stages t = .idle → fs'.stages t = .idle)
    (hbase : fs'.stages ⟨i, .base⟩ = .idle) : fs'.Coherent := by
  have hothers : ∀ {j}, i ≠ j → j < fs.flights.flights.length →
      Flights.Kept (fs.flights.phase j) (fs'.flights.phase j) := fun hij hj =>
    hgoes.others (fun he => hij (Option.some.inj (hm.symm.trans he))) hj
  have hlt : ∀ {j b}, fs.flags[j]? = some b → j < fs.flights.flights.length := fun hj =>
    h.length ▸ (List.getElem?_eq_some_iff.mp hj).1
  refine ⟨?_, fun j hj => ?_, fun j hj => ?_, fun j hj task => ?_, fun j hj => ?_⟩
  · rw [hlength, h.length, hgoes.length_eq hm]
  · by_cases hij : i = j
    · subst hij
      exact hkept hj
    · rw [hflags j hij] at hj
      exact (hothers hij (hlt hj)).ne_cancelled (h.kept j hj)
  · by_cases hij : i = j
    · subst hij
      exact (hended hj).1
    · rw [hflags j hij] at hj
      exact (hothers hij (hlt hj)).isOver (h.ended j hj)
  · by_cases hij : i = j
    · subst hij
      exact (hended hj).2 task
    · rw [hflags j hij] at hj
      exact hidle _ (h.idle j hj task)
  · have hij : i ≠ j := fun he => hj (he ▸ hbase)
    have hdrawing := h.drawing j fun he => hj (hidle _ he)
    exact (hothers hij (Flights.lt_of_isDrawing hdrawing)).isDrawing hdrawing

/-- The flight of a fetch has gone on, and no call is in progress for it. -/
theorem Coherent.of_flight (h : fs.Coherent) (hi : fs.flags[i]? = some false)
    (hflags : fs'.flags = fs.flags) {m : Flights.Move} (hm : m.flight? = some i)
    (hgoes : fs.flights.Goes S now m fs'.flights) (hkept : fs'.flights.phase i ≠ .cancelled)
    (hidle : ∀ t, fs.stages t = .idle → fs'.stages t = .idle)
    (hbase : fs'.stages ⟨i, .base⟩ = .idle) : fs'.Coherent := by
  refine h.of_move hm hgoes (by rw [hflags]) (fun _ _ => by rw [hflags]) (fun _ => hkept) ?_
    hidle hbase
  intro hj
  rw [hflags, hi] at hj
  contradiction

theorem flags_eq (hf : fs.fetches[i]? = some f) : fs.flags[i]? = some f.cancelled := by
  rw [flags, List.getElem?_map, hf]
  rfl

theorem Coherent.proceedCall (h : fs.Coherent) (hf : fs.fetches[i]? = some f)
    (hkept : f.cancelled = false) {stage : Stage α} (refusal : α) {put : Stage α → Fetch → Fetch}
    (hdrawing : task = .base → (fs.flights.phase i).isDrawing = true)
    (hcancelled : ∀ s f, (put s f).cancelled = f.cancelled)
    (hput : ∀ s t, (put s f).stage t = if t = task then s.plain else f.stage t) :
    (fs.proceedCall ⟨i, task⟩ stage refusal put).Coherent := by
  refine h.of_calls (flags_proceedCall _ _ _ _ hcancelled) (flights_proceedCall _ _ _ _ _) ?_
  intro t ht hne
  have hown : t = ⟨i, task⟩ := by
    by_contra ht'
    exact hne (stages_proceedCall_idle refusal hf hput ht' ht)
  subst hown
  exact ⟨hkept ▸ flags_eq hf, hdrawing⟩

theorem Coherent.exists_flight (h : fs.Coherent) (hf : fs.fetches[i]? = some f) :
    ∃ key p, fs.flights.flights[i]? = some ⟨key, p⟩ := by
  refine ⟨_, _, List.getElem?_eq_getElem ?_⟩
  rw [← h.length, flags, List.length_map]
  exact (List.getElem?_eq_some_iff.mp hf).1

theorem Coherent.fly (S : Store σ) (now : Nat) (h : fs.Coherent) (hf : fs.fetches[i]? = some f)
    (hkept : f.cancelled = false) (hdrawing : (fs.flights.phase i).isDrawing = false) :
    (fs.onFlights (fs.flights.proceed S now i)).Coherent := by
  have hflag : fs.flags[i]? = some false := hkept ▸ flags_eq hf
  have hlive := h.kept i hflag
  have hidle : fs.stages ⟨i, .base⟩ = .idle := by
    by_contra hne
    rw [h.drawing i hne] at hdrawing
    contradiction
  obtain ⟨key, p, hat⟩ := h.exists_flight hf
  rw [Flights.phase_of_getElem? hat] at hdrawing hlive
  obtain ⟨q, hq, hqlive, -⟩ := Flights.phase_proceed S now hat hlive hdrawing
  exact h.of_flight hflag rfl rfl (Flights.proceed_goes S fs.flights now i) (hq ▸ hqlive)
    (fun _ ht => ht) hidle

theorem Coherent.conclude (S : Store σ) (now : Nat) (h : fs.Coherent) (hf : fs.fetches[i]? = some f)
    (hkept : f.cancelled = false) (hdrawing : (fs.flights.phase i).isDrawing = true)
    (drawn : Except Failure Chart) :
    ((fs.onFlights (fs.flights.conclude now i drawn)).modify i (putBase .idle)).Coherent := by
  obtain ⟨key, p, hat⟩ := h.exists_flight hf
  rw [Flights.phase_of_getElem? hat] at hdrawing
  obtain ⟨q, hq, hqlive, -⟩ := Flights.phase_conclude now hat drawn hdrawing
  have hstages := stages_modify (fs.onFlights (fs.flights.conclude now i drawn))
    (g := putBase .idle) hf (stage_putBase f .idle)
  have hflags := flags_modify (fs.onFlights (fs.flights.conclude now i drawn)) i
    (g := putBase .idle) fun _ => rfl
  refine h.of_flight (hkept ▸ flags_eq hf) hflags rfl
    (Flights.conclude_goes S fs.flights now i drawn) (hq ▸ hqlive) (fun t ht => ?_) ?_
  · rw [hstages]
    by_cases ht' : t = ⟨i, .base⟩
    · rw [ht', Function.update_self]
      rfl
    · rw [Function.update_of_ne ht']
      exact ht
  · rw [hstages, Function.update_self]
    rfl

theorem Coherent.proceed (S : Store σ) (now : Nat) (h : fs.Coherent) (i : Nat) (task : Task) :
    (fs.proceed S now i task).Coherent := by
  unfold Fetches.proceed
  split
  · exact h
  · rename_i f hf
    split
    · exact h
    · rename_i hcancelled
      have hkept : f.cancelled = false := Bool.eq_false_iff.mpr hcancelled
      cases task with
      | base =>
          simp only
          split
          · rename_i hdrawing
            exact h.fly S now hf hkept hdrawing
          · rename_i drawn hdrawing _
            exact h.conclude S now hf hkept hdrawing drawn
          · rename_i hdrawing _
            exact h.proceedCall hf hkept _ (fun _ => hdrawing) (fun _ _ => rfl) (stage_putBase f)
      | balance =>
          exact h.proceedCall hf hkept _ nofun (fun _ _ => rfl) (stage_putBalance f)
      | pillars =>
          exact h.proceedCall hf hkept _ nofun (fun _ _ => rfl) (stage_putPillars f)

theorem Coherent.answer (h : fs.Coherent) (i : Nat) (a : Answer) : (fs.answer i a).Coherent := by
  refine h.of_idle (flags_answer i a fs) (flights_answer i a fs) fun t ht => ?_
  rcases hcalling : fs.isCalling i a.task with _ | _
  · rw [answer_of_isCalling hcalling]
    exact ht
  · obtain ⟨f, hf, hstage⟩ := stage_of_isCalling hcalling
    rw [answer_eq hf hcalling]
    refine stages_giveBack_of_ne ?_ nofun
    rw [stages_modify _ hf (stage_answered f a)]
    by_cases hown : t = ⟨i, a.task⟩
    · rw [hown, stages_eq hf, hstage] at ht
      contradiction
    · rw [Function.update_of_ne hown]
      exact ht

/-- A fetch whose tasks have been dropped drops its flight, too. -/
theorem Coherent.clear (S : Store σ) (h : fs.Coherent)
    (hidle : ∀ task, fs.stages ⟨i, task⟩ = .idle) :
    ((fs.onFlights (fs.flights.cancel i)).modify i fun _ => { cancelled := true }).Coherent := by
  have hflags : ∀ j, ((fs.onFlights (fs.flights.cancel i)).modify i
      fun _ => { cancelled := true }).flags[j]?
        = if i = j then fs.flags[j]?.map fun _ => true else fs.flags[j]? := by
    intro j
    simp only [flags, modify, onFlights, List.getElem?_map, List.getElem?_modify]
    rcases fs.fetches[j]? with _ | f <;> split <;> rfl
  have hstages : ((fs.onFlights (fs.flights.cancel i)).modify i
      fun _ => { cancelled := true }).stages = fs.stages :=
    stages_clear (fs.onFlights _) hidle
  refine h.of_move rfl (Flights.cancel_goes S fs.flights 0 i) (by simp [flags, modify, onFlights])
    (fun j hij => by rw [hflags, if_neg hij]) (fun hkept => ?_) (fun hended => ?_) ?_ ?_
  · rw [hflags, if_pos rfl] at hkept
    obtain ⟨b, -, hb⟩ := Option.map_eq_some_iff.mp hkept
    contradiction
  · rw [hflags, if_pos rfl] at hended
    obtain ⟨b, hb, -⟩ := Option.map_eq_some_iff.mp hended
    refine ⟨Flights.isOver_cancel ?_, fun task => ?_⟩
    · rw [← h.length]
      exact (List.getElem?_eq_some_iff.mp hb).1
    · rw [hstages]
      exact hidle task
  · rw [hstages]
    exact fun _ ht => ht
  · rw [hstages]
    exact hidle .base

/-- A fetch that is cancelled has dropped its tasks and its flight. -/
theorem Coherent.cancel (S : Store σ) (h : fs.Coherent) (i : Nat) : (fs.cancel i).Coherent := by
  have hdropped : (fs.dropAll i).Coherent := by
    refine h.of_idle ?_ ?_ fun t ht => ?_
    · simp only [dropAll, List.foldl_cons, List.foldl_nil, flags_drop]
    · simp only [dropAll, List.foldl_cons, List.foldl_nil, flights_drop]
    · exact stages_drop (.inr (stages_drop (.inr (stages_drop (.inr ht)))))
  unfold Fetches.cancel
  split
  · exact h
  · split
    · exact h
    · exact hdropped.clear S (fs.stages_dropAll i)

theorem Coherent.fetch (h : fs.Coherent) (now : Nat) (key : String) :
    (fs.step S now (.fetch key)).Coherent := by
  have hflags : (fs.step S now (.fetch key)).flags = fs.flags ++ [false] := List.map_append
  have hphase : ∀ {j}, j < fs.flights.flights.length →
      (fs.step S now (.fetch key)).flights.phase j = fs.flights.phase j := by
    intro j hj
    simp only [Fetches.step, Flights.step, Flights.phase, List.getElem?_append_left hj]
  have hlast : (fs.step S now (.fetch key)).flights.phase fs.flights.flights.length = .called := by
    simp [Fetches.step, Flights.step, Flights.phase]
  -- The fetch that has begun is the last one.
  have hflag : ∀ {j b}, (fs.step S now (.fetch key)).flags[j]? = some b →
      (fs.flags[j]? = some b ∧ j < fs.flights.flights.length) ∨
        (b = false ∧ j = fs.flights.flights.length) := by
    intro j b hj
    rw [hflags, List.getElem?_append] at hj
    split at hj
    · exact .inl ⟨hj, h.length ▸ ‹_›⟩
    · rw [List.getElem?_singleton] at hj
      split at hj
      · refine .inr ⟨(Option.some.inj hj).symm, ?_⟩
        rw [← h.length]
        omega
      · contradiction
  refine ⟨?_, fun j hj => ?_, fun j hj => ?_, fun j hj task => ?_, fun j hj => ?_⟩
  · rw [hflags, List.length_append, h.length]
    simp [Fetches.step, Flights.step]
  · rcases hflag hj with ⟨hj, hlt⟩ | ⟨-, rfl⟩
    · rw [hphase hlt]
      exact h.kept j hj
    · rw [hlast]
      exact (by rintro ⟨⟩)
  · rcases hflag hj with ⟨hj, hlt⟩ | ⟨hb, -⟩
    · rw [hphase hlt]
      exact h.ended j hj
    · contradiction
  · rw [stages_fetch]
    rcases hflag hj with ⟨hj, -⟩ | ⟨hb, -⟩
    · exact h.idle j hj task
    · contradiction
  · rw [stages_fetch] at hj
    have hdrawing := h.drawing j hj
    rw [hphase (Flights.lt_of_isDrawing hdrawing)]
    exact hdrawing

/-- **Every move keeps the fetches and their flights together.** -/
theorem Coherent.step (S : Store σ) (now : Nat) (h : fs.Coherent) (m : Move) :
    (fs.step S now m).Coherent := by
  cases m with
  | fetch key => exact h.fetch now key
  | proceed i task => exact h.proceed S now i task
  | answer i a => exact h.answer i a
  | cancel i => exact h.cancel S i
  | shutdown => exact ⟨h.length, h.kept, h.ended, h.idle, h.drawing⟩

/-! ## Who can go on -/

theorem canCall_plain {p : Permits} (s : Stage α) : canCall p s.plain = canCall p s := by
  cases s <;> rfl

theorem exists_of_canProceed (hcan : fs.canProceed i task = true) :
    ∃ f, fs.fetches[i]? = some f ∧ f.cancelled = false := by
  rw [canProceed] at hcan
  rcases hf : fs.fetches[i]? with _ | f
  · rw [hf] at hcan
    contradiction
  · rw [hf] at hcan
    simp only [Bool.and_eq_true, Bool.not_eq_true'] at hcan
    exact ⟨f, rfl, hcan.1⟩

/-- While its flight is drawing, a base task can go on with what was drawn or with its
call. -/
theorem canProceed_drawing (hf : fs.fetches[i]? = some f) (hkept : f.cancelled = false)
    (hdrawing : (fs.flights.phase i).isDrawing = true) : fs.canProceed i .base = true ↔
      (∃ drawn, f.base = .ended drawn) ∨ canCall fs.permits f.base = true := by
  rw [canProceed, hf]
  simp only [hkept, Bool.not_false, Bool.true_and]
  rcases hp : fs.flights.phase i with _ | _ | _ | _ | cell | _ | _ | _ | _ <;> rw [hp] at hdrawing
  case drawing => cases hb : f.base <;> simp [canCall]
  all_goals contradiction

/-- A task of a fetch that is not cancelled can go on with its call, and a base task while
its flight is drawing. -/
theorem canProceed_of_canCall (hf : fs.fetches[i]? = some f) (hkept : f.cancelled = false)
    (hdrawing : task = .base → (fs.flights.phase i).isDrawing = true)
    (hcan : canCall fs.permits (fs.stages ⟨i, task⟩) = true) : fs.canProceed i task = true := by
  rw [stages_eq hf] at hcan
  cases task with
  | base =>
      rw [Fetch.stage, canCall_plain] at hcan
      exact (canProceed_drawing hf hkept (hdrawing rfl)).mpr (.inr hcan)
  | balance =>
      rw [Fetch.stage, canCall_plain] at hcan
      simp only [canProceed, hf, hkept, hcan, Bool.not_false, Bool.and_self]
  | pillars =>
      rw [Fetch.stage, canCall_plain] at hcan
      simp only [canProceed, hf, hkept, hcan, Bool.not_false, Bool.and_self]

theorem Coherent.exists_fetch (h : fs.Coherent) (hbusy : fs.stages ⟨i, task⟩ ≠ .idle) :
    ∃ f, fs.fetches[i]? = some f ∧ f.cancelled = false := by
  rcases hf : fs.fetches[i]? with _ | f
  · exact absurd (by rw [stages, hf]; rfl) hbusy
  · refine ⟨f, rfl, ?_⟩
    by_contra hcancelled
    rw [Bool.not_eq_false] at hcancelled
    exact hbusy (h.idle i (hcancelled ▸ flags_eq hf) task)

/-- **Whoever holds a permit waits for nobody**: the task calls the engine or can go on to. -/
theorem Coherent.holder (h : fs.Coherent) (hholds : (fs.stages ⟨i, task⟩).holdsPermit = true) :
    fs.isCalling i task = true ∨
      fs.stages ⟨i, task⟩ = .granted ∧ fs.canProceed i task = true := by
  have hbusy : fs.stages ⟨i, task⟩ ≠ .idle := by
    intro hidle
    rw [hidle] at hholds
    contradiction
  obtain ⟨f, hf, hkept⟩ := h.exists_fetch hbusy
  rcases hs : fs.stages ⟨i, task⟩ with _ | _ | _ | _ | r <;> rw [hs] at hholds
  case granted =>
    refine .inr ⟨rfl, canProceed_of_canCall hf hkept (fun hbase => ?_) (by rw [hs]; rfl)⟩
    subst hbase
    exact h.drawing i hbusy
  case calling =>
    left
    rw [stages_eq hf] at hs
    rw [isCalling_eq, hf, Option.map_some, Option.getD_some, ← Fetch.isCalling_stage, hs]
    rfl
  all_goals contradiction

/-- **A call that has no result leads to a task that calls the engine or can go on.**  If the
task waits, all permits are taken, so some other one holds a permit. -/
theorem Coherent.call (h : fs.Coherent) (haccounted : fs.Accounted total) (hpos : 0 < total)
    (hf : fs.fetches[i]? = some f) (hkept : f.cancelled = false) (task : Task)
    (hdrawing : task = .base → (fs.flights.phase i).isDrawing = true)
    (hlacks : (fs.stages ⟨i, task⟩).result? = none) :
    ∃ j t, fs.isCalling j t = true ∨ fs.canProceed j t = true := by
  rcases hs : fs.stages ⟨i, task⟩ with _ | _ | _ | _ | r
  case idle => exact ⟨i, task, .inr (canProceed_of_canCall hf hkept hdrawing (by rw [hs]; rfl))⟩
  case waiting =>
    rcases hclosed : fs.permits.closed with _ | _
    · have hline := haccounted.waiting hclosed _ hs
      have hfree := haccounted.busy (List.ne_nil_of_mem hline)
      obtain ⟨holders, hmem, hcard⟩ := haccounted.held
      obtain ⟨⟨j, t⟩, hholder⟩ : holders.Nonempty := Finset.card_pos.mp (by omega)
      exact ⟨j, t, (h.holder ((hmem _).mp hholder)).imp_right And.right⟩
    · -- Whoever still waits is refused.
      refine ⟨i, task, .inr (canProceed_of_canCall hf hkept hdrawing ?_)⟩
      rw [hs]
      exact hclosed
  case granted => exact ⟨i, task, (h.holder (by rw [hs]; rfl)).imp_right And.right⟩
  case calling => exact ⟨i, task, (h.holder (by rw [hs]; rfl)).imp_right And.right⟩
  case ended =>
    rw [hs] at hlacks
    contradiction

theorem canProceed_base (hf : fs.fetches[i]? = some f) (hkept : f.cancelled = false)
    (hdrawing : (fs.flights.phase i).isDrawing = false)
    (hheld : fs.flights.isHeldUp (fs.flights.phase i) = false)
    (hlive : (fs.flights.phase i).isOver = false) : fs.canProceed i .base = true := by
  rw [canProceed, hf]
  simp only [hkept, Bool.not_false, Bool.true_and]
  rcases hp : fs.flights.phase i with _ | _ | cell | _ | _ | _ | _ | _ | _ <;>
    rw [hp] at hdrawing hheld hlive
  case queued =>
    rw [Flights.isHeldUp] at hheld
    simp only [hheld, Bool.not_false]
  all_goals first | rfl | contradiction

/-- A flight that nobody holds up leads to a task that calls the engine or can go on. -/
theorem Coherent.unheld (h : fs.Coherent) (haccounted : fs.Accounted total) (hpos : 0 < total)
    (hf : fs.fetches[i]? = some f) (hkept : f.cancelled = false)
    (hlive : (fs.flights.phase i).isOver = false)
    (hheld : fs.flights.isHeldUp (fs.flights.phase i) = false) :
    ∃ j t, fs.isCalling j t = true ∨ fs.canProceed j t = true := by
  rcases hdrawing : (fs.flights.phase i).isDrawing with _ | _
  · exact ⟨i, .base, .inr (canProceed_base hf hkept hdrawing hheld hlive)⟩
  rcases hresult : (fs.stages ⟨i, .base⟩).result? with _ | r
  · exact h.call haccounted hpos hf hkept .base (fun _ => hdrawing) hresult
  · -- The drawing is over, and the flight can go on with what was drawn.
    rw [stages_eq hf] at hresult
    obtain ⟨drawn, hdrawn⟩ : ∃ drawn, f.base = .ended drawn := by
      cases hb : f.base with
      | ended drawn => exact ⟨drawn, rfl⟩
      | _ =>
          rw [Fetch.stage, hb] at hresult
          contradiction
    exact ⟨i, .base, .inr ((canProceed_drawing hf hkept hdrawing).mpr (.inl ⟨drawn, hdrawn⟩))⟩

theorem Coherent.exists_kept (h : fs.Coherent) (hi : i < fs.flights.flights.length)
    (hlive : (fs.flights.phase i).isOver = false) :
    ∃ f, fs.fetches[i]? = some f ∧ f.cancelled = false := by
  rw [← h.length, flags, List.length_map] at hi
  refine ⟨_, List.getElem?_eq_getElem hi, ?_⟩
  by_contra hcancelled
  rw [Bool.not_eq_false] at hcancelled
  have hover := h.ended i (hcancelled ▸ flags_eq (List.getElem?_eq_getElem hi))
  exact absurd (hlive.symm.trans hover) Bool.false_ne_true

/-- **A flight that is not over leads to a task that calls the engine or can go on.**  If the
flight is held up, the leader of its cell is not. -/
theorem Coherent.flight (h : fs.Coherent) (haccounted : fs.Accounted total) (hpos : 0 < total)
    (hf : fs.fetches[i]? = some f) (hkept : f.cancelled = false)
    (hlive : (fs.flights.phase i).isOver = false) :
    ∃ j t, fs.isCalling j t = true ∨ fs.canProceed j t = true := by
  rcases hheld : fs.flights.isHeldUp (fs.flights.phase i) with _ | _
  · exact h.unheld haccounted hpos hf hkept hlive hheld
  · obtain ⟨j, hj, hjlive, hjheld⟩ := Flights.exists_leader hheld
    obtain ⟨g, hg, hgkept⟩ := h.exists_kept hj hjlive
    exact h.unheld haccounted hpos hg hgkept hjlive hjheld

/-- **As long as a fetch is unfinished, some call is in progress or some task can go on.** -/
theorem Coherent.unfinished (h : fs.Coherent) (haccounted : fs.Accounted total)
    (hpos : 0 < total) (hf : fs.fetches[i]? = some f) (hkept : f.cancelled = false)
    (hunfinished : fs.outcome? i = none) :
    ∃ j t, fs.isCalling j t = true ∨ fs.canProceed j t = true := by
  rcases hlive : (fs.flights.phase i).isOver with _ | _
  · exact h.flight haccounted hpos hf hkept hlive
  · rcases hbalance : (fs.stages ⟨i, .balance⟩).result? with _ | _
    · exact h.call haccounted hpos hf hkept .balance nofun hbalance
    rcases hpillars : (fs.stages ⟨i, .pillars⟩).result? with _ | _
    · exact h.call haccounted hpos hf hkept .pillars nofun hpillars
    -- All three tasks are over, so the fetch has an outcome.
    rw [stages_eq hf] at hbalance hpillars
    obtain ⟨balance, hbalance⟩ := Stage.exists_of_plain hbalance
    obtain ⟨pillars, hpillars⟩ := Stage.exists_of_plain hpillars
    have hnot := h.kept i (hkept ▸ flags_eq hf)
    rw [outcome?, hf] at hunfinished
    rcases hp : fs.flights.phase i with _ | _ | _ | _ | _ | _ | _ | outcome | _ <;>
      rw [hp] at hlive hnot
    case done =>
      rcases outcome with e | chart <;>
        simp only [hp, Flight.Phase.outcome?, hbalance, hpillars] at hunfinished <;> contradiction
    case cancelled => exact absurd rfl hnot
    all_goals contradiction

/-! ## Going on for real -/

theorem stages_proceedCall_ne {stage : Stage α} (refusal : α) {put : Stage α → Fetch → Fetch}
    (hf : fs.fetches[i]? = some f)
    (hput : ∀ s t, (put s f).stage t = if t = task then s.plain else f.stage t)
    (hcan : canCall fs.permits stage = true) :
    (fs.proceedCall ⟨i, task⟩ stage refusal put).stages ⟨i, task⟩ ≠ stage.plain := by
  have hmodify : ∀ permits s,
      ({ fs with permits }.modify i (put s)).stages ⟨i, task⟩ = s.plain := by
    intro permits s
    rw [stages_modify ({ fs with permits }) hf (hput s), Function.update_self]
  cases stage with
  | idle =>
      rw [proceedCall]
      split <;> rw [hmodify] <;> intro he <;> cases he
  | waiting =>
      have hclosed : fs.permits.closed = true := hcan
      rw [proceedCall, if_pos hclosed, hmodify fs.permits]
      intro he
      cases he
  | granted =>
      rw [proceedCall]
      split
      · have hended : (fs.modify i (put (.ended refusal))).stages ⟨i, task⟩ = .ended () :=
          hmodify fs.permits _
        rw [stages_giveBack_of_ne hended (by rintro ⟨⟩)]
        intro he
        cases he
      · rw [hmodify fs.permits]
        intro he
        cases he
  | calling => contradiction
  | ended r => contradiction

theorem Coherent.phase_fly_ne (S : Store σ) (now : Nat) (h : fs.Coherent)
    (hf : fs.fetches[i]? = some f) (hkept : f.cancelled = false)
    (hdrawing : (fs.flights.phase i).isDrawing = false) (hcan : fs.canProceed i .base = true) :
    (fs.flights.proceed S now i).phase i ≠ fs.flights.phase i := by
  have hlive := h.kept i (hkept ▸ flags_eq hf)
  rw [canProceed, hf] at hcan
  simp only [hkept, Bool.not_false, Bool.true_and] at hcan
  obtain ⟨key, p, hat⟩ := h.exists_flight hf
  rw [Flights.phase_of_getElem? hat] at hcan hlive hdrawing ⊢
  obtain ⟨q, hq, -, hne⟩ := Flights.phase_proceed S now hat hlive hdrawing
  rw [hq]
  cases p with
  | queued cell => exact hne (Bool.not_eq_true' _ ▸ hcan) rfl
  | _ => first | exact hne rfl rfl | contradiction

theorem Coherent.phase_conclude_ne (now : Nat) (h : fs.Coherent) (hf : fs.fetches[i]? = some f)
    (hdrawing : (fs.flights.phase i).isDrawing = true) (drawn : Except Failure Chart) :
    (fs.flights.conclude now i drawn).phase i ≠ fs.flights.phase i := by
  obtain ⟨key, p, hat⟩ := h.exists_flight hf
  rw [Flights.phase_of_getElem? hat] at hdrawing ⊢
  obtain ⟨q, hq, -, hne⟩ := Flights.phase_conclude now hat drawn hdrawing
  rw [hq]
  exact hne

/-- **A task that can go on does**: the phase of its flight or the stage of its call is
another one afterwards. -/
theorem Coherent.proceed_ne (S : Store σ) (now : Nat) (h : fs.Coherent)
    (hcan : fs.canProceed i task = true) :
    (fs.proceed S now i task).flights.phase i ≠ fs.flights.phase i ∨
      (fs.proceed S now i task).stages ⟨i, task⟩ ≠ fs.stages ⟨i, task⟩ := by
  obtain ⟨f, hf, hkept⟩ := exists_of_canProceed hcan
  rw [Fetches.proceed, hf]
  simp only [hkept, Bool.false_eq_true, if_false, stages_eq hf]
  cases task with
  | balance =>
      simp only [canProceed, hf, hkept, Bool.not_false, Bool.true_and] at hcan
      exact .inr (stages_proceedCall_ne _ hf (stage_putBalance f) hcan)
  | pillars =>
      simp only [canProceed, hf, hkept, Bool.not_false, Bool.true_and] at hcan
      exact .inr (stages_proceedCall_ne _ hf (stage_putPillars f) hcan)
  | base =>
      rcases hdrawing : (fs.flights.phase i).isDrawing with _ | _
      · exact .inl (h.phase_fly_ne S now hf hkept hdrawing hcan)
      rcases (canProceed_drawing hf hkept hdrawing).mp hcan with ⟨drawn, hb⟩ | hcall
      · simp only [hb]
        exact .inl (h.phase_conclude_ne now hf hdrawing drawn)
      · right
        have hne := stages_proceedCall_ne (.error (.missingChart Fetch.closedReason)) hf
          (stage_putBase f) hcall
        cases hb : f.base with
        | ended drawn =>
            rw [hb] at hcall
            contradiction
        | _ =>
            rw [hb] at hne
            simp only [Fetch.stage, hb]
            exact hne

/-! ## Whole runs -/

def tickets (fs : Fetches σ) : Finset Ticket :=
  (Finset.range fs.fetches.length ×ˢ {Task.base, .balance, .pillars}).image fun t => ⟨t.1, t.2⟩

def callers (fs : Fetches σ) : Finset Ticket := {t ∈ fs.tickets | fs.isCalling t.fetch t.task}

def holders (fs : Fetches σ) : Finset Ticket := {t ∈ fs.tickets | (fs.stages t).holdsPermit}

theorem mem_tickets {t : Ticket} : t ∈ fs.tickets ↔ t.fetch < fs.fetches.length := by
  have htask : t.task = .base ∨ t.task = .balance ∨ t.task = .pillars := by
    rcases t with ⟨_, _ | _ | _⟩ <;> simp
  simp only [tickets, Finset.mem_image, Finset.mem_product, Finset.mem_range, Finset.mem_insert,
    Finset.mem_singleton, Prod.exists]
  constructor
  · rintro ⟨j, task, ⟨hj, -⟩, rfl⟩
    exact hj
  · exact fun hj => ⟨t.fetch, t.task, ⟨hj, htask⟩, rfl⟩

theorem mem_holders {t : Ticket} : t ∈ fs.holders ↔ (fs.stages t).holdsPermit = true := by
  rw [holders, Finset.mem_filter, mem_tickets]
  refine ⟨And.right, fun h => ⟨?_, h⟩⟩
  by_contra hge
  rw [stages, List.getElem?_eq_none (Nat.le_of_not_lt hge)] at h
  contradiction

theorem mem_callers {t : Ticket} : t ∈ fs.callers ↔ fs.isCalling t.fetch t.task = true := by
  rw [callers, Finset.mem_filter, mem_tickets]
  refine ⟨And.right, fun h => ⟨?_, h⟩⟩
  obtain ⟨f, hf, -⟩ := stage_of_isCalling h
  exact (List.getElem?_eq_some_iff.mp hf).1

theorem callers_subset_holders (fs : Fetches σ) : fs.callers ⊆ fs.holders := by
  intro t ht
  obtain ⟨f, hf, hcalling⟩ := stage_of_isCalling (mem_callers.mp ht)
  rw [mem_holders, show fs.stages t = f.stage t.task from stages_eq hf t.task, hcalling]
  rfl

theorem Accounted.free_add_card (h : fs.Accounted total) :
    fs.permits.free + fs.holders.card = total := by
  obtain ⟨holders, hmem, hcard⟩ := h.held
  have hsame : fs.holders = holders := by
    ext t
    rw [mem_holders, hmem]
  rw [hsame]
  exact hcard

/-- No fetches over a cache, with the permits that a configuration asks for. -/
def ofPermits (maxFetches : Nat) (cache : Cache σ) : Fetches σ where
  flights := ⟨cache, []⟩
  permits := permitsFor maxFetches

def run (S : Store σ) (fs : Fetches σ) (moves : List (Nat × Move)) : Fetches σ :=
  moves.foldl (fun fs move => fs.step S move.1 move.2) fs

/-- **What every run keeps.** -/
theorem run_keeps (S : Store σ) (h : fs.Coherent) (haccounted : fs.Accounted total)
    (moves : List (Nat × Move)) :
    (fs.run S moves).Coherent ∧ (fs.run S moves).Accounted total := by
  induction moves generalizing fs with
  | nil => exact ⟨h, haccounted⟩
  | cons move moves ih => exact ih (h.step S move.1 move.2) (haccounted.step S move.1 move.2)

theorem coherent_ofPermits (maxFetches : Nat) (cache : Cache σ) :
    (ofPermits maxFetches cache).Coherent := by
  refine ⟨rfl, ?_, ?_, ?_, fun i h => absurd rfl h⟩ <;> exact fun i h => by cases h

theorem accounted_ofPermits (maxFetches : Nat) (cache : Cache σ) :
    (ofPermits maxFetches cache).Accounted (max maxFetches 1) :=
  Permits.accounted_new _

/-- **The engine is never asked more than it is meant to be, and no fetch is ever stuck.**
Whatever fetches begin, go on, are answered and cancelled, in whatever order, over whatever
store: each permit is free or held by a task that calls the engine or can go on to; and as
long as a fetch is unfinished, some call is in progress or some task can go on, which takes
it to another point at any time. -/
theorem bounded_and_never_stuck (S : Store σ) (maxFetches : Nat) (cache : Cache σ)
    (moves : List (Nat × Move)) :
    let fs := (ofPermits maxFetches cache).run S moves
    fs.callers.card ≤ max maxFetches 1 ∧
      fs.permits.free + fs.holders.card = max maxFetches 1 ∧
      (∀ t ∈ fs.holders, t ∈ fs.callers ∨
        fs.stages t = .granted ∧ fs.canProceed t.fetch t.task = true) ∧
      (∀ i f, fs.fetches[i]? = some f → f.cancelled = false → fs.outcome? i = none →
        ∃ t, t ∈ fs.callers ∨ fs.canProceed t.fetch t.task = true) ∧
      ∀ t, fs.canProceed t.fetch t.task = true → ∀ now,
        (fs.step S now (.proceed t.fetch t.task)).flights.phase t.fetch
            ≠ fs.flights.phase t.fetch ∨
          (fs.step S now (.proceed t.fetch t.task)).stages t ≠ fs.stages t := by
  intro fs
  obtain ⟨hcoherent, haccounted⟩ : fs.Coherent ∧ fs.Accounted (max maxFetches 1) :=
    run_keeps S (coherent_ofPermits maxFetches cache) (accounted_ofPermits maxFetches cache) moves
  have hpermits := haccounted.free_add_card
  have hpos : 0 < max maxFetches 1 := Nat.lt_of_lt_of_le Nat.zero_lt_one (Nat.le_max_right _ _)
  refine ⟨?_, hpermits, fun t ht => ?_, fun i f hf hkept hunfinished => ?_, fun t ht now => ?_⟩
  · have hcallers := Finset.card_le_card fs.callers_subset_holders
    omega
  · rw [mem_callers]
    exact hcoherent.holder (mem_holders.mp ht)
  · obtain ⟨j, task, hgoes⟩ := hcoherent.unfinished haccounted hpos hf hkept hunfinished
    exact ⟨⟨j, task⟩, hgoes.imp_left mem_callers.mpr⟩
  · exact hcoherent.proceed_ne S now ht

/-- An analysis has the only permit, the leader of a cell waits for it, and another fetch
waits for the cell: only the analysis can go on. -/
example :
    let fs := (ofPermits 0 Flights.nobody.cache).run SharedStore.store <| List.map (Prod.mk 0) <|
      [.fetch "k", .fetch "k", .proceed 0 .balance] ++ List.replicate 5 (.proceed 0 .base) ++
        List.replicate 3 (.proceed 1 .base) ++ [.proceed 0 .pillars]
    fs.holders = {⟨0, .balance⟩} ∧ fs.permits.line = [⟨0, .base⟩, ⟨0, .pillars⟩] ∧
      ∀ t ∈ fs.tickets, fs.canProceed t.fetch t.task = true →
        t ∈ ({⟨0, .balance⟩, ⟨1, .balance⟩, ⟨1, .pillars⟩} : Finset Ticket) := by
  decide +kernel

end Fetches

end Almanac
