import Mathlib
import Almanac.Proofs.Cache.Registration
import Almanac.Proofs.Fetch.Alone
import Almanac.Proofs.Pipeline.Transparency

/-!
# After the shutdown

A cache that is shut down keeps nothing and gets nothing from its store, so every flight
ends up drawing, and a drawing asks for a permit that nobody gets any more.  However many
orders come in after the shutdown, and whatever went on before it, each of them fails for
want of a chart without any call of the engine: `Pipeline.shutdown_is_final`.
-/

namespace Almanac

/-! ## A cache that is shut down -/

/-- Neither tier holds anything, and the store refuses every call. -/
structure Cache.IsShut (c : Cache SharedStore) : Prop where
  tier : c.layer.tier.entries = .empty
  entries : c.store.entries = .empty
  closed : c.store.closed = true

namespace Cache

variable {c : Cache SharedStore}

theorem isShut_shutdown (c : Cache SharedStore) : (c.shutdown SharedStore.store).IsShut :=
  ⟨rfl, rfl, rfl⟩

theorem IsShut.look (h : c.IsShut) (now : Nat) (key : String) :
    c.layer.look now key = (none, c.layer) := by
  rw [Layer.look, LocalTier.get, h.tier]
  rfl

theorem IsShut.ask (h : c.IsShut) (now : Nat) (key : String) :
    c.ask SharedStore.store now key = (none, ⟨c.layer.countSharedFailure, c.store⟩) := by
  have hget : SharedStore.store.get now key c.store = (.error SharedStore.closedFault, c.store) :=
    if_pos h.closed
  rw [Cache.ask, hget]
  rfl

theorem IsShut.onLayer (h : c.IsShut) {layer : Layer} (htier : layer.tier = c.layer.tier) :
    IsShut ⟨layer, c.store⟩ :=
  ⟨htier ▸ h.tier, h.entries, h.closed⟩

end Cache

/-! ## Flights that fail -/

def Fetch.unserved : Failure := .missingChart Fetch.closedReason

/-- The phases of a flight that finds nothing and gets no permit. -/
def Flight.Phase.IsDoomed : Phase → Prop
  | publishing _ _ => False
  | handed _ _ => False
  | cancelled => False
  | done outcome => outcome = .error Fetch.unserved
  | _ => True

namespace Flights

variable {fs : Flights SharedStore} {i : Nat} {key : String} {p : Flight.Phase}

def Lone (i : Nat) (fs : Flights SharedStore) : Prop :=
  ∀ j f, j ≠ i → fs.flights[j]? = some f → f.phase.cell? = none

def Apart (i : Nat) (fs fs' : Flights SharedStore) : Prop :=
  ∀ j, j ≠ i → fs'.flights[j]? = fs.flights[j]?

theorem Lone.of_apart {fs' : Flights SharedStore} (h : fs.Lone i) (hapart : fs.Apart i fs') :
    fs'.Lone i :=
  fun j f hj hf => h j f hj (hapart j hj ▸ hf)

theorem Lone.isLed (h : fs.Lone i) (hat : fs.flights[i]? = some ⟨key, p⟩) (hp : p.leads? = none)
    (cell : Nat) : fs.isLed cell = false := by
  rw [Flights.isLed, List.any_eq_false]
  intro f hf
  obtain ⟨j, hj⟩ := List.mem_iff_getElem?.mp hf
  by_cases hji : j = i
  · rw [hji, hat] at hj
    rw [← Option.some.inj hj, hp]
    simp
  · rw [Flight.Phase.leads?_of_cell? (h j f hji hj)]
    simp

theorem getElem?_set_self (hat : fs.flights[i]? = some ⟨key, p⟩) (q : Flight.Phase) :
    (fs.set i q).flights[i]? = some ⟨key, q⟩ := by
  simp [set, hat]

theorem apart_set (fs : Flights SharedStore) (i : Nat) (q : Flight.Phase) :
    fs.Apart i (fs.set i q) := by
  intro j hj
  simp [set, hj.symm]

/-- A flight over a shut cache gets nowhere but to its drawing. -/
theorem proceed_of_isShut (h : fs.cache.IsShut) (now : Nat) (hlone : fs.Lone i)
    (hat : fs.flights[i]? = some ⟨key, p⟩) (hp : p.IsDoomed) (hdrawing : p.isDrawing = false) :
    ∃ q, (fs.proceed SharedStore.store now i).flights[i]? = some ⟨key, q⟩ ∧ q.IsDoomed ∧
      q.way + 4 * q.isDrawing.toNat ≤ p.way - 1 ∧
      (fs.proceed SharedStore.store now i).cache.IsShut ∧
      fs.Apart i (fs.proceed SharedStore.store now i) := by
  cases p with
  | called =>
      simp only [proceed, hat, h.look]
      exact ⟨_, getElem?_set_self hat _, trivial, Nat.le_refl _, h, apart_set _ _ _⟩
  | asking =>
      simp only [proceed, hat, h.ask]
      refine ⟨_, getElem?_set_self hat _, trivial, Nat.le_refl _, h.onLayer ?_, apart_set _ _ _⟩
      rw [Layer.join]
      split <;> rfl
  | queued cell =>
      simp only [proceed, hat, hlone.isLed hat rfl, h.look, Bool.false_eq_true, if_false]
      exact ⟨_, getElem?_set_self hat _, trivial, Nat.le_refl _, h, apart_set _ _ _⟩
  | rechecking cell =>
      simp only [proceed, hat, h.ask]
      exact ⟨_, getElem?_set_self hat _, trivial, Nat.le_refl _, h.onLayer rfl, apart_set _ _ _⟩
  | done outcome =>
      simp only [proceed, hat]
      exact ⟨_, rfl, hp, Nat.le_refl _, h, fun _ _ => rfl⟩
  | drawing cell => contradiction
  | publishing cell chart => exact hp.elim
  | handed cell chart => exact hp.elim
  | cancelled => exact hp.elim

theorem conclude_of_isShut (h : fs.cache.IsShut) (now : Nat)
    (hat : fs.flights[i]? = some ⟨key, p⟩) (hdrawing : p.isDrawing = true) :
    (fs.conclude now i (.error Fetch.unserved)).flights[i]?
        = some ⟨key, .done (.error Fetch.unserved)⟩ ∧
      (fs.conclude now i (.error Fetch.unserved)).cache.IsShut ∧
      fs.Apart i (fs.conclude now i (.error Fetch.unserved)) := by
  cases p with
  | drawing cell =>
      simp only [conclude, hat, land]
      refine ⟨getElem?_set_self hat _, h.onLayer ?_, apart_set _ _ _⟩
      rw [Layer.leave]
      split <;> rfl
  | _ => contradiction

end Flights

/-! ## Fetches that fail -/

/-- A call that is not made: nothing was asked for, or the permit was refused. -/
def Stage.IsRefused {α : Type} (refusal : α) (s : Stage α) : Prop :=
  s = .idle ∨ s = .ended refusal

namespace Fetches

variable {fs : Fetches SharedStore} {i : Nat} {p : Flight.Phase} {f : Fetch}

def Apart (i : Nat) (fs fs' : Fetches SharedStore) : Prop :=
  fs.flights.Apart i fs'.flights ∧ ∀ j, j ≠ i → fs'.fetches[j]? = fs.fetches[j]?

theorem Apart.refl (fs : Fetches SharedStore) : fs.Apart i fs :=
  ⟨fun _ _ => rfl, fun _ _ => rfl⟩

theorem Apart.trans {fs' fs'' : Fetches SharedStore} (h : fs.Apart i fs') (h' : fs'.Apart i fs'') :
    fs.Apart i fs'' :=
  ⟨fun j hj => (h'.1 j hj).trans (h.1 j hj), fun j hj => (h'.2 j hj).trans (h.2 j hj)⟩

/-- A fetch after the shutdown, whose flight is in a phase: it has neither a permit nor a
chart, and no other flight has a cell. -/
structure Doomed (i : Nat) (p : Flight.Phase) (f : Fetch) (fs : Fetches SharedStore) : Prop where
  cache : fs.flights.cache.IsShut
  closed : fs.permits.closed = true
  flight : ∃ key, fs.flights.flights[i]? = some ⟨key, p⟩
  doomed : p.IsDoomed
  lone : fs.flights.Lone i
  fetch : fs.fetches[i]? = some f
  kept : f.cancelled = false
  base : f.base.IsRefused (.error Fetch.unserved)
  undrawn : p.isDrawing = false → f.base = .idle
  balance : f.balance.IsRefused (.absent Fetch.closedReason)
  pillars : f.pillars.IsRefused (.absent Fetch.closedReason)

theorem Doomed.phase (h : fs.Doomed i p f) : fs.flights.phase i = p := by
  obtain ⟨key, hkey⟩ := h.flight
  rw [Flights.phase, hkey]

theorem apart_modify (fs : Fetches SharedStore) (i : Nat) (g : Fetch → Fetch) :
    fs.Apart i (fs.modify i g) := by
  refine ⟨fun _ _ => rfl, fun j hj => ?_⟩
  simp [modify, hj.symm]

theorem getElem?_modify_self (fs : Fetches SharedStore) (hf : fs.fetches[i]? = some f)
    (g : Fetch → Fetch) : (fs.modify i g).fetches[i]? = some (g f) := by
  simp [modify, hf]

/-- A task takes one of the steps that it may still take, and the other tasks of its fetch
may still take theirs. -/
def Wanes (i : Nat) (task : Task) (p : Flight.Phase) (f : Fetch) (fs fs' : Fetches SharedStore) :
    Prop :=
  ∃ q g, fs'.Doomed i q g ∧ g.left q false task ≤ f.left p false task - 1 ∧
    (∀ t, t ≠ task → g.left q false t = f.left p false t) ∧ fs.Apart i fs'

theorem Doomed.stay (h : fs.Doomed i p f) {task : Task} (hleft : f.left p false task = 0) :
    fs.Wanes i task p f fs :=
  ⟨p, f, h, hleft ▸ Nat.zero_le _, fun _ _ => rfl, .refl fs⟩

theorem Doomed.ask {α : Type} (h : fs.Doomed i p f) (task : Task)
    (hdrawing : task = .base → p.isDrawing = true) (hidle : f.stage task = .idle) {refusal : α}
    {put : Stage α → Fetch → Fetch}
    (hput : ∀ t, (put (.ended refusal) f).stage t = if t = task then .ended () else f.stage t)
    (hdoomed : (fs.modify i (put (.ended refusal))).Doomed i p (put (.ended refusal) f)) :
    fs.Wanes i task p f (fs.proceedCall ⟨i, task⟩ .idle refusal put) := by
  have hask : fs.permits.ask ⟨i, task⟩ = (.refused, fs.permits) := if_pos h.closed
  rw [Fetches.proceedCall, hask]
  refine ⟨p, _, hdoomed, ?_, fun t ht => ?_, apart_modify fs i _⟩
  · refine Fetch.left_le_of_way (fun hbase => ⟨hdrawing hbase, ?_⟩) ?_
    · rw [← hbase, hidle]
      exact Nat.succ_pos _
    · rw [hput, if_pos rfl]
      exact Nat.zero_le _
  · exact Fetch.left_congr (by rw [hput, if_neg ht]) p false

/-- A task that may fail without harm asks for a permit, or is over already. -/
theorem Doomed.optional {α : Type} (h : fs.Doomed i p f) (task : Task) (htask : task ≠ .base)
    {stage : Stage α} {refusal : α} (hstage : stage.IsRefused refusal)
    (hplain : f.stage task = stage.plain) {put : Stage α → Fetch → Fetch}
    (hput : ∀ t, (put (.ended refusal) f).stage t = if t = task then .ended () else f.stage t)
    (hdoomed : (fs.modify i (put (.ended refusal))).Doomed i p (put (.ended refusal) f)) :
    fs.Wanes i task p f (fs.proceedCall ⟨i, task⟩ stage refusal put) := by
  rcases hstage with rfl | rfl
  · exact h.ask task (fun he => absurd he htask) hplain hput hdoomed
  · apply h.stay
    cases task with
    | base => contradiction
    | balance => rw [Fetch.left, hplain]; rfl
    | pillars => rw [Fetch.left, hplain]; rfl

theorem Doomed.fly (h : fs.Doomed i p f) (now : Nat) (hdrawing : p.isDrawing = false) :
    fs.Wanes i .base p f (fs.onFlights (fs.flights.proceed SharedStore.store now i)) := by
  obtain ⟨key, hat⟩ := h.flight
  obtain ⟨q, hq, hdoomed, hway, hcache, hapart⟩ :=
    Flights.proceed_of_isShut h.cache now h.lone hat h.doomed hdrawing
  have hidle := h.undrawn hdrawing
  refine ⟨q, f, ⟨hcache, h.closed, ⟨key, hq⟩, hdoomed, h.lone.of_apart hapart, h.fetch, h.kept,
    h.base, fun _ => hidle, h.balance, h.pillars⟩, ?_, ?_, hapart, fun _ _ => rfl⟩
  · simp only [Fetch.left, Fetch.stage, hidle, hdrawing, Bool.false_eq_true, if_false]
    refine Nat.le_trans (Nat.le_of_eq ?_) hway
    cases q.isDrawing <;> rfl
  · rintro (_ | _ | _) ht
    · contradiction
    · rfl
    · rfl

theorem Doomed.conclude (h : fs.Doomed i p f) (now : Nat) (hdrawing : p.isDrawing = true) :
    fs.Wanes i .base p f
      ((fs.onFlights (fs.flights.conclude now i (.error Fetch.unserved))).modify i
        (putBase .idle)) := by
  obtain ⟨key, hat⟩ := h.flight
  obtain ⟨hdone, hcache, hapart⟩ := Flights.conclude_of_isShut h.cache now hat hdrawing
  refine ⟨_, _, ⟨hcache, h.closed, ⟨key, hdone⟩, rfl, h.lone.of_apart hapart,
    getElem?_modify_self (fs.onFlights _) h.fetch _, h.kept, .inl rfl, fun _ => rfl, h.balance,
    h.pillars⟩, ?_, ?_, hapart, (apart_modify _ i _).2⟩
  · -- The drawing counts for more than its end.
    have hway : p.way = 2 := by cases p <;> first | rfl | contradiction
    simp only [Fetch.left, hdrawing, hway, if_true]
    exact Nat.zero_le _
  · rintro (_ | _ | _) ht
    · contradiction
    · rfl
    · rfl

/-- **A task takes one of the steps that it may still take**, and none of them is a call. -/
theorem Doomed.proceed (h : fs.Doomed i p f) (now : Nat) (task : Task) :
    fs.Wanes i task p f (fs.proceed SharedStore.store now i task) := by
  have hmodify : ∀ g : Fetch → Fetch, (fs.modify i g).fetches[i]? = some (g f) :=
    getElem?_modify_self fs h.fetch
  rw [Fetches.proceed, h.fetch]
  simp only [h.kept, Bool.false_eq_true, if_false, h.phase]
  cases task with
  | balance =>
      refine h.optional .balance (by rintro ⟨⟩) h.balance rfl ?_ ?_
      · rintro (_ | _ | _) <;> rfl
      · exact ⟨h.cache, h.closed, h.flight, h.doomed, h.lone, hmodify _, h.kept, h.base, h.undrawn,
          .inr rfl, h.pillars⟩
  | pillars =>
      refine h.optional .pillars (by rintro ⟨⟩) h.pillars rfl ?_ ?_
      · rintro (_ | _ | _) <;> rfl
      · exact ⟨h.cache, h.closed, h.flight, h.doomed, h.lone, hmodify _, h.kept, h.base, h.undrawn,
          h.balance, .inr rfl⟩
  | base =>
      rcases hdrawing : p.isDrawing with _ | _
      · exact h.fly now hdrawing
      rcases h.base with hidle | hended
      · simp only [hidle]
        refine h.ask .base (fun _ => hdrawing) (by simp only [Fetch.stage, hidle]; rfl) ?_ ?_
        · rintro (_ | _ | _) <;> rfl
        · exact ⟨h.cache, h.closed, h.flight, h.doomed, h.lone, hmodify _, h.kept, .inr rfl,
            fun hp => absurd (hp.symm.trans hdrawing) Bool.false_ne_true, h.balance, h.pillars⟩
      · simp only [hended]
        exact h.conclude now hdrawing

theorem Doomed.isCalling (h : fs.Doomed i p f) (task : Task) : fs.isCalling i task = false := by
  have hrefused : ∀ {α : Type} {refusal : α} {s : Stage α}, s.IsRefused refusal →
      s.isCalling = false := by
    rintro α refusal s (rfl | rfl) <;> rfl
  rw [Fetches.isCalling, h.fetch]
  cases task with
  | base => exact hrefused h.base
  | balance => exact hrefused h.balance
  | pillars => exact hrefused h.pillars

/-- **A fetch whose tasks take no more steps has failed.** -/
theorem Doomed.outcome (h : fs.Doomed i p f) (hleft : ∀ t, f.left p false t = 0) :
    p = .done (.error Fetch.unserved) ∧ fs.outcome? i = some (.error Fetch.unserved) := by
  have hdone : p = .done (.error Fetch.unserved) := by
    have hway := (Nat.add_eq_zero_iff.mp (hleft .base)).1
    have hdoomed := h.doomed
    cases p with
    | done outcome => rw [show outcome = _ from hdoomed]
    | cancelled => exact hdoomed.elim
    | _ => cases hway
  obtain ⟨balance, hbalance⟩ := Stage.result?_of_way (hleft .balance)
  obtain ⟨pillars, hpillars⟩ := Stage.result?_of_way (hleft .pillars)
  refine ⟨hdone, ?_⟩
  rw [outcome?, h.fetch]
  simp only [h.phase, hdone, Flight.Phase.outcome?, hbalance, hpillars]

theorem tended_proceed {σ : Type} (S : Store σ) {fs : Fetches σ} (h : fs.flights.board.Tended)
    (now i : Nat) (task : Task) : (fs.proceed S now i task).flights.board.Tended := by
  rcases flights_step S now fs (.proceed i task) with hsame | ⟨move, -, hstep⟩
  · rw [show (fs.proceed S now i task).flights = fs.flights from hsame]
    exact h
  · rw [show (fs.proceed S now i task).flights = fs.flights.step S now move from hstep]
    exact h.step (fs.flights.step_board S now move)

end Fetches

/-! ## Orders that fail -/

namespace Service

variable {ε : Type} {E : Engine ε} {s s' : Service SharedStore ε} {i n k : Nat} {e : ε}
  {p : Flight.Phase} {f : Fetch}

/-- A fetch has moved on, and so may have the clock; all else is as it was. -/
structure Apart (i : Nat) (s s' : Service SharedStore ε) : Prop where
  fetches : s.pipeline.fetches.Apart i s'.pipeline.fetches
  engine : s'.pipeline.engine = s.pipeline.engine
  calls : s'.calls = s.calls
  jobs : s'.jobs = s.jobs
  tended : s.pipeline.fetches.flights.board.Tended → s'.pipeline.fetches.flights.board.Tended

theorem Apart.refl (s : Service SharedStore ε) : s.Apart i s := ⟨.refl _, rfl, rfl, rfl, id⟩

theorem Apart.trans {s'' : Service SharedStore ε} (h : s.Apart i s') (h' : s'.Apart i s'') :
    s.Apart i s'' where
  fetches := h.fetches.trans h'.fetches
  engine := h'.engine.trans h.engine
  calls := h'.calls.trans h.calls
  jobs := h'.jobs.trans h.jobs
  tended := h'.tended ∘ h.tended

theorem advance_of_doomed (E : Engine ε) (h : s.pipeline.fetches.Doomed i p f)
    (profile : Profile) (task : Task) :
    ∃ q g, (s.advance SharedStore.store E profile i task).pipeline.fetches.Doomed i q g ∧
      g.left q false task ≤ f.left p false task - 1 ∧
      (∀ t, t ≠ task → g.left q false t = f.left p false t) ∧
      s.Apart i (s.advance SharedStore.store E profile i task) := by
  obtain ⟨q, g, hg, hleft, hothers, hapart⟩ := h.proceed s.pipeline.clock task
  rw [advance, if_neg (Bool.eq_false_iff.mp (h.isCalling task))]
  exact ⟨q, g, hg, hleft, hothers, hapart, rfl, rfl, rfl,
    fun ht => Fetches.tended_proceed SharedStore.store ht s.pipeline.clock i task⟩

theorem settle_of_doomed (E : Engine ε) (h : s.pipeline.fetches.Doomed i p f) (profile : Profile)
    (task : Task) :
    ∃ q g, (s.settle SharedStore.store E profile i task).pipeline.fetches.Doomed i q g ∧
      g.left q false task = 0 ∧ (∀ t, t ≠ task → g.left q false t = f.left p false t) ∧
      s.Apart i (s.settle SharedStore.store E profile i task) := by
  have hsteps : ∀ n, ∃ q g,
      (Nat.repeat (advance SharedStore.store E profile i task) n s).pipeline.fetches.Doomed i q g ∧
        g.left q false task ≤ 10 - n ∧ (∀ t, t ≠ task → g.left q false t = f.left p false t) ∧
        s.Apart i (Nat.repeat (advance SharedStore.store E profile i task) n s) := by
    intro n
    induction n with
    | zero => exact ⟨p, f, h, f.left_le p false task, fun _ _ => rfl, .refl s⟩
    | succ n ih =>
        obtain ⟨q, g, hg, hleft, hothers, hapart⟩ := ih
        obtain ⟨q', g', hg', hleft', hothers', hapart'⟩ := advance_of_doomed E hg profile task
        refine ⟨q', g', hg', Nat.le_trans hleft' (by omega), fun t ht => ?_,
          hapart.trans hapart'⟩
        rw [hothers' t ht, hothers t ht]
  obtain ⟨q, g, hg, hleft, hothers, hapart⟩ := hsteps longestWay
  rw [Service.settle]
  exact ⟨q, g, hg, Nat.le_zero.mp hleft, hothers, hapart⟩

theorem tasks_of_doomed (E : Engine ε) (h : s.pipeline.fetches.Doomed i p f) (profile : Profile)
    (tasks : List Task) :
    ∃ q g, (tasks.foldl (fun s task => s.settle SharedStore.store E profile i task)
        s).pipeline.fetches.Doomed i q g ∧
      (∀ t, t ∈ tasks ∨ f.left p false t = 0 → g.left q false t = 0) ∧
      s.Apart i (tasks.foldl (fun s task => s.settle SharedStore.store E profile i task) s) := by
  induction tasks generalizing s p f with
  | nil => exact ⟨p, f, h, fun t ht => ht.resolve_left List.not_mem_nil, .refl s⟩
  | cons task tasks ih =>
      obtain ⟨q, g, hg, hleft, hothers, hapart⟩ := settle_of_doomed E h profile task
      obtain ⟨q', g', hg', hall, hapart'⟩ := ih hg
      rw [List.foldl_cons]
      refine ⟨q', g', hg', fun t ht => hall t ?_, hapart.trans hapart'⟩
      by_cases he : t = task
      · exact .inr (he ▸ hleft)
      · rw [hothers t he]
        exact ht.imp_left fun hmem => (List.mem_cons.mp hmem).resolve_left he

/-- The phase of the flight of an order once the first ones have failed. -/
def phaseOf (failed j : Nat) : Flight.Phase :=
  if j < failed then .done (.error Fetch.unserved) else .called

/-- Some orders after the shutdown, of which the first ones have failed and the others are
still as they came in. -/
structure Refused (n : Nat) (e : ε) (k : Nat) (s : Service SharedStore ε) : Prop where
  cache : s.pipeline.fetches.flights.cache.IsShut
  closed : s.pipeline.fetches.permits.closed = true
  tended : s.pipeline.fetches.flights.board.Tended
  engine : s.pipeline.engine = e
  flights : ∀ j, j < n → ∃ key,
    s.pipeline.fetches.flights.flights[j]? = some ⟨key, phaseOf k j⟩
  others : ∀ j, n ≤ j → s.pipeline.fetches.flights.flights[j]? = none
  fetches : ∀ j, k ≤ j → j < n → s.pipeline.fetches.fetches[j]? = some {}
  length : s.jobs.length = n
  results : ∀ j job, s.jobs[j]? = some job →
    job.result = if j < k then some (.error Fetch.unserved) else none

theorem Refused.phase_eq (h : s.Refused n e k) {j : Nat} {flight : Flight}
    (hf : s.pipeline.fetches.flights.flights[j]? = some flight) : flight.phase = phaseOf k j := by
  rcases Nat.lt_or_ge j n with hlt | hge
  · obtain ⟨key, hkey⟩ := h.flights j hlt
    rw [← Option.some.inj (hkey.symm.trans hf)]
  · rw [h.others j hge] at hf
    contradiction

theorem Refused.doomed (h : s.Refused n e k) (hk : k < n) :
    s.pipeline.fetches.Doomed k .called {} := by
  have hflight := h.flights k hk
  rw [phaseOf, if_neg (Nat.lt_irrefl k)] at hflight
  refine ⟨h.cache, h.closed, hflight, trivial, ?_, h.fetches k (Nat.le_refl k) hk, rfl, .inl rfl,
    fun _ => rfl, .inl rfl, .inl rfl⟩
  intro j f _ hf
  rw [h.phase_eq hf, phaseOf]
  split <;> rfl

theorem Refused.inflight_eq_empty (h : s.Refused n e n) :
    s.pipeline.fetches.flights.cache.layer.inflight = .empty := by
  apply Table.eq_empty_of_get?
  intro key
  rcases hr : s.pipeline.fetches.flights.cache.layer.inflight.get? key with _ | cell
  · rfl
  · obtain ⟨j, p, hat, hp⟩ := h.tended.joined hr
    have hlt : j < n := by
      by_contra hge
      have hnone := h.others j (Nat.le_of_not_lt hge)
      rw [show s.pipeline.fetches.flights.flights[j]? = some ⟨key, p⟩ from hat] at hnone
      contradiction
    have hphase : p = phaseOf n j := h.phase_eq hat
    rw [hphase, phaseOf, if_pos hlt] at hp
    contradiction

/-- **The order that is visited fails**, and its fetch leaves nothing behind. -/
theorem Refused.visit (E : Engine ε) (h : s.Refused n e k) (hk : k < n) :
    (s.visit SharedStore.store E k).Refused n e (k + 1) := by
  obtain ⟨job, hjob⟩ : ∃ job, s.jobs[k]? = some job :=
    ⟨_, List.getElem?_eq_getElem (h.length ▸ hk)⟩
  have hnone := h.results k job hjob
  rw [if_neg (Nat.lt_irrefl k)] at hnone
  obtain ⟨q, g, hdoomed, hleft, hapart⟩ :=
    tasks_of_doomed E (h.doomed hk) job.order.profile s.tasks
  obtain ⟨rfl, houtcome⟩ := hdoomed.outcome fun t => hleft t (.inl (s.mem_tasks t))
  simp only [Service.visit, hjob, hnone, Option.isSome_none, Bool.false_eq_true, if_false]
  generalize s.tasks.foldl _ s = s' at *
  simp only [houtcome]
  refine ⟨hdoomed.cache, hdoomed.closed, hapart.tended h.tended, hapart.engine.trans h.engine,
    fun j hj => ?_, fun j hj => ?_, fun j hkj hj => ?_, ?_, fun j job' hjob' => ?_⟩
  · by_cases hjk : j = k
    · rw [hjk, phaseOf, if_pos (Nat.lt_succ_self k)]
      exact hdoomed.flight
    · have hsame : phaseOf (k + 1) j = phaseOf k j := by
        have hiff : j < k + 1 ↔ j < k := by omega
        simp only [phaseOf, hiff]
      obtain ⟨key, hkey⟩ := h.flights j hj
      exact ⟨key, (hapart.fetches.1 j hjk).trans (hsame ▸ hkey)⟩
  · exact (hapart.fetches.1 j (by omega)).trans (h.others j hj)
  · exact (hapart.fetches.2 j (by omega)).trans (h.fetches j (by omega) hj)
  · rw [note, hapart.jobs, List.length_modify]
    exact h.length
  · rw [note, hapart.jobs, List.getElem?_modify] at hjob'
    obtain ⟨job₀, hjob₀, rfl⟩ := Option.map_eq_some_iff.mp hjob'
    by_cases hkj : k = j
    · rw [if_pos hkj, if_pos (by omega)]
    · have hiff : j < k + 1 ↔ j < k := by omega
      simp only [if_neg hkj, hiff]
      exact h.results j job₀ hjob₀

/-- **The first round refuses all orders**, and there is no second one. -/
theorem Refused.run (E : Engine ε) (h : s.Refused n e 0) (fuel : Nat) :
    (Service.run SharedStore.store E (fuel + 1) s).Refused n e n := by
  have hvisits : ∀ k, k ≤ n →
      ((List.range k).foldl (Service.visit SharedStore.store E) s).Refused n e k := by
    intro k hk
    induction k with
    | zero => exact h
    | succ k ih =>
        rw [List.range_succ, List.foldl_append]
        exact (ih (by omega)).visit E hk
  have hround : (s.round SharedStore.store E).Refused n e n := by
    have hall := hvisits n (Nat.le_refl n)
    rw [← h.length] at hall
    rw [← h.length]
    exact ⟨hall.cache, hall.closed, hall.tended, hall.engine, hall.flights, hall.others,
      hall.fetches, hall.length, hall.results⟩
  have hnobody : (s.round SharedStore.store E).unanswered = [] := by
    rw [unanswered, List.filter_eq_nil_iff]
    intro j hj
    have hlt := List.mem_range.mp hj
    have hresult := hround.results j _ (List.getElem?_eq_getElem hlt)
    rw [if_pos (hround.length ▸ hlt)] at hresult
    rw [List.getElem?_eq_getElem hlt, Option.bind_some, hresult]
    exact Bool.false_ne_true
  rw [Service.run]
  simp only [hnobody, List.isEmpty_nil, if_true]
  exact hround

end Service

/-! ## Pipelines that are shut down -/

namespace Pipeline

variable {ε : Type} {E : Engine ε} {q : Pipeline SharedStore ε} {e : ε}

structure IsIdle {σ : Type} (q : Pipeline σ ε) : Prop where
  flights : q.fetches.flights.flights = []
  fetches : q.fetches.fetches = []

/-- A pipeline after its shutdown: it keeps nothing, gives no permits, and serves nobody. -/
structure IsShut (e : ε) (q : Pipeline SharedStore ε) : Prop where
  cache : q.cache.IsShut
  inflight : q.cache.layer.inflight = .empty
  closed : q.fetches.permits.closed = true
  engine : q.engine = e
  idle : q.IsIdle

theorem IsIdle.shutdown (h : q.IsIdle) : (q.shutdown SharedStore.store).IsShut q.engine :=
  ⟨Cache.isShut_shutdown _, rfl, rfl, rfl, h.flights, h.fetches⟩

theorem arrive_eq {σ : Type} (S : Store σ) (q : Pipeline σ ε) (orders : List Order) :
    ∃ clock, orders.foldl (startFetch S) q = { q with
      fetches := { q.fetches with
        flights := { q.fetches.flights with
          flights := q.fetches.flights.flights
            ++ (Order.keys q.shape orders).map fun key => ⟨key, .called⟩ }
        fetches := q.fetches.fetches ++ orders.map fun _ => {} }
      clock } := by
  induction orders generalizing q with
  | nil =>
      refine ⟨q.clock, ?_⟩
      simp [Order.keys]
  | cons o orders ih =>
      obtain ⟨clock, hclock⟩ := ih (q.startFetch S o)
      refine ⟨clock, ?_⟩
      rw [List.foldl_cons, hclock]
      simp [startFetch, Pipeline.step, Fetches.step, Flights.step, Order.keys]

theorem IsShut.arrive (h : q.IsShut e) (orders : List Order) :
    (q.arrive SharedStore.store orders).Refused orders.length e 0 := by
  obtain ⟨clock, hclock⟩ := arrive_eq SharedStore.store q orders
  rw [h.idle.flights, h.idle.fetches, List.nil_append, List.nil_append] at hclock
  have hphase : ∀ j, Service.phaseOf 0 j = .called := fun j => if_neg (Nat.not_lt_zero j)
  rw [Pipeline.arrive, hclock]
  refine ⟨h.cache, h.closed, ⟨fun hr => ?_⟩, h.engine, fun j hj => ?_, fun j hj => ?_,
    fun j _ hj => ?_, List.length_map _, fun j job hjob => ?_⟩
  · rw [show Board.inflight _ = .empty from h.inflight] at hr
    contradiction
  · refine ⟨Cache.key orders[j].profile q.shape, ?_⟩
    simp [Order.keys, hphase, List.getElem?_eq_getElem hj]
  · simp [Order.keys, hj]
  · simp [hj]
  · rw [List.getElem?_map] at hjob
    obtain ⟨o, -, rfl⟩ := Option.map_eq_some_iff.mp hjob
    rfl

theorem IsShut.serveAll (E : Engine ε) (h : q.IsShut e) (orders : List Order) :
    (q.serveAll SharedStore.store E orders).1
        = List.replicate orders.length (.error Fetch.unserved) ∧
      (q.serveAll SharedStore.store E orders).2.IsShut e := by
  have hover : (q.service SharedStore.store E orders).Refused orders.length e orders.length :=
    (h.arrive orders).run E (16 * orders.length + 15)
  constructor
  · rw [results_serveAll, List.eq_replicate_iff]
    refine ⟨by rw [List.length_map, hover.length], fun r hr => ?_⟩
    obtain ⟨job, hjob, rfl⟩ := List.mem_map.mp hr
    obtain ⟨j, hj⟩ := List.mem_iff_getElem?.mp hjob
    have hlt := (List.getElem?_eq_some_iff.mp hj).1
    have hresult := hover.results j job hj
    rw [if_pos (hover.length ▸ hlt)] at hresult
    rw [Service.resultOf, hresult]
    rfl
  · exact ⟨hover.cache, hover.inflight_eq_empty, hover.closed, hover.engine, rfl, rfl⟩

def refusal (o : Order) : Except Failure Report :=
  .error <|
    if o.reference.isBefore o.profile.birthDate then
      .invalidProfile (.referenceBeforeBirth o.reference o.profile.birthDate)
    else Fetch.unserved

/-- Orders for a day before the birth are refused for that, and all others as they were. -/
theorem assemble_refused (orders : List Order) :
    assemble (orders.map accept) (List.replicate
        ((orders.map accept).filterMap Except.toOption).length (.error Fetch.unserved))
      = orders.map refusal := by
  induction orders with
  | nil => rfl
  | cons o orders ih =>
      rw [List.map_cons, List.map_cons, accept_eq, refusal]
      rcases hbefore : o.reference.isBefore o.profile.birthDate with _ | _
      · exact congrArg (Except.error Fetch.unserved :: ·) ih
      · exact congrArg (_ :: ·) ih

/-- **Orders that come in together after the shutdown are refused**, each for its own
reason. -/
theorem IsShut.serve (E : Engine ε) (h : q.IsShut e) (orders : List Order) :
    (q.serve SharedStore.store E orders).1 = orders.map refusal ∧
      (q.serve SharedStore.store E orders).2.IsShut e := by
  obtain ⟨hresults, hshut⟩ :=
    h.serveAll E ((orders.map accept).filterMap Except.toOption)
  refine ⟨?_, hshut⟩
  rw [Pipeline.serve]
  simp only [hresults]
  exact assemble_refused orders

theorem IsShut.generate (E : Engine ε) (h : q.IsShut e) (o : Order) :
    (q.generate SharedStore.store E o).1 = refusal o ∧
      (q.generate SharedStore.store E o).2.IsShut e := by
  rcases hbefore : o.reference.isBefore o.profile.birthDate with _ | _
  · obtain ⟨hresults, hshut⟩ := h.serveAll E [o]
    rw [Pipeline.generate, accept_eq, hbefore]
    refine ⟨?_, hshut⟩
    simp only [Bool.false_eq_true, if_false, hresults, refusal, hbefore]
    rfl
  · rw [generate_of_isBefore hbefore, refusal, if_pos hbefore]
    exact ⟨rfl, h⟩

/-! ## Whole histories -/

theorem isIdle_ofSettings {σ : Type} (settings : Settings) (cache : Cache σ) (engine : ε) :
    (ofSettings settings cache engine).IsIdle := ⟨rfl, rfl⟩

theorem IsIdle.after {σ : Type} {q : Pipeline σ ε} (S : Store σ) (E : Engine ε) (h : q.IsIdle)
    (events : List Event) : (q.after S E events).IsIdle := by
  induction events generalizing q with
  | nil => exact h
  | cons event events ih =>
      refine ih ?_
      cases event with
      | wait span => exact ⟨h.flights, h.fetches⟩
      | serve orders => exact ⟨rfl, rfl⟩

theorem IsShut.after (E : Engine ε) (h : q.IsShut e) (events : List Event) :
    (q.after SharedStore.store E events).IsShut e := by
  induction events generalizing q with
  | nil => exact h
  | cons event events ih =>
      refine ih ?_
      cases event with
      | wait span =>
          exact ⟨h.cache, h.inflight, h.closed, h.engine, h.idle.flights, h.idle.fetches⟩
      | serve orders => exact (h.serve E orders).2

/-- Orders that come in one after another, each when the one before it has its result. -/
def inTurn {σ : Type} (S : Store σ) (E : Engine ε) (q : Pipeline σ ε) :
    List Order → List (Except Failure Report) × Pipeline σ ε
  | [] => ([], q)
  | o :: orders =>
    let (result, q) := q.generate S E o
    let (results, q) := q.inTurn S E orders
    (result :: results, q)

theorem IsShut.inTurn (E : Engine ε) (h : q.IsShut e) (orders : List Order) :
    (q.inTurn SharedStore.store E orders).1 = orders.map refusal ∧
      (q.inTurn SharedStore.store E orders).2.IsShut e := by
  induction orders generalizing q with
  | nil => exact ⟨rfl, h⟩
  | cons o orders ih =>
      obtain ⟨hresult, hshut⟩ := h.generate E o
      obtain ⟨hresults, hlast⟩ := ih hshut
      refine ⟨?_, hlast⟩
      rw [Pipeline.inTurn, List.map_cons, ← hresult, ← hresults]

/-- **A shutdown is final.**  Whatever a pipeline has served before, and whatever is asked of
it later, at any times, together or in turn: orders are refused, the engine, which may keep
count of its calls, is left as the shutdown finds it, and neither the local tier, nor the
cells, nor the store hold anything. -/
theorem shutdown_is_final (E : Engine ε) (settings : Settings) (cache : Cache SharedStore)
    (engine : ε) (history later : List Event) (orders : List Order) :
    let p := (ofSettings settings cache engine).after SharedStore.store E history
    let q := (p.shutdown SharedStore.store).after SharedStore.store E later
    q.IsShut p.engine ∧
      (q.serve SharedStore.store E orders).1 = orders.map refusal ∧
      (q.serve SharedStore.store E orders).2.IsShut p.engine ∧
      (q.inTurn SharedStore.store E orders).1 = orders.map refusal ∧
      (q.inTurn SharedStore.store E orders).2.IsShut p.engine := by
  intro p q
  have hidle : p.IsIdle :=
    (isIdle_ofSettings settings cache engine).after SharedStore.store E history
  have hshut : q.IsShut p.engine := hidle.shutdown.after E later
  obtain ⟨htogether, hafter⟩ := hshut.serve E orders
  obtain ⟨hinTurn, hlast⟩ := hshut.inTurn E orders
  exact ⟨hshut, htogether, hafter, hinTurn, hlast⟩

end Pipeline

end Almanac
