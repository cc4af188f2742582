import Mathlib
import Almanac.Proofs.Cache.Key
import Almanac.Proofs.Pipeline.Rounds

/-!
# A pipeline shows what its engine knows

Whatever orders a pipeline has served before, and however often its store has failed, the
next report is the one that the engine's chart gives directly, or says how the engine
failed for this very order.
-/

namespace Almanac

/-! ## Before and after a batch of orders -/

theorem Board.Valid.cleared {b : Board} (h : b.Valid) :
    Board.Valid { b with flights := [] } := by
  have nobody : ∀ {view i key cell}, ¬Board.Has { b with flights := [] } view i key cell := by
    rintro view i key cell ⟨p, hat, -⟩
    cases (show ([] : List Flight)[i]? = some ⟨key, p⟩ from hat)
  refine ⟨⟨h.owned.registered_lt, ?_, h.owned.registered_once, ?_, ?_⟩, ⟨?_⟩, ⟨?_⟩⟩
  all_goals exact fun hi => absurd hi nobody

namespace Pipeline

variable {σ ε : Type} {S : Store σ} {Holds : σ → String → ByteArray → Prop}
  {Good : String → Chart → Prop} {E : Engine ε} {shape : Ranking.Shape} {chart : String → Chart}
  {profiles : List Profile} {orders : List Order} {p : Pipeline σ ε}

/-- A pipeline between orders: what its cache holds is good, nothing is going on, and
permits are given. -/
structure Sound (Holds : σ → String → ByteArray → Prop) (Good : String → Chart → Prop)
    (shape : Ranking.Shape) (p : Pipeline σ ε) : Prop where
  flights : p.fetches.flights.Sound Holds Good
  noFlights : p.fetches.flights.flights = []
  noFetches : p.fetches.fetches = []
  given : p.fetches.permits.closed = false
  shape_eq : p.shape = shape

theorem sound_ofSettings (settings : Settings) (cacheSettings : CacheSettings) {store : σ}
    (hstore : ∀ key payload, ¬Holds store key payload) (engine : ε) :
    (ofSettings settings ⟨.ofSettings cacheSettings, store⟩ engine).Sound Holds Good
      settings.ranking := by
  have hfresh : Board.Fresh ⟨[], .empty, 0⟩ := ⟨rfl, fun _ => rfl⟩
  refine ⟨⟨⟨LocalTier.all_empty _ _, ?_⟩, hfresh.valid, ?_⟩, rfl, rfl, rfl, rfl⟩
  · exact fun key payload _ hk => absurd hk (hstore key payload)
  · intro i key phase _ hat
    cases (show ([] : List Flight)[i]? = some ⟨key, phase⟩ from hat)

def arrive (S : Store σ) (p : Pipeline σ ε) (orders : List Order) : Service σ ε where
  pipeline := orders.foldl (startFetch S) p
  jobs := orders.map fun o => ({ order := o, limit := p.deadlineFor o } : Job)

def service (S : Store σ) (E : Engine ε) (p : Pipeline σ ε) (orders : List Order) :
    Service σ ε :=
  Service.run S E (Service.enoughRounds orders.length) (p.arrive S orders)

theorem results_serveAll (S : Store σ) (E : Engine ε) (p : Pipeline σ ε) (orders : List Order) :
    (p.serveAll S E orders).1 = (p.service S E orders).jobs.map Service.resultOf := rfl

theorem engine_serveAll (S : Store σ) (E : Engine ε) (p : Pipeline σ ε) (orders : List Order) :
    (p.serveAll S E orders).2.engine = (p.service S E orders).pipeline.engine := rfl

theorem fetches_arrive (hS : S.Faithful Holds) (orders : List Order) {keys : List String}
    {Known : Nat → Fetches.Answer → Prop} (h : p.fetches.Sound Holds Good Known keys) :
    (orders.foldl (startFetch S) p).fetches.Sound Holds Good Known
        (keys ++ Order.keys p.shape orders) ∧
      (orders.foldl (startFetch S) p).engine = p.engine ∧
      (orders.foldl (startFetch S) p).shape = p.shape := by
  induction orders generalizing p keys with
  | nil => exact ⟨(List.append_nil keys).symm ▸ h, rfl, rfl⟩
  | cons o orders ih =>
      have hfetch : (p.startFetch S o).fetches.Sound Holds Good Known
          (keys ++ [Cache.key o.profile p.shape]) := h.fetch hS p.clock _
      obtain ⟨hfetches, hengine, hshape⟩ := ih hfetch
      refine ⟨?_, hengine, hshape⟩
      rw [List.append_assoc] at hfetches
      exact hfetches

@[simp]
theorem calls_arrive (S : Store σ) (p : Pipeline σ ε) (orders : List Order) :
    (p.arrive S orders).calls = [] := rfl

theorem Sound.arrive (hS : S.Faithful Holds) (h : p.Sound Holds Good shape)
    (orders : List Order) :
    (p.arrive S orders).Sound Holds Good E shape orders p.engine := by
  have hnone : p.fetches.Sound Holds Good (fun i a => (i, a) ∈ ([] : Log)) [] := by
    refine ⟨h.flights, ?_, ?_, ?_, h.given⟩
    · intro i f hf
      rw [h.noFetches] at hf
      contradiction
    · intro i key e hat
      rw [Board.IsAt, show p.fetches.flights.board.flights = [] from h.noFlights] at hat
      contradiction
    · rw [Board.keys, show p.fetches.flights.board.flights = [] from h.noFlights]
      rfl
  obtain ⟨hfetches, hengine, hshape⟩ := fetches_arrive hS orders hnone
  refine ⟨[], ?_, ?_, hshape.trans h.shape_eq, ?_, by simp, ?_⟩
  · rw [← h.shape_eq]
    exact hfetches
  · rw [show (p.arrive S orders).pipeline.engine = p.engine from hengine]
    exact .none
  · simp only [Pipeline.arrive, List.map_map, Function.comp_def, List.map_id']
  · intro i j r hj hr
    rw [Pipeline.arrive, List.getElem?_map] at hj
    obtain ⟨o, -, rfl⟩ := Option.map_eq_some_iff.mp hj
    contradiction

/-- Once orders have been served, the pipeline is sound again, and its engine has come
there by their calls. -/
theorem Sound.serveAll (hS : S.Faithful Holds) (h : p.Sound Holds Good shape)
    (hE : Service.Trustworthy Good E shape orders p.engine) :
    (p.serveAll S E orders).2.Sound Holds Good shape ∧
      E.Reaches p.engine (p.serveAll S E orders).2.engine := by
  obtain ⟨log, hlog⟩ :=
    (h.arrive hS orders (E := E)).run hS hE (Service.enoughRounds orders.length)
  have hflights := hlog.fetches.flights
  refine ⟨⟨⟨hflights.cache, hflights.valid.cleared, ?_⟩, rfl, rfl, hlog.fetches.given,
    hlog.shape_eq⟩, hlog.calls.reaches⟩
  intro i key phase _ hat
  cases (show ([] : List Flight)[i]? = some ⟨key, phase⟩ from hat)

/-! ## The charts of an engine -/

/-- Charts with periods, each the one of the profiles that have its key. -/
def GoodFor (chart : String → Chart) (profiles : List Profile) (shape : Ranking.Shape)
    (key : String) (c : Chart) : Prop :=
  c.periods.isEmpty = false ∧
    ∀ p ∈ profiles, Cache.key p shape = key → c = chart p.normalized

/-- An engine with fixed charts is to be trusted with them as long as no key belongs to
two profiles. -/
theorem trustworthy_of_fixed {e : ε} (hE : E.Fixed chart e)
    (hkeys : Cache.NoCollision profiles shape) (hmem : ∀ o ∈ orders, o.profile ∈ profiles) :
    Service.Trustworthy (GoodFor chart profiles shape) E shape orders e where
  periods _ _ h := h.1
  drawn := by
    intro log e hcalls i key a c ha hdrawn hkey
    rcases a with fault | c'
    · cases hdrawn
    · rw [Fetch.drawn] at hdrawn
      split at hdrawn
      · contradiction
      · rename_i hperiods
        obtain rfl := Except.ok.inj hdrawn
        obtain ⟨o, ho, hc⟩ := hcalls.base_eq hE ha
        rw [Order.keys, List.getElem?_map, ho] at hkey
        refine ⟨Bool.eq_false_iff.mpr hperiods, fun p hp hpkey => ?_⟩
        have hsame := hkeys.normalized_eq hp (hmem o (List.mem_of_getElem? ho))
          (hpkey.trans (Option.some.inj hkey).symm)
        rw [hsame]
        exact hc

theorem mem_of_accept {o : Order} {orders : List Order}
    (h : o ∈ (orders.map accept).filterMap Except.toOption) : o ∈ orders := by
  obtain ⟨r, hr, ho⟩ := List.mem_filterMap.mp h
  obtain ⟨o', ho', rfl⟩ := List.mem_map.mp hr
  rw [accept] at ho
  split at ho
  · rw [← Option.some.inj ho]
    exact ho'
  · contradiction

/-! ## Whole histories -/

/-- What may happen to a pipeline: time passes, or orders come in together. -/
inductive Event where
  | wait (span : Nat)
  | serve (orders : List Order)

def Event.incoming : Event → List Order
  | .wait _ => []
  | .serve orders => orders

def happen (S : Store σ) (E : Engine ε) (p : Pipeline σ ε) : Event → Pipeline σ ε
  | .wait span => { p with clock := p.clock + span }
  | .serve orders => (p.serve S E orders).2

def after (S : Store σ) (E : Engine ε) (p : Pipeline σ ε) (events : List Event) :
    Pipeline σ ε :=
  events.foldl (happen S E) p

theorem Sound.happen (hS : S.Faithful Holds) (hkeys : Cache.NoCollision profiles shape)
    {event : Event} (hmem : ∀ o ∈ event.incoming, o.profile ∈ profiles)
    (h : p.Sound Holds (GoodFor chart profiles shape) shape) (hE : E.Fixed chart p.engine) :
    (p.happen S E event).Sound Holds (GoodFor chart profiles shape) shape ∧
      E.Fixed chart (p.happen S E event).engine := by
  cases event with
  -- Whatever is still fresh when it is looked up is good.
  | wait span => exact ⟨⟨h.flights, h.noFlights, h.noFetches, h.given, h.shape_eq⟩, hE⟩
  | serve orders =>
      have htrust : Service.Trustworthy (GoodFor chart profiles shape) E shape
          ((orders.map accept).filterMap Except.toOption) p.engine :=
        trustworthy_of_fixed hE hkeys fun o ho => hmem o (mem_of_accept ho)
      obtain ⟨hsound, hreach⟩ := h.serveAll hS htrust
      exact ⟨hsound, hE.later hreach⟩

theorem Sound.after (hS : S.Faithful Holds) (hkeys : Cache.NoCollision profiles shape)
    {events : List Event} (hmem : ∀ event ∈ events, ∀ o ∈ event.incoming, o.profile ∈ profiles)
    (h : p.Sound Holds (GoodFor chart profiles shape) shape) (hE : E.Fixed chart p.engine) :
    (p.after S E events).Sound Holds (GoodFor chart profiles shape) shape ∧
      E.Fixed chart (p.after S E events).engine := by
  induction events generalizing p with
  | nil => exact ⟨h, hE⟩
  | cons event events ih =>
      obtain ⟨hsound, hfixed⟩ := h.happen hS hkeys (hmem event List.mem_cons_self) hE
      exact ih (fun e he => hmem e (List.mem_cons_of_mem _ he)) hsound hfixed

/-- An order that is served alone has a result, and it is the one that was noted. -/
theorem generate_eq {o : Order} (haccept : accept o = .ok o) {r : Except Failure Report}
    {j : Job} (hjobs : (p.service S E [o]).jobs = [{ j with result := some r }]) :
    (p.generate S E o).1 = r ∧
      (p.generate S E o).2.engine = (p.service S E [o]).pipeline.engine := by
  have hresults := results_serveAll S E p [o]
  rw [hjobs] at hresults
  rw [generate, haccept]
  refine ⟨?_, engine_serveAll S E p [o]⟩
  simp only [hresults]
  rfl

theorem accept_eq (o : Order) :
    accept o = if o.reference.isBefore o.profile.birthDate = true then
      .error (.invalidProfile (.referenceBeforeBirth o.reference o.profile.birthDate))
    else .ok o := by
  rw [accept, Profile.checkReference]
  split <;> rename_i hcheck <;> split at hcheck <;> cases hcheck <;> rename_i hbefore
  · rw [if_neg hbefore]
  · rw [if_pos hbefore]

/-- An order for a day before the birth is refused, and nothing is asked for it. -/
theorem generate_of_isBefore {o : Order}
    (h : o.reference.isBefore o.profile.birthDate = true) :
    p.generate S E o
      = (.error (.invalidProfile (.referenceBeforeBirth o.reference o.profile.birthDate)), p) := by
  rw [generate, accept_eq, h]
  rfl

theorem Sound.fetches_arrive_single (S : Store σ) (h : p.Sound Holds Good shape) (o : Order) :
    (p.arrive S [o]).pipeline.fetches.fetches = [{}] := by
  rw [show (p.arrive S [o]).pipeline.fetches.fetches = p.fetches.fetches ++ [{}] from rfl,
    h.noFetches]
  rfl

theorem Sound.tidy_arrive (S : Store σ) (h : p.Sound Holds Good shape) (o : Order) :
    (p.arrive S [o]).Tidy := by
  refine ⟨?_, by simp, .nil⟩
  intro hcalling
  rw [Fetches.isCalling, h.fetches_arrive_single S o] at hcalling
  contradiction

/-- An order that is served alone is answered, or ran out of time. -/
theorem Sound.generate (hS : S.Faithful Holds) (h : p.Sound Holds Good shape) {o : Order}
    (hE : Service.Trustworthy Good E shape [o] p.engine) (haccept : accept o = .ok o) :
    (p.generate S E o).1 = .error (.deadlineExceeded (.ofMillis (p.deadlineFor o))) ∧
        p.deadlineFor o ≤ (p.service S E [o]).time ∨
      ∃ log, E.Calls [o] p.engine log (p.generate S E o).2.engine ∧
        o.Answered (Good (Cache.key o.profile shape)) shape (fun a => (0, a) ∈ log)
          (p.generate S E o).1 := by
  have hsingle : (p.arrive S [o]).Single Holds Good E shape o p.engine :=
    ⟨h.arrive hS [o], h.tidy_arrive S o⟩
  -- Three answers may come, and nothing is due yet.
  have hleft : (p.arrive S [o]).roundsLeft false < Service.enoughRounds 1 := by
    have hunspent : (p.arrive S [o]).unspent ≤ 3 := Fetches.unspent_le _ _
    have hstirred := Bool.toNat_le (p.arrive S [o]).isStirred
    rw [Service.roundsLeft, Service.enoughRounds]
    simp only [Bool.not_false, Bool.toNat_true]
    omega
  have hrun := Service.run_single (j := { order := o, limit := p.deadlineFor o }) hS hE rfl false
    hsingle rfl (fun h => by cases h) hleft
  have hlog := hsingle.sound.run hS hE (Service.enoughRounds 1)
  rw [show Service.run S E (Service.enoughRounds 1) (p.arrive S [o]) = p.service S E [o] from rfl]
    at hrun hlog
  -- The run ends with a result, and every result that is noted is well-founded.
  obtain ⟨r, hjobs, hlate⟩ := hrun
  obtain ⟨log, hlog⟩ := hlog
  obtain ⟨hr, hengine⟩ := generate_eq haccept hjobs
  rw [hr, hengine]
  have hjob := congrArg (·[0]?) hjobs
  rcases hlog.noted 0 _ r hjob rfl with he | ha
  · exact .inl ⟨he, hlate he⟩
  · exact .inr ⟨log, hlog.calls, ha⟩

/-- **A report is the one that the engine's chart gives directly**, after any orders that
were served before, at any times, over a store that may fail at any call.  A failure is
the engine's own, to this very order, unless the time of the order is used up. -/
theorem generate_eq_direct (hS : S.Faithful Holds) (settings : Settings)
    (cacheSettings : CacheSettings) {store : σ} (hstore : ∀ key payload, ¬Holds store key payload)
    {engine : ε} (hE : E.Fixed chart engine) (events : List Event) (o : Order)
    (hkeys : Cache.NoCollision ((events.flatMap Event.incoming ++ [o]).map (·.profile))
      settings.ranking)
    (hp : p = (ofSettings settings ⟨.ofSettings cacheSettings, store⟩ engine).after S E events) :
    ((∃ fault, (p.generate S E o).1 = .error (.invalidProfile fault)) ↔
        o.reference.isBefore o.profile.birthDate = true) ∧
      (o.reference.isBefore o.profile.birthDate = true → (p.generate S E o).2 = p) ∧
      (o.reference.isBefore o.profile.birthDate = false →
        (p.generate S E o).1 = .error (.deadlineExceeded (.ofMillis (p.deadlineFor o))) ∧
            p.deadlineFor o ≤ (p.service S E [o]).time ∨
          ∃ log, E.Calls [o] p.engine log (p.generate S E o).2.engine ∧
            o.Answered (· = chart o.profile.normalized) settings.ranking (fun a => (0, a) ∈ log)
              (p.generate S E o).1) := by
  rcases hbefore : o.reference.isBefore o.profile.birthDate with _ | _
  · have haccept : accept o = .ok o := by rw [accept_eq, hbefore]; rfl
    -- The keys of all orders, those before and this one, are kept apart together.
    have hall : ∀ event ∈ events, ∀ o' ∈ event.incoming,
        o'.profile ∈ (events.flatMap Event.incoming ++ [o]).map (·.profile) := by
      intro event he o' ho'
      apply List.mem_map_of_mem
      exact List.mem_append_left _ (List.mem_flatMap.mpr ⟨event, he, ho'⟩)
    obtain ⟨hsound, hfixed⟩ := Sound.after hS hkeys hall
      (sound_ofSettings settings cacheSettings hstore engine) hE
    rw [← hp] at hsound hfixed
    have hmem : o.profile ∈ (events.flatMap Event.incoming ++ [o]).map (·.profile) :=
      List.mem_map_of_mem (List.mem_append_right _ (List.mem_singleton.mpr rfl))
    have hanswer := hsound.generate hS (trustworthy_of_fixed hfixed hkeys fun o' ho => by
      rw [List.mem_singleton.mp ho]
      exact hmem) haccept
    refine ⟨⟨?_, (by cases ·)⟩, (by cases ·), fun _ => hanswer.imp_right ?_⟩
    · rintro ⟨fault, he⟩
      rw [he] at hanswer
      rcases hanswer with ⟨hlate, -⟩ | ⟨log, -, ha⟩
      · cases hlate
      · cases ha
    · rintro ⟨log, hcalls, ha⟩
      exact ⟨log, hcalls, ha.mono (fun c hc => hc.2 o.profile hmem rfl) fun _ => id⟩
  · rw [generate_of_isBefore hbefore]
    exact ⟨⟨fun _ => rfl, fun _ => ⟨_, rfl⟩⟩, fun _ => rfl, (by cases ·)⟩

theorem fixed_rehearsed (e : RehearsedEngine) :
    RehearsedEngine.engine.Fixed (fun _ => e.snapshot.chart) e := by
  have hsnapshot : ∀ e', RehearsedEngine.engine.Reaches e e' → e'.snapshot = e.snapshot := by
    intro e' hreach
    induction hreach with
    | refl => rfl
    | call before profile task ih => cases task <;> exact ih
  intro e' hreach profile c hc
  simp only [RehearsedEngine.engine, Rehearsal.call, Snapshot.base] at hc
  split at hc
  · contradiction
  · rw [← Except.ok.inj hc, hsnapshot e' hreach]

/-- An engine that fails once and then knows one chart. -/
def hesitant : RehearsedEngine where
  snapshot := { chart := ⟨⟨"", "", "", ""⟩, "", [⟨1, "", 1990, 1999, 1, 10, ""⟩], []⟩ }
  base := { failures := 1 }

def nextDay : Order where
  profile := ⟨⟨1990, 5, 15, by decide⟩, ⟨8, 30, 0, 0, by decide, by decide, by decide, by decide⟩,
    .male, .solar⟩
  reference := ⟨1990, 5, 16, by decide⟩

/-- A pipeline over a store that refuses to keep anything, some time after two orders at
once. -/
def tried : Pipeline Outage RehearsedEngine :=
  (ofSettings {} ⟨.ofSettings {}, { refused := [.set] }⟩ hesitant).after Outage.store
    RehearsedEngine.engine [.serve [nextDay, nextDay], .wait 60]

theorem generate_eq_direct_tried :
    ((∃ fault, (tried.generate Outage.store RehearsedEngine.engine nextDay).1
          = .error (.invalidProfile fault)) ↔
        nextDay.reference.isBefore nextDay.profile.birthDate = true) ∧
      (nextDay.reference.isBefore nextDay.profile.birthDate = true →
        (tried.generate Outage.store RehearsedEngine.engine nextDay).2 = tried) ∧
      (nextDay.reference.isBefore nextDay.profile.birthDate = false →
        (tried.generate Outage.store RehearsedEngine.engine nextDay).1
              = .error (.deadlineExceeded (.ofMillis (tried.deadlineFor nextDay))) ∧
            tried.deadlineFor nextDay
              ≤ (tried.service Outage.store RehearsedEngine.engine [nextDay]).time ∨
          ∃ log, RehearsedEngine.engine.Calls [nextDay] tried.engine log
              (tried.generate Outage.store RehearsedEngine.engine nextDay).2.engine ∧
            nextDay.Answered (· = hesitant.snapshot.chart) {} (fun a => (0, a) ∈ log)
              (tried.generate Outage.store RehearsedEngine.engine nextDay).1) := by
  refine generate_eq_direct Outage.faithful {} {} ?_ (fixed_rehearsed hesitant)
    [.serve [nextDay, nextDay], .wait 60] nextDay ?_ rfl
  · rintro key payload ⟨e, he, -⟩
    cases he
  · intro p hp q hq _
    have hall : ∀ p ∈ ([Event.serve [nextDay, nextDay], .wait 60].flatMap Event.incoming
        ++ [nextDay]).map (·.profile), p = nextDay.profile := by
      simp [Event.incoming]
    rw [hall p hp, hall q hq]

end Pipeline

end Almanac
