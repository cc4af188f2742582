import Mathlib
import Almanac.Pipeline.Service
import Almanac.Proofs.Fetch.Soundness
import Almanac.Proofs.Pipeline.Log
import Almanac.Proofs.Ranking.Accounts

/-!
# Sound service

Whatever is done while orders are served, every result that is noted is made of answers
that the engine gave to the order, and of a good chart (`Service.Sound`).
-/

namespace Almanac

variable {σ ε : Type}

def Order.keys (shape : Ranking.Shape) (orders : List Order) : List String :=
  orders.map fun o => Cache.key o.profile shape

namespace Service

/-! ## What stays the same -/

theorem placeCall_eq (E : Engine ε) (profile : Profile) (i : Nat) (task : Task)
    (s : Service σ ε) :
    s.placeCall E profile i task =
      { s with
        pipeline := { s.pipeline with engine := (E.call profile s.pipeline.engine task).2.2 }
        calls := s.calls ++ [⟨i, task, s.time + (E.call profile s.pipeline.engine task).1,
          (E.call profile s.pipeline.engine task).2.1⟩] } := by
  cases task <;> rfl

section

variable (S : Store σ) (E : Engine ε) (profile : Profile) (i : Nat) (task : Task)
  (s : Service σ ε)

theorem jobs_advance : (s.advance S E profile i task).jobs = s.jobs := by
  unfold advance
  split
  · split
    · rw [placeCall_eq]
    · split <;> rfl
  · rfl

theorem time_advance : (s.advance S E profile i task).time = s.time := by
  unfold advance
  split
  · split
    · rw [placeCall_eq]
    · split <;> rfl
  · rfl

theorem settle_keeps {P : Service σ ε → Prop} (h : P s)
    (hadvance : ∀ s, P s → P (s.advance S E profile i task)) :
    P (s.settle S E profile i task) := by
  rw [settle]
  -- How often the task goes on does not matter.
  generalize longestWay = n
  induction n with
  | zero => exact h
  | succ n ih => exact hadvance _ ih

end

/-- What the tasks of an order keep while they go on, they keep until all are held up. -/
theorem tasks_keep (S : Store σ) (E : Engine ε) (profile : Profile) (i : Nat)
    {P : Service σ ε → Prop} (tasks : List Task) {s : Service σ ε} (h : P s)
    (hadvance : ∀ s task, P s → P (s.advance S E profile i task)) :
    P (tasks.foldl (fun s task => s.settle S E profile i task) s) :=
  List.foldlRecOn tasks _ h fun s hs task _ =>
    settle_keeps S E profile i task s hs fun s => hadvance s task

/-! ## Soundness -/

variable {S : Store σ} {Holds : σ → String → ByteArray → Prop} {Good : String → Chart → Prop}
  {E : Engine ε} {shape : Ranking.Shape} {orders : List Order} {start : ε} {log : Log}
  {s : Service σ ε}

/-- What is known of a service whose engine has given the answers in a log. -/
structure Logged (Holds : σ → String → ByteArray → Prop) (Good : String → Chart → Prop)
    (E : Engine ε) (shape : Ranking.Shape) (orders : List Order) (start : ε) (log : Log)
    (s : Service σ ε) : Prop where
  fetches : s.pipeline.fetches.Sound Holds Good (fun i a => (i, a) ∈ log)
    (Order.keys shape orders)
  calls : E.Calls orders start log s.pipeline.engine
  shape_eq : s.pipeline.shape = shape
  orders_eq : s.jobs.map (·.order) = orders
  pending : ∀ c ∈ s.calls, (c.fetch, c.answer) ∈ log
  /-- An order that has a result ran out of time, or was answered. -/
  noted : ∀ (i : Nat) (j : Job) (r : Except Failure Report), s.jobs[i]? = some j →
    j.result = some r → r = .error (.deadlineExceeded (.ofMillis j.limit)) ∨
      j.order.Answered (Good (Cache.key j.order.profile shape)) shape (fun a => (i, a) ∈ log) r

/-- A service that is as it should be after the answers in some log. -/
def Sound (Holds : σ → String → ByteArray → Prop) (Good : String → Chart → Prop)
    (E : Engine ε) (shape : Ranking.Shape) (orders : List Order) (start : ε)
    (s : Service σ ε) : Prop :=
  ∃ log, s.Logged Holds Good E shape orders start log

/-- What good charts have to be: they have periods, and they are what the engine gives. -/
structure Trustworthy (Good : String → Chart → Prop) (E : Engine ε) (shape : Ranking.Shape)
    (orders : List Order) (start : ε) : Prop where
  periods : ∀ key chart, Good key chart → chart.periods.isEmpty = false
  drawn : ∀ log e, E.Calls orders start log e →
    Fetches.KnownGood Good (fun i a => (i, a) ∈ log) (Order.keys shape orders)

theorem Logged.order (h : s.Logged Holds Good E shape orders start log) {i : Nat} {j : Job}
    (hj : s.jobs[i]? = some j) : orders[i]? = some j.order := by
  rw [← h.orders_eq, List.getElem?_map, hj]
  rfl

theorem Logged.moved (h : s.Logged Holds Good E shape orders start log) {s' : Service σ ε}
    (hfetches : s'.pipeline.fetches.Sound Holds Good (fun i a => (i, a) ∈ log)
      (Order.keys shape orders))
    (hengine : s'.pipeline.engine = s.pipeline.engine)
    (hshape : s'.pipeline.shape = s.pipeline.shape) (hjobs : s'.jobs = s.jobs)
    (hcalls : ∀ c ∈ s'.calls, c ∈ s.calls) : s'.Logged Holds Good E shape orders start log where
  fetches := hfetches
  calls := hengine ▸ h.calls
  shape_eq := hshape.trans h.shape_eq
  orders_eq := hjobs ▸ h.orders_eq
  pending c hc := h.pending c (hcalls c hc)
  noted := hjobs ▸ h.noted

theorem Logged.placeCall (h : s.Logged Holds Good E shape orders start log) {i : Nat} {o : Order}
    (ho : orders[i]? = some o) (task : Task) :
    (s.placeCall E o.profile i task).Sound Holds Good E shape orders start := by
  rw [placeCall_eq]
  refine ⟨_, ?_, .call h.calls ho task, ?_, ?_, ?_, ?_⟩
  · exact h.fetches.mono fun _ _ hm => List.mem_append_left _ hm
  · exact h.shape_eq
  · exact h.orders_eq
  · intro c hc
    rcases List.mem_append.mp hc with hc | hc
    · exact List.mem_append_left _ (h.pending c hc)
    · rw [List.mem_singleton.mp hc]
      exact List.mem_append_right _ (List.mem_singleton.mpr rfl)
  · intro k j r hj hr
    refine (h.noted k j r hj hr).imp_right fun ha => ha.mono (fun _ => id) fun _ hm => ?_
    exact List.mem_append_left _ hm

theorem Sound.advance (hS : S.Faithful Holds) (hE : Trustworthy Good E shape orders start)
    (h : s.Sound Holds Good E shape orders start) {i : Nat} {o : Order}
    (ho : orders[i]? = some o) (task : Task) :
    (s.advance S E o.profile i task).Sound Holds Good E shape orders start := by
  obtain ⟨log, h⟩ := h
  have hgood := hE.drawn log _ h.calls
  unfold Service.advance
  split
  · split
    · exact h.placeCall ho task
    · rename_i c hc
      have hof : c.fetch = i := by
        have := List.find?_some hc
        simp only [isOf, Bool.and_eq_true, beq_iff_eq] at this
        exact this.1
      split
      · refine ⟨log, h.moved ?_ rfl rfl rfl fun c hc => (List.mem_filter.mp hc).1⟩
        refine h.fetches.step (m := .answer i c.answer) hS hgood s.pipeline.clock (by simp)
          (by simp) ?_
        rintro k a he
        cases he
        exact hof ▸ h.pending c (List.mem_of_find?_eq_some hc)
      · exact ⟨log, h⟩
  · have hfetches := h.fetches.step (m := .proceed i task) hS hgood s.pipeline.clock (by simp)
      (by simp) (by simp)
    exact ⟨log, h.moved hfetches rfl rfl rfl fun _ => id⟩

/-- A result may be noted if the order ran out of time, or is answered by it. -/
theorem Logged.note (h : s.Logged Holds Good E shape orders start log) {i : Nat}
    {result : Except Failure Report}
    (hresult : ∀ j : Job, s.jobs[i]? = some j →
      result = .error (.deadlineExceeded (.ofMillis j.limit)) ∨
        j.order.Answered (Good (Cache.key j.order.profile shape)) shape (fun a => (i, a) ∈ log)
          result) :
    (s.note i result).Logged Holds Good E shape orders start log where
  fetches := h.fetches
  calls := h.calls
  shape_eq := h.shape_eq
  orders_eq := by
    rw [← h.orders_eq]
    refine List.ext_getElem? fun k => ?_
    simp only [Service.note, List.getElem?_map, List.getElem?_modify]
    rcases s.jobs[k]? with _ | j
    · rfl
    · simp only [Option.map_some, Option.map_eq_map]
      split <;> rfl
  pending := h.pending
  noted := by
    intro k j r hj hr
    rw [Service.note, List.getElem?_modify] at hj
    obtain ⟨j', hj', rfl⟩ := Option.map_eq_some_iff.mp hj
    split at hr
    · rename_i hik
      subst hik
      obtain rfl := Option.some.inj hr
      simp only [if_true]
      exact hresult j' hj'
    · rename_i hik
      simp only [if_neg hik]
      exact h.noted k j' r hj' hr

/-! ## Visits and rounds -/

theorem Sound.tasks (hS : S.Faithful Holds) (hE : Trustworthy Good E shape orders start)
    (h : s.Sound Holds Good E shape orders start) {i : Nat} {o : Order}
    (ho : orders[i]? = some o) (tasks : List Task) :
    (tasks.foldl (fun s task => s.settle S E o.profile i task) s).Sound Holds Good E shape orders
      start :=
  tasks_keep S E o.profile i tasks h fun _ task hs => hs.advance hS hE ho task

theorem jobs_tasks (S : Store σ) (E : Engine ε) (profile : Profile) (i : Nat) (tasks : List Task)
    (s : Service σ ε) :
    (tasks.foldl (fun s task => s.settle S E profile i task) s).jobs = s.jobs :=
  tasks_keep S E profile i tasks (P := fun s' => s'.jobs = s.jobs) rfl fun s' task hs =>
    (jobs_advance S E profile i task s').trans hs

theorem time_tasks (S : Store σ) (E : Engine ε) (profile : Profile) (i : Nat) (tasks : List Task)
    (s : Service σ ε) :
    (tasks.foldl (fun s task => s.settle S E profile i task) s).time = s.time :=
  tasks_keep S E profile i tasks (P := fun s' => s'.time = s.time) rfl fun s' task hs =>
    (time_advance S E profile i task s').trans hs

theorem Logged.answered (h : s.Logged Holds Good E shape orders start log)
    (hE : Trustworthy Good E shape orders start) {i : Nat} {o : Order}
    (ho : orders[i]? = some o) {outcome : Except Failure Bundle}
    (houtcome : s.pipeline.fetches.outcome? i = some outcome) :
    o.Answered (Good (Cache.key o.profile shape)) shape (fun a => (i, a) ∈ log)
      (match outcome with
        | .ok bundle => s.pipeline.report o bundle
        | .error e => .error e) := by
  have hkey : (Order.keys shape orders)[i]? = some (Cache.key o.profile shape) := by
    rw [Order.keys, List.getElem?_map, ho]
    rfl
  have hgets := h.fetches.gets hE.periods hkey houtcome
  cases outcome with
  | error e =>
      obtain ⟨a, ha, hdrawn⟩ := hgets
      exact .of_drawn ha hdrawn
  | ok bundle =>
      obtain ⟨hgood, ⟨balance, hbalance, heb⟩, pillars, hpillars, hep⟩ := hgets
      -- A good chart has periods, so its ranking does not fail.
      have hperiods : bundle.chart.periods ≠ [] :=
        List.isEmpty_eq_false_iff.mp (hE.periods _ _ hgood)
      obtain ⟨-, view, hrank, -⟩ :=
        Ranking.rank_eq_ok hperiods o.profile.birthDate o.reference shape
      simp only [Pipeline.report, h.shape_eq, hrank, heb, hep]
      exact .report hgood hrank hbalance hpillars

theorem Logged.noteOutcome (h : s.Logged Holds Good E shape orders start log)
    (hE : Trustworthy Good E shape orders start) {i : Nat} {j : Job} (hj : s.jobs[i]? = some j)
    {outcome : Except Failure Bundle}
    (houtcome : s.pipeline.fetches.outcome? i = some outcome) :
    (s.note i (match outcome with
      | .ok bundle => s.pipeline.report j.order bundle
      | .error e => .error e)).Logged Holds Good E shape orders start log := by
  apply h.note
  intro j' hj'
  obtain rfl := Option.some.inj (hj'.symm.trans hj)
  exact .inr (h.answered hE (h.order hj) houtcome)

theorem Sound.giveUp (hS : S.Faithful Holds) (hE : Trustworthy Good E shape orders start)
    (h : s.Sound Holds Good E shape orders start) {i : Nat} {j : Job} (hj : s.jobs[i]? = some j) :
    (s.giveUp S i (.deadlineExceeded (.ofMillis j.limit))).Sound Holds Good E shape orders
      start := by
  obtain ⟨log, h⟩ := h
  have hfetches := h.fetches.step (m := .cancel i) hS (hE.drawn log _ h.calls) s.pipeline.clock
    (by simp) (by simp) (by simp)
  -- The calls of the order are forgotten, and then its result is noted.
  have hcancelled : Logged Holds Good E shape orders start log { s with
      pipeline := s.pipeline.step S (.cancel i)
      calls := s.calls.filter fun c => c.fetch != i } :=
    h.moved hfetches rfl rfl rfl fun c hc => (List.mem_filter.mp hc).1
  refine ⟨log, hcancelled.note fun j' hj' => ?_⟩
  rw [Option.some.inj (hj'.symm.trans hj)]
  exact .inl rfl

theorem Sound.visit (hS : S.Faithful Holds) (hE : Trustworthy Good E shape orders start)
    (h : s.Sound Holds Good E shape orders start) (i : Nat) :
    (s.visit S E i).Sound Holds Good E shape orders start := by
  unfold Service.visit
  split
  · exact h
  · rename_i job hjob
    split
    · exact h
    · have ho : orders[i]? = some job.order := by
        obtain ⟨log, h⟩ := h
        exact h.order hjob
      obtain ⟨log, htasks⟩ := h.tasks hS hE ho s.tasks
      have hjob' := (jobs_tasks S E job.order.profile i s.tasks s).symm ▸ hjob
      simp only
      split
      · rename_i bundle houtcome
        exact ⟨log, htasks.noteOutcome hE hjob' houtcome⟩
      · rename_i e houtcome
        exact ⟨log, htasks.noteOutcome hE hjob' houtcome⟩
      · split
        · exact Sound.giveUp hS hE ⟨log, htasks⟩ hjob'
        · exact ⟨log, htasks⟩

theorem Sound.round (hS : S.Faithful Holds) (hE : Trustworthy Good E shape orders start)
    (h : s.Sound Holds Good E shape orders start) :
    (s.round S E).Sound Holds Good E shape orders start := by
  obtain ⟨log, h⟩ : ((List.range s.jobs.length).foldl (Service.visit S E) s).Sound Holds Good E
      shape orders start :=
    List.foldlRecOn _ _ h fun s hs i _ => hs.visit hS hE i
  exact ⟨log, h.moved h.fetches rfl rfl rfl fun _ => id⟩

theorem Sound.calmed (h : s.Sound Holds Good E shape orders start) :
    s.calmed.Sound Holds Good E shape orders start := by
  obtain ⟨log, h⟩ := h
  have hfetches := h.fetches
  refine ⟨log, h.moved ?_ rfl rfl rfl fun _ => id⟩
  exact ⟨hfetches.flights, hfetches.backed, hfetches.failed, hfetches.keys, hfetches.given⟩

/-- **A service stays sound however long it runs.** -/
theorem Sound.run (hS : S.Faithful Holds) (hE : Trustworthy Good E shape orders start)
    (fuel : Nat) (h : s.Sound Holds Good E shape orders start) :
    (Service.run S E fuel s).Sound Holds Good E shape orders start := by
  induction fuel generalizing s with
  | zero => exact h
  | succ fuel ih =>
      have hround := h.round hS hE
      rw [Service.run]
      split
      · exact hround
      · split
        · exact ih hround.calmed
        · obtain ⟨log, hround⟩ := hround
          exact ih ⟨log, hround.moved hround.fetches rfl rfl rfl fun _ => id⟩

end Service

end Almanac
