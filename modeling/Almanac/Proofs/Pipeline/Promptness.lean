import Mathlib
import Almanac.Proofs.Fetch.Alone
import Almanac.Proofs.Pipeline.Transparency

/-!
# Engines that answer at once

An order that is served alone by an engine that answers at once is complete after the first
visit: no task of it has to wait, and the steps of a visit are enough for each.  So no time
passes, and the order does not run out of it (`Pipeline.time_service`).
-/

namespace Almanac

variable {σ ε : Type}

/-- Every call is answered in the millisecond in which it is made. -/
def Engine.Instant (E : Engine ε) : Prop :=
  ∀ (profile : Profile) (e : ε) (task : Task), (E.call profile e task).1 = 0

namespace Service

variable {E : Engine ε} {s : Service σ ε} {task : Task} {p : Flight.Phase} {f : Fetch}

/-- A service of one order whose tasks go on one by one: all pending calls are those of the
task under way, and they are due. -/
structure Brisk (task : Task) (p : Flight.Phase) (f : Fetch) (s : Service σ ε) : Prop where
  alone : s.pipeline.fetches.Alone task p f
  tidy : s.Tidy
  due : ∀ c ∈ s.calls, c.task = task ∧ c.due ≤ s.time

def isPending (s : Service σ ε) : Bool := !s.calls.isEmpty

theorem Brisk.isCalling (h : s.Brisk task p f) (t : Task) :
    s.pipeline.fetches.isCalling 0 t = f.isCalling t := by
  rw [h.alone.isCalling, Fetch.isCalling_stage]

theorem Brisk.drawing (h : s.Brisk task p f) (hcalling : f.isCalling task = true) :
    task = .base → p.isDrawing = true := by
  rintro rfl
  rw [← h.alone.phase]
  apply h.tidy.drawing
  rw [h.isCalling, hcalling]

theorem Brisk.calls_eq_nil (h : s.Brisk task p f) (hcalling : f.isCalling task = false) :
    s.calls = [] := by
  rw [List.eq_nil_iff_forall_not_mem]
  intro c hc
  have hpending := (h.tidy.pending c hc).2.1
  rw [(h.due c hc).1, h.isCalling, hcalling] at hpending
  contradiction

/-- **A step of the task under way takes off one of the steps that it may still take.** -/
theorem Brisk.advance (S : Store σ) (profile : Profile) (hE : E.Instant)
    (h : s.Brisk task p f) :
    ∃ q g, (s.advance S E profile 0 task).Brisk task q g ∧
      g.left q (s.advance S E profile 0 task).isPending task
        ≤ f.left p s.isPending task - 1 ∧
      ∀ t, t ≠ task → g.left q false t = f.left p false t := by
  unfold Service.advance
  rcases hcalling : f.isCalling task with _ | _
  · -- A step without the engine.
    have hcalls := h.calls_eq_nil hcalling
    have hnot := (h.isCalling task).trans hcalling
    obtain ⟨q, g, hg, hleft, hothers⟩ := h.alone.proceed S s.pipeline.clock hcalling
    obtain ⟨key, hkey⟩ := h.alone.flights
    have htidy := (Goes.proceed h.tidy S h.alone.given.1 (by rw [hkey]; rfl) hnot).tidy
    rw [if_neg (Bool.eq_false_iff.mp hnot)]
    refine ⟨q, g, ⟨hg, htidy, h.due⟩, ?_, hothers⟩
    simp only [isPending, hcalls]
    exact hleft
  · have hyes := (h.isCalling task).trans hcalling
    rw [if_pos hyes]
    split
    · -- The call is made, and due at once.
      rename_i hnone
      have hcalls : s.calls = [] := by
        rw [List.eq_nil_iff_forall_not_mem]
        intro c hc
        have hfound := h.tidy.find?_eq hc
        rw [(h.due c hc).1, hnone] at hfound
        contradiction
      have htidy := (Goes.placeCall h.tidy E profile hyes hnone).tidy
      rw [placeCall_eq] at htidy ⊢
      refine ⟨p, f, ⟨h.alone, htidy, ?_⟩, ?_, fun _ _ => rfl⟩
      · intro c hc
        rw [hcalls, List.nil_append, List.mem_singleton] at hc
        rw [hc, hE]
        exact ⟨rfl, Nat.le_refl _⟩
      · have hway : ∀ called, (f.stage task).way called = if called then 1 else 2 := by
          intro called
          rw [Fetch.stage_of_isCalling hcalling]
          rfl
        simp only [isPending, hcalls, List.nil_append, List.isEmpty_nil, List.isEmpty_cons,
          Bool.not_true, Bool.not_false]
        refine Fetch.left_le_of_way (fun hbase => ⟨h.drawing hcalling hbase, ?_⟩) ?_
        · rw [← hbase, hway]
          exact Nat.two_pos
        · rw [hway, hway]
          exact Nat.le_refl _
    · -- The call is due, so it is answered.
      rename_i c hc
      have hmem := List.mem_of_find?_eq_some hc
      obtain ⟨htask, hdue⟩ := h.due c hmem
      obtain ⟨hfetch, -, hanswer⟩ := h.tidy.pending c hmem
      obtain ⟨g, hg, hquiet, hleft, hothers⟩ :=
        h.alone.answer (hanswer.trans htask) (h.drawing hcalling) hcalling
      have htidy := (Goes.answer h.tidy S hmem).tidy
      rw [htask] at htidy
      rw [if_pos hdue]
      have hbrisk : Brisk task p g { s with
          pipeline := s.pipeline.step S (.answer 0 c.answer)
          calls := s.calls.filter fun d => !isOf 0 task d } :=
        ⟨hg, htidy, fun d hd => h.due d (List.mem_filter.mp hd).1⟩
      have hpending : s.isPending = true := by
        rw [isPending, Bool.not_eq_true', List.isEmpty_eq_false_iff]
        exact List.ne_nil_of_mem hmem
      refine ⟨p, g, hbrisk, ?_, hothers⟩
      rw [isPending, hbrisk.calls_eq_nil hquiet, hpending]
      exact hleft

/-! ## Visits -/

theorem Brisk.settle (S : Store σ) (profile : Profile) (hE : E.Instant)
    (h : s.Brisk task p f) :
    ∃ q g, (s.settle S E profile 0 task).Brisk task q g ∧
      g.left q (s.settle S E profile 0 task).isPending task = 0 ∧
      ∀ t, t ≠ task → g.left q false t = f.left p false t := by
  have hsteps : ∀ n, ∃ q g, (Nat.repeat (Service.advance S E profile 0 task) n s).Brisk task q g ∧
      g.left q (Nat.repeat (Service.advance S E profile 0 task) n s).isPending task ≤ 10 - n ∧
      ∀ t, t ≠ task → g.left q false t = f.left p false t := by
    intro n
    induction n with
    | zero => exact ⟨p, f, h, f.left_le p _ task, fun _ _ => rfl⟩
    | succ n ih =>
        obtain ⟨q, g, hg, hleft, hothers⟩ := ih
        obtain ⟨q', g', hg', hleft', hothers'⟩ := hg.advance S profile hE
        refine ⟨q', g', hg', ?_, fun t ht => (hothers' t ht).trans (hothers t ht)⟩
        exact Nat.le_trans hleft' (by omega)
  obtain ⟨q, g, hg, hleft, hothers⟩ := hsteps longestWay
  rw [Service.settle]
  exact ⟨q, g, hg, Nat.le_zero.mp hleft, hothers⟩

/-- Once the task under way takes no more steps, any other may be the next. -/
theorem Brisk.other (h : s.Brisk task p f) (hleft : f.left p s.isPending task = 0) :
    s.calls = [] ∧ ∀ next, s.Brisk next p f := by
  have hcalling : f.isCalling task = false := by
    rw [← Fetch.isCalling_stage]
    exact Stage.isCalling_of_isQuiet (h.alone.isQuiet hleft)
  have hcalls := h.calls_eq_nil hcalling
  refine ⟨hcalls, fun next => ⟨h.alone.other hleft next, h.tidy, ?_⟩⟩
  rw [hcalls]
  exact nofun

theorem Brisk.tasks (S : Store σ) (profile : Profile) (hE : E.Instant) (tasks : List Task)
    (h : ∀ task, s.Brisk task p f) :
    ∃ q g, (∀ task, (tasks.foldl (fun s task => s.settle S E profile 0 task) s).Brisk task q g) ∧
      (∀ t, f.left p false t = 0 → g.left q false t = 0) ∧
      ∀ t ∈ tasks, g.left q false t = 0 := by
  induction tasks generalizing s p f with
  | nil => exact ⟨p, f, h, fun _ => id, nofun⟩
  | cons task tasks ih =>
      obtain ⟨q, g, hg, hleft, hothers⟩ := (h task).settle S profile hE
      obtain ⟨hcalls, hbrisk⟩ := hg.other hleft
      obtain ⟨q', g', hg', hkeep, hall⟩ := ih hbrisk
      simp only [isPending, hcalls, List.isEmpty_nil, Bool.not_true] at hleft
      rw [List.foldl_cons]
      refine ⟨q', g', hg', fun t ht => hkeep t ?_, fun t ht => ?_⟩
      · by_cases he : t = task
        · rw [he, hleft]
        · rw [hothers t he, ht]
      · by_cases he : t = task
        · rw [he]
          exact hkeep task hleft
        · exact hall t ((List.mem_cons.mp ht).resolve_left he)

/-- **The first visit answers the only order**, and takes no time. -/
theorem Brisk.round (S : Store σ) (hE : E.Instant) (h : ∀ task, s.Brisk task p f) {j : Job}
    (hjobs : s.jobs = [j]) (hnone : j.result = none) :
    (∃ r, (s.round S E).jobs = [{ j with result := some r }]) ∧
      (s.round S E).time = s.time := by
  obtain ⟨q, g, hbrisk, -, hleft⟩ :=
    Brisk.tasks S j.order.profile hE s.tasks h
  obtain ⟨outcome, houtcome⟩ := (hbrisk .base).alone.outcome fun t => hleft t (s.mem_tasks t)
  have hjobs' := (jobs_tasks S E j.order.profile 0 s.tasks s).trans hjobs
  have htime := time_tasks S E j.order.profile 0 s.tasks s
  simp only [Service.round, hjobs, List.length_singleton, List.range_one, List.foldl_cons,
    List.foldl_nil, Service.visit, List.getElem?_cons_zero, hnone, Option.isSome_none,
    Bool.false_eq_true, if_false]
  generalize s.tasks.foldl _ s = s' at *
  rw [houtcome]
  cases outcome with
  | error e =>
      refine ⟨⟨.error e, ?_⟩, htime⟩
      simp only [note, hjobs']
      rfl
  | ok bundle =>
      refine ⟨⟨s'.pipeline.report j.order bundle, ?_⟩, htime⟩
      simp only [note, hjobs']
      rfl

end Service

namespace Pipeline

variable {S : Store σ} {Holds : σ → String → ByteArray → Prop} {Good : String → Chart → Prop}
  {E : Engine ε} {shape : Ranking.Shape} {p : Pipeline σ ε}

/-- **An engine that answers at once takes no time** for an order that is served alone. -/
theorem time_service (hE : E.Instant) (h : p.Sound Holds Good shape)
    (hline : p.fetches.permits.line = []) (hfree : 0 < p.fetches.permits.free) (o : Order) :
    (p.service S E [o]).time = 0 := by
  have hflights : (p.arrive S [o]).pipeline.fetches.flights.flights
      = [⟨Cache.key o.profile p.shape, .called⟩] := by
    rw [show (p.arrive S [o]).pipeline.fetches.flights.flights
      = p.fetches.flights.flights ++ [⟨Cache.key o.profile p.shape, .called⟩] from rfl, h.noFlights]
    rfl
  have hbrisk : ∀ task, (p.arrive S [o]).Brisk task .called {} := by
    intro task
    have hidle : ({} : Fetch).stage task = .idle := by cases task <;> rfl
    refine ⟨⟨⟨_, hflights⟩, h.fetches_arrive_single S o, ⟨nofun, rfl⟩, ⟨h.given, hline⟩, ?_, ?_,
      fun _ => rfl, ?_⟩, h.tidy_arrive S o, nofun⟩
    · exact Nat.lt_of_lt_of_le hfree (Nat.le_add_right _ _)
    · rw [hidle]
      exact nofun
    · rintro (_ | _ | _) - <;> rfl
  obtain ⟨⟨r, hjobs⟩, htime⟩ := Service.Brisk.round S hE hbrisk
    (j := { order := o, limit := p.deadlineFor o }) rfl rfl
  rw [service, show Service.enoughRounds [o].length = 31 + 1 from rfl, Service.run,
    Service.unanswered_of_some hjobs]
  exact htime

theorem Sound.generate_of_instant (hS : S.Faithful Holds) (h : p.Sound Holds Good shape)
    (hinstant : E.Instant) (hline : p.fetches.permits.line = [])
    (hfree : 0 < p.fetches.permits.free) {o : Order} (hlimit : 0 < p.deadlineFor o)
    (hE : Service.Trustworthy Good E shape [o] p.engine) (haccept : accept o = .ok o) :
    ∃ log e, E.Calls [o] p.engine log e ∧
      o.Answered (Good (Cache.key o.profile shape)) shape (fun a => (0, a) ∈ log)
        (p.generate S E o).1 := by
  rcases h.generate hS hE haccept with ⟨-, hlate⟩ | ⟨log, hcalls, hanswered⟩
  · rw [time_service hinstant h hline hfree] at hlate
    omega
  · exact ⟨log, _, hcalls, hanswered⟩

end Pipeline

end Almanac
