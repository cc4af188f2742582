import Mathlib
import Almanac.Proofs.Fetch.Progress
import Almanac.Proofs.Pipeline.Soundness

/-!
# Enough rounds

An order that is served alone has a result before the rounds run out, and it is given up
only when its time is used up.  In every round an answer comes that was awaited, or time
passes to the next answer or to the end of the order's time.
-/

namespace Almanac.Service

variable {σ ε : Type} {S : Store σ} {Holds : σ → String → ByteArray → Prop}
  {Good : String → Chart → Prop} {E : Engine ε} {shape : Ranking.Shape} {o : Order} {start : ε}
  {s s' : Service σ ε} {task : Task}

def unspent (s : Service σ ε) : Nat := s.pipeline.fetches.unspent 0

/-- Every pending call is the only one of a task of the only order, and in progress. -/
structure Tidy (s : Service σ ε) : Prop where
  drawing : s.pipeline.fetches.CallsWhileDrawing 0
  pending : ∀ c ∈ s.calls, c.fetch = 0 ∧ s.pipeline.fetches.isCalling 0 c.task = true ∧
    c.answer.task = c.task
  once : s.calls.Pairwise fun c d => c.task ≠ d.task

def Ripe (s : Service σ ε) (task : Task) : Prop := ∃ c ∈ s.calls, c.task = task ∧ c.due ≤ s.time

/-- The tasks of the only order have gone on: nobody is stirred without an answer. -/
structure Onward (s s' : Service σ ε) : Prop where
  spent : s'.unspent ≤ s.unspent
  calm : s'.unspent = s.unspent → s'.isStirred = s.isStirred

theorem Onward.refl (s : Service σ ε) : s.Onward s := ⟨Nat.le_refl _, fun _ => rfl⟩

theorem Onward.trans {s'' : Service σ ε} (h : s.Onward s') (h' : s'.Onward s'') :
    s.Onward s'' := by
  refine ⟨Nat.le_trans h'.spent h.spent, fun he => ?_⟩
  have hspent := h.spent
  have hspent' := h'.spent
  rw [h'.calm (by omega), h.calm (by omega)]

/-- A task has gone on: the due calls of the other tasks are still due, and its own, if it
was due, is answered. -/
structure Goes (task : Task) (s s' : Service σ ε) : Prop where
  tidy : s'.Tidy
  onward : s.Onward s'
  others : ∀ t, t ≠ task → s.Ripe t → s'.Ripe t
  answered : s.Ripe task → s'.unspent < s.unspent

/-! ## Single steps -/

theorem Tidy.find?_eq (h : s.Tidy) {c : EngineCall} (hc : c ∈ s.calls) :
    s.calls.find? (isOf 0 c.task) = some c := by
  have hone := h.once
  have hfetch := (h.pending c hc).1
  revert hone hc
  generalize s.calls = calls
  intro hc hone
  induction calls with
  | nil => contradiction
  | cons d calls ih =>
      rw [List.pairwise_cons] at hone
      rcases List.mem_cons.mp hc with rfl | hc
      · rw [List.find?_cons_of_pos]
        simp only [isOf, hfetch, beq_self_eq_true, Bool.and_self]
      · rw [List.find?_cons_of_neg, ih hc hone.2]
        simp only [isOf, Bool.and_eq_true, beq_iff_eq, not_and]
        exact fun _ => hone.1 c hc

theorem Goes.placeCall (h : s.Tidy) (E : Engine ε) (profile : Profile)
    (hcalling : s.pipeline.fetches.isCalling 0 task = true)
    (hnone : s.calls.find? (isOf 0 task) = none) :
    Goes task s (s.placeCall E profile 0 task) := by
  -- A task has one call at a time, so the new call is the only one of its task.
  have hnew : ∀ c ∈ s.calls, c.task ≠ task := by
    rintro c hc rfl
    rw [h.find?_eq hc] at hnone
    contradiction
  rw [placeCall_eq]
  refine ⟨⟨h.drawing, ?_, ?_⟩, ⟨Nat.le_refl _, fun _ => rfl⟩, ?_, ?_⟩
  · intro c hc
    rcases List.mem_append.mp hc with hc | hc
    · exact h.pending c hc
    · obtain rfl := List.mem_singleton.mp hc
      exact ⟨rfl, hcalling, by cases task <;> rfl⟩
  · rw [List.pairwise_append]
    refine ⟨h.once, List.pairwise_singleton _ _, fun c hc d hd => ?_⟩
    obtain rfl := List.mem_singleton.mp hd
    exact hnew c hc
  · rintro t - ⟨c, hc, ht, hdue⟩
    exact ⟨c, List.mem_append_left _ hc, ht, hdue⟩
  · rintro ⟨c, hc, ht, -⟩
    exact absurd ht (hnew c hc)

theorem Goes.answer (h : s.Tidy) (S : Store σ) {c : EngineCall} (hc : c ∈ s.calls) :
    Goes c.task s { s with
      pipeline := s.pipeline.step S (.answer 0 c.answer)
      calls := s.calls.filter fun d => !isOf 0 c.task d } := by
  obtain ⟨-, hcalling, htask⟩ := h.pending c hc
  rw [← htask] at hcalling ⊢
  obtain ⟨hbefore, hafter, hawaits⟩ := Fetches.awaits_answer h.drawing hcalling
  have hlt : (s.pipeline.fetches.answer 0 c.answer).unspent 0 < s.unspent :=
    Fetches.unspent_lt hawaits hbefore hafter
  -- What is left are the calls of the other tasks.
  have hother : ∀ d ∈ s.calls, (!isOf 0 c.answer.task d) = true ↔ d.task ≠ c.answer.task := by
    intro d hd
    simp only [isOf, (h.pending d hd).1, beq_self_eq_true, Bool.true_and, Bool.not_eq_true',
      beq_eq_false_iff_ne, ne_eq]
  refine ⟨⟨h.drawing.answer hcalling, ?_, h.once.filter _⟩, ⟨Nat.le_of_lt hlt, ?_⟩, ?_, ?_⟩
  · intro d hd
    obtain ⟨hd, hne⟩ := List.mem_filter.mp hd
    obtain ⟨hfetch, hd', htask'⟩ := h.pending d hd
    refine ⟨hfetch, ?_, htask'⟩
    apply (Fetches.isCalling_answer hcalling d.task).trans
    rw [hd', Bool.and_true, bne_iff_ne]
    exact (hother d hd).mp hne
  · exact fun he => absurd he (Nat.ne_of_lt hlt)
  · rintro t ht ⟨d, hd, rfl, hdue⟩
    exact ⟨d, List.mem_filter.mpr ⟨hd, (hother d hd).mpr ht⟩, rfl, hdue⟩
  · exact fun _ => hlt

theorem Goes.proceed (h : s.Tidy) (S : Store σ)
    (hgiven : s.pipeline.fetches.permits.closed = false)
    (halone : s.pipeline.fetches.flights.flights.length ≤ 1)
    (hcalling : s.pipeline.fetches.isCalling 0 task = false) :
    Goes task s { s with pipeline := s.pipeline.step S (.proceed 0 task) } := by
  have honward := Fetches.Onward.proceed S s.pipeline.clock hgiven 0 task
  refine ⟨⟨h.drawing.proceed S _ hgiven task, ?_, h.once⟩,
    ⟨Fetches.unspent_mono honward.awaits, fun _ => ?_⟩, fun t _ ht => ht, ?_⟩
  · intro c hc
    obtain ⟨hfetch, hc, htask⟩ := h.pending c hc
    exact ⟨hfetch, honward.calling _ hc, htask⟩
  · exact Fetches.stirred_proceed S s.pipeline.clock hgiven halone 0 task
  · rintro ⟨c, hc, rfl, -⟩
    rw [(h.pending c hc).2.1] at hcalling
    contradiction

/-! ## Until all tasks are held up -/

/-- A service of one order, which is sound and tidy. -/
structure Single (Holds : σ → String → ByteArray → Prop) (Good : String → Chart → Prop)
    (E : Engine ε) (shape : Ranking.Shape) (o : Order) (start : ε) (s : Service σ ε) : Prop where
  sound : s.Sound Holds Good E shape [o] start
  tidy : s.Tidy

theorem Single.given (h : s.Single Holds Good E shape o start) :
    s.pipeline.fetches.permits.closed = false := by
  obtain ⟨log, hlog⟩ := h.sound
  exact hlog.fetches.given

theorem Single.alone (h : s.Single Holds Good E shape o start) :
    s.pipeline.fetches.flights.flights.length ≤ 1 := by
  obtain ⟨log, hlog⟩ := h.sound
  have hlen := congrArg List.length hlog.fetches.keys
  rw [Board.keys, List.length_map] at hlen
  exact Nat.le_of_eq hlen

theorem Single.advance (hS : S.Faithful Holds) (hE : Trustworthy Good E shape [o] start)
    (h : s.Single Holds Good E shape o start) (task : Task) :
    (s.advance S E o.profile 0 task).Single Holds Good E shape o start ∧
      Goes task s (s.advance S E o.profile 0 task) := by
  have hsound := h.sound.advance hS hE (i := 0) rfl task
  suffices hgoes : Goes task s (s.advance S E o.profile 0 task) from
    ⟨⟨hsound, hgoes.tidy⟩, hgoes⟩
  unfold Service.advance
  split
  · rename_i hcalling
    split
    · rename_i hnone
      exact .placeCall h.tidy E o.profile hcalling hnone
    · rename_i c hc
      have hmem := List.mem_of_find?_eq_some hc
      obtain rfl : c.task = task := by
        have := List.find?_some hc
        simp only [isOf, Bool.and_eq_true, beq_iff_eq] at this
        exact this.2
      split
      · exact .answer h.tidy S hmem
      · rename_i hdue
        refine ⟨h.tidy, .refl s, fun _ _ ht => ht, ?_⟩
        rintro ⟨d, hd, htask, hd'⟩
        have hdc := h.tidy.find?_eq hd
        rw [htask, hc] at hdc
        exact absurd (Option.some.inj hdc ▸ hd') hdue
  · rename_i hcalling
    exact .proceed h.tidy S h.given h.alone (Bool.eq_false_iff.mpr hcalling)

theorem Single.settle (hS : S.Faithful Holds) (hE : Trustworthy Good E shape [o] start)
    (h : s.Single Holds Good E shape o start) (task : Task) :
    (s.settle S E o.profile 0 task).Single Holds Good E shape o start ∧
      Goes task s (s.settle S E o.profile 0 task) := by
  -- The first step answers a call that is due; the others lose nothing.
  have hsteps : ∀ n,
      (Nat.repeat (Service.advance S E o.profile 0 task) (n + 1) s).Single Holds Good E shape o
          start ∧
        Goes task s (Nat.repeat (Service.advance S E o.profile 0 task) (n + 1) s) := by
    intro n
    induction n with
    | zero => exact h.advance hS hE task
    | succ n ih =>
        obtain ⟨hsingle, hgoes⟩ := ih
        obtain ⟨hsingle', hgoes'⟩ := hsingle.advance hS hE task
        refine ⟨hsingle', hgoes'.tidy, hgoes.onward.trans hgoes'.onward, ?_, ?_⟩
        · exact fun t ht hripe => hgoes'.others t ht (hgoes.others t ht hripe)
        · exact fun hripe => Nat.lt_of_le_of_lt hgoes'.onward.spent (hgoes.answered hripe)
  rw [Service.settle, show longestWay = 9 + 1 from rfl]
  exact hsteps 9

/-- All the tasks go on: if a call was due, an answer has come. -/
theorem Single.tasks (hS : S.Faithful Holds) (hE : Trustworthy Good E shape [o] start)
    (h : s.Single Holds Good E shape o start) (tasks : List Task)
    (hs' : tasks.foldl (fun s task => s.settle S E o.profile 0 task) s = s') :
    s'.Single Holds Good E shape o start ∧ s.Onward s' ∧
      ∀ task ∈ tasks, s.Ripe task → s'.unspent < s.unspent := by
  induction tasks generalizing s with
  | nil =>
      subst hs'
      exact ⟨h, .refl s, fun _ ht => absurd ht List.not_mem_nil⟩
  | cons task tasks ih =>
      rw [List.foldl_cons] at hs'
      obtain ⟨hsingle, hgoes⟩ := h.settle hS hE task
      obtain ⟨hsingle', honward, hripe⟩ := ih hsingle hs'
      refine ⟨hsingle', hgoes.onward.trans honward, fun t ht htripe => ?_⟩
      by_cases he : t = task
      · subst he
        exact Nat.lt_of_le_of_lt honward.spent (hgoes.answered htripe)
      · have htail : t ∈ tasks := (List.mem_cons.mp ht).resolve_left he
        exact Nat.lt_of_lt_of_le (hripe t htail (hgoes.others t he htripe)) hgoes.onward.spent

/-! ## Rounds -/

theorem mem_tasks (s : Service σ ε) (task : Task) : task ∈ s.tasks := by
  have hall : ∀ k < 3, ∀ task : Task,
      task ∈ [Task.base, Task.balance, Task.pillars].rotateLeft k := by
    intro k hk task
    rcases (by omega : k = 0 ∨ k = 1 ∨ k = 2) with rfl | rfl | rfl <;> cases task <;> decide
  exact hall _ (Nat.mod_lt _ (by omega)) task

/-- What a visit of the only order does: the order is answered, in vain only after its
time, or goes on before the end of its time. -/
inductive Visited (Holds : σ → String → ByteArray → Prop) (Good : String → Chart → Prop)
    (E : Engine ε) (shape : Ranking.Shape) (j : Job) (start : ε) (s s' : Service σ ε) : Prop where
  | answered (r : Except Failure Report) (noted : s'.jobs = [{ j with result := some r }])
      (late : r = .error (.deadlineExceeded (.ofMillis j.limit)) → j.limit ≤ s'.time) :
      Visited Holds Good E shape j start s s'
  | on (single : s'.Single Holds Good E shape j.order start) (jobs : s'.jobs = [j])
      (time : s'.time = s.time) (early : s.time < j.limit) (onward : s.Onward s')
      (ripe : ∀ task, s.Ripe task → s'.unspent < s.unspent) :
      Visited Holds Good E shape j start s s'

theorem Single.visited {j : Job} (hS : S.Faithful Holds)
    (hE : Trustworthy Good E shape [j.order] start)
    (h : s.Single Holds Good E shape j.order start) (hjobs : s.jobs = [j])
    (hnone : j.result = none) :
    Visited Holds Good E shape j start s (s.visit S E 0) := by
  obtain ⟨hsingle, honward, hripe⟩ := h.tasks hS hE s.tasks rfl
  have hjobs' := (jobs_tasks S E j.order.profile 0 s.tasks s).trans hjobs
  have htime := time_tasks S E j.order.profile 0 s.tasks s
  obtain ⟨log, hlog⟩ := hsingle.sound
  have hanswer := fun outcome (ho : _ = some outcome) => hlog.answered (i := 0) hE rfl ho
  simp only [Service.visit, hjobs, List.getElem?_cons_zero, hnone, Option.isSome_none,
    Bool.false_eq_true, if_false]
  -- From here on only what the tasks have kept is used.
  generalize s.tasks.foldl _ s = s' at *
  have hnoted : ∀ r, (s'.note 0 r).jobs = [{ j with result := some r }] := by
    intro r
    rw [note, hjobs']
    rfl
  split
  · rename_i bundle houtcome
    exact .answered _ (hnoted _) fun he => absurd he ((hanswer _ houtcome).ne_deadline _)
  · rename_i e houtcome
    exact .answered _ (hnoted _) fun he => absurd he ((hanswer _ houtcome).ne_deadline _)
  · rw [htime]
    split
    · rename_i hlate
      refine .answered (.error (.deadlineExceeded (.ofMillis j.limit))) ?_ fun _ => ?_
      · rw [giveUp, note, hjobs']
        rfl
      · exact htime.symm ▸ hlate
    · rename_i hearly
      exact .on hsingle hjobs' htime (Nat.lt_of_not_le hearly) honward
        fun task => hripe task (s.mem_tasks task)

/-- Neither the clock nor the number of the round nor the flag matters to soundness. -/
theorem Single.moved (h : s.Single Holds Good E shape o start) (time rounds : Nat)
    (stirred : Bool) :
    Single Holds Good E shape o start { s with
      pipeline := { s.pipeline with fetches := { s.pipeline.fetches with stirred } }
      time, rounds } := by
  obtain ⟨⟨log, hlog⟩, htidy⟩ := h
  have hfetches := hlog.fetches
  refine ⟨⟨log, hlog.moved ?_ rfl rfl rfl fun _ => id⟩, ⟨htidy.drawing, htidy.pending, htidy.once⟩⟩
  exact ⟨hfetches.flights, hfetches.backed, hfetches.failed, hfetches.keys, hfetches.given⟩

theorem Single.visited_round {j : Job} (hS : S.Faithful Holds)
    (hE : Trustworthy Good E shape [j.order] start)
    (h : s.Single Holds Good E shape j.order start) (hjobs : s.jobs = [j])
    (hnone : j.result = none) : Visited Holds Good E shape j start s (s.round S E) := by
  have hround : s.round S E = { s.visit S E 0 with rounds := (s.visit S E 0).rounds + 1 } := by
    rw [round, hjobs]
    rfl
  rw [hround]
  cases h.visited hS hE hjobs hnone with
  | answered r noted late => exact .answered r noted late
  | on single jobs time early onward ripe =>
      exact .on (single.moved _ _ _) jobs time early ⟨onward.spent, onward.calm⟩ ripe

/-! ## Runs -/

theorem unanswered_of_some {j : Job} {r : Except Failure Report}
    (hjobs : s.jobs = [{ j with result := some r }]) : s.unanswered = [] := by
  rw [unanswered, hjobs]
  rfl

theorem unanswered_of_none {j : Job} (hjobs : s.jobs = [j]) (hnone : j.result = none) :
    s.unanswered = [0] := by
  simp only [unanswered, hjobs, List.length_singleton, List.range_one, List.filter_cons,
    List.getElem?_cons_zero, Option.bind_some, hnone, Option.isNone_none, if_true, List.filter_nil]

theorem nextTime?_eq {j : Job} (hjobs : s.jobs = [j]) (hnone : j.result = none) :
    ∃ t, s.nextTime? = some t ∧ (t = j.limit ∨ ∃ c ∈ s.calls, c.due = t) := by
  have hnext : s.nextTime? = (s.calls.map (·.due) ++ [j.limit]).min? := by
    rw [nextTime?, unanswered_of_none hjobs hnone, hjobs]
    rfl
  have hsome : (s.calls.map (·.due) ++ [j.limit]).min?.isSome :=
    List.isSome_min?_of_mem (List.mem_append_right _ (List.mem_singleton.mpr rfl))
  obtain ⟨t, ht⟩ := Option.isSome_iff_exists.mp hsome
  refine ⟨t, hnext.trans ht, ?_⟩
  -- The least moment is one of the moments.
  rcases List.mem_append.mp (List.min?_mem ht) with hdue | hlimit
  · obtain ⟨c, hc, rfl⟩ := List.mem_map.mp hdue
    exact .inr ⟨c, hc, rfl⟩
  · exact .inl (List.mem_singleton.mp hlimit)

/-- A bound on the rounds before the only order has a result: each answer that may still
come costs two, one in which time passes and one in which it comes. -/
def roundsLeft (s : Service σ ε) (ripe : Bool) : Nat :=
  2 * s.unspent + (!ripe).toNat + s.isStirred.toNat

/-- **An order that is served alone has a result before the rounds run out.**  Only after
its time it may have none but that. -/
theorem run_single {j : Job} (hS : S.Faithful Holds)
    (hE : Trustworthy Good E shape [j.order] start) (hnone : j.result = none) {fuel : Nat}
    (ripe : Bool) (h : s.Single Holds Good E shape j.order start) (hjobs : s.jobs = [j])
    (hripe : ripe = true → j.limit ≤ s.time ∨ ∃ task, s.Ripe task)
    (hfuel : s.roundsLeft ripe < fuel) :
    ∃ r, (run S E fuel s).jobs = [{ j with result := some r }] ∧
      (r = .error (.deadlineExceeded (.ofMillis j.limit)) → j.limit ≤ (run S E fuel s).time) := by
  induction fuel generalizing s ripe with
  | zero => exact absurd hfuel (Nat.not_lt_zero _)
  | succ fuel ih =>
      rw [run]
      generalize hs' : s.round S E = s'
      rcases hs' ▸ h.visited_round hS hE hjobs hnone with ⟨r, hnoted, hlate⟩ |
        ⟨hsingle, hjobs', htime, hearly, honward, hspent⟩
      · rw [unanswered_of_some (j := j) (r := r) hnoted]
        exact ⟨r, hnoted, hlate⟩
      · rw [unanswered_of_none (j := j) hjobs' hnone]
        have hle := honward.spent
        rw [roundsLeft] at hfuel
        simp only [List.isEmpty_cons, Bool.false_eq_true, if_false]
        -- A due call has been answered, so nothing was due if no answer came.
        have hcalm : s'.unspent = s.unspent → ripe = false ∧ s'.isStirred = s.isStirred := by
          intro he
          refine ⟨Bool.eq_false_iff.mpr fun ht => ?_, honward.calm he⟩
          rcases hripe ht with hlimit | ⟨task, htask⟩
          · omega
          · exact absurd (hspent task htask) (by omega)
        split
        · rename_i hstirred
          have hstirred : s'.isStirred = true := hstirred
          refine ih false (hsingle.moved _ _ _) hjobs' (fun h => by cases h) ?_
          change 2 * s'.unspent + 1 + 0 < fuel
          rcases Nat.lt_or_eq_of_le hle with hlt | he
          · omega
          · obtain ⟨rfl, hs⟩ := hcalm he
            rw [← hs, hstirred] at hfuel
            simp only [Bool.not_false, Bool.toNat_true] at hfuel
            omega
        · rename_i hstirred
          have hstirred : s'.isStirred = false := Bool.eq_false_iff.mpr hstirred
          obtain ⟨t, ht, hmoment⟩ := nextTime?_eq hjobs' hnone
          rw [ht, Option.getD_some]
          refine ih true (hsingle.moved _ _ _) hjobs' (fun _ => ?_) ?_
          · rcases hmoment with rfl | ⟨c, hc, rfl⟩
            · exact .inl (Nat.le_refl _)
            · exact .inr ⟨c.task, c, hc, rfl, Nat.le_refl _⟩
          · change 2 * s'.unspent + 0 + s'.isStirred.toNat < fuel
            rw [hstirred]
            rcases Nat.lt_or_eq_of_le hle with hlt | he
            · simp only [Bool.toNat_false]
              omega
            · obtain ⟨rfl, -⟩ := hcalm he
              simp only [Bool.not_false, Bool.toNat_true] at hfuel
              simp only [Bool.toNat_false]
              omega

end Almanac.Service
