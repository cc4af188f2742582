import Mathlib
import Almanac.Proofs.Fetch.Alone

/-!
# Where the permits are

A permit is free, or held by one task that calls the engine or is about to.  Whoever is in
line is there for a task that waits, and nobody is in line while a permit is free
(`Permits.Accounted`).  No move of the fetches loses a permit or makes one:
`Fetches.Accounted.step`.
-/

namespace Almanac

/-! ## Permits and stages -/

namespace Stage

variable {α : Type} {s : Stage α}

theorem ne_waiting_of_isQuiet (h : s.isQuiet = true) : s ≠ .waiting := by
  rintro rfl
  contradiction

theorem ne_waiting_of_holdsPermit (h : s.holdsPermit = true) : s ≠ .waiting := by
  rintro rfl
  contradiction

end Stage

namespace Permits

/-- The permits account for how far the tasks have come with their calls. -/
structure Accounted (total : Nat) (p : Permits) (stages : Ticket → Stage Unit) : Prop where
  /-- Each permit is free or held. -/
  held : ∃ holders : Finset Ticket, (∀ t, t ∈ holders ↔ (stages t).holdsPermit = true) ∧
    p.free + holders.card = total
  queued : ∀ t ∈ p.line, stages t = .waiting
  waiting : p.closed = false → ∀ t, stages t = .waiting → t ∈ p.line
  nodup : p.line.Nodup
  gone : p.closed = true → p.line = []
  busy : p.line ≠ [] → p.free = 0

variable {total : Nat} {p p' : Permits} {stages : Ticket → Stage Unit} {t next : Ticket}
  {s : Stage Unit}

theorem accounted_new (total : Nat) : Accounted total { free := total } fun _ => .idle := by
  refine ⟨⟨∅, fun t => by simp [Stage.holdsPermit], rfl⟩, ?_, ?_, .nil, fun _ => rfl, ?_⟩
  · exact fun t ht => absurd ht List.not_mem_nil
  · exact fun _ t ht => by cases ht
  · exact fun h => absurd rfl h

theorem Accounted.notMem_line (h : Accounted total p stages) (ht : stages t ≠ .waiting) :
    t ∉ p.line := fun hmem => ht (h.queued t hmem)

/-! ### Who holds a permit -/

section Holders

variable {holders : Finset Ticket} (h : ∀ u, u ∈ holders ↔ (stages u).holdsPermit = true)
include h

theorem holders_goOn (hs : s.holdsPermit = (stages t).holdsPermit) :
    ∀ u, u ∈ holders ↔ (Function.update stages t s u).holdsPermit = true := by
  intro u
  rw [h]
  by_cases hut : u = t
  · rw [hut, Function.update_self, hs]
  · rw [Function.update_of_ne hut]

theorem holders_gain (hs : s.holdsPermit = true) :
    ∀ u, u ∈ insert t holders ↔ (Function.update stages t s u).holdsPermit = true := by
  intro u
  rw [Finset.mem_insert, h]
  by_cases hut : u = t
  · simp [hut, hs]
  · rw [Function.update_of_ne hut]
    simp [hut]

theorem holders_lose (hs : s.holdsPermit = false) :
    ∀ u, u ∈ holders.erase t ↔ (Function.update stages t s u).holdsPermit = true := by
  intro u
  rw [Finset.mem_erase, h]
  by_cases hut : u = t
  · simp [hut, hs]
  · rw [Function.update_of_ne hut]
    simp [hut]

theorem card_erase_add_one (ht : (stages t).holdsPermit = true) :
    (holders.erase t).card + 1 = holders.card :=
  Finset.card_erase_add_one ((h t).mpr ht)

end Holders

/-! ### One step -/

/-- The stages of those who stand in line, and of those who wait, when a task that is not
in line gets to a stage at which it does not wait. -/
theorem Accounted.queued_update (h : Accounted total p stages) (hline : t ∉ p.line) :
    ∀ u ∈ p.line, Function.update stages t s u = .waiting := by
  intro u hu
  have hut : u ≠ t := fun he => hline (he ▸ hu)
  rw [Function.update_of_ne hut]
  exact h.queued u hu

theorem Accounted.waiting_update (h : Accounted total p stages) (hs : s ≠ .waiting)
    (hopen : p.closed = false) : ∀ u, Function.update stages t s u = .waiting → u ∈ p.line := by
  intro u hu
  by_cases hut : u = t
  · rw [hut, Function.update_self] at hu
    exact absurd hu hs
  · rw [Function.update_of_ne hut] at hu
    exact h.waiting hopen u hu

/-- A task that is not in line goes on without giving a permit away or getting one. -/
theorem Accounted.goOn (h : Accounted total p stages) (hline : t ∉ p.line) (hs : s ≠ .waiting)
    (hholds : s.holdsPermit = (stages t).holdsPermit) :
    Accounted total p (Function.update stages t s) := by
  obtain ⟨holders, hmem, hcard⟩ := h.held
  exact ⟨⟨holders, holders_goOn hmem hholds, hcard⟩, h.queued_update hline, h.waiting_update hs,
    h.nodup, h.gone, h.busy⟩

theorem Accounted.grant (h : Accounted total p stages) (hfree : 0 < p.free)
    (ht : (stages t).isQuiet = true) :
    Accounted total { p with free := p.free - 1 } (Function.update stages t .granted) := by
  have hline : t ∉ p.line := h.notMem_line (Stage.ne_waiting_of_isQuiet ht)
  obtain ⟨holders, hmem, hcard⟩ := h.held
  have hnew : t ∉ holders := by
    rw [hmem, Stage.holdsPermit_of_isQuiet ht]
    exact Bool.false_ne_true
  refine ⟨⟨insert t holders, holders_gain hmem rfl, ?_⟩, h.queued_update hline,
    h.waiting_update nofun, h.nodup, h.gone,
    fun hne => absurd (h.busy hne) (Nat.ne_of_gt hfree)⟩
  rw [Finset.card_insert_of_notMem hnew]
  simp only
  omega

theorem Accounted.enqueue (h : Accounted total p stages) (hopen : p.closed = false)
    (hfree : p.free = 0) (ht : (stages t).isQuiet = true) :
    Accounted total { p with line := p.line ++ [t] } (Function.update stages t .waiting) := by
  have hline : t ∉ p.line := h.notMem_line (Stage.ne_waiting_of_isQuiet ht)
  obtain ⟨holders, hmem, hcard⟩ := h.held
  refine ⟨⟨holders, holders_goOn hmem (Stage.holdsPermit_of_isQuiet ht).symm, hcard⟩, ?_, ?_, ?_,
    ?_, fun _ => hfree⟩
  · intro u hu
    rcases List.mem_append.mp hu with hu | hu
    · exact h.queued_update hline u hu
    · rw [List.mem_singleton.mp hu, Function.update_self]
  · intro _ u hu
    by_cases hut : u = t
    · simp [hut]
    · rw [Function.update_of_ne hut] at hu
      exact List.mem_append_left _ (h.waiting hopen u hu)
  · exact h.nodup.append (List.nodup_singleton t) (by simpa using hline)
  · intro hclosed
    exact absurd (hopen.symm.trans hclosed) Bool.false_ne_true

theorem Accounted.leave (h : Accounted total p stages) (ht : (stages t).holdsPermit = false) :
    Accounted total (p.leave t) (Function.update stages t .idle) := by
  have hsub : ∀ {u}, u ∈ (p.leave t).line ↔ u ∈ p.line ∧ u ≠ t := by simp [Permits.leave]
  obtain ⟨holders, hmem, hcard⟩ := h.held
  refine ⟨⟨holders, holders_goOn hmem ht.symm, hcard⟩, ?_, ?_, h.nodup.filter _, ?_, ?_⟩
  · intro u hu
    rw [Function.update_of_ne (hsub.mp hu).2]
    exact h.queued u (hsub.mp hu).1
  · intro hopen u hu
    by_cases hut : u = t
    · rw [hut, Function.update_self] at hu
      contradiction
    · rw [Function.update_of_ne hut] at hu
      exact hsub.mpr ⟨h.waiting hopen u hu, hut⟩
  · intro hclosed
    rw [Permits.leave, h.gone hclosed]
    rfl
  · intro hne
    refine h.busy fun hnil => hne ?_
    rw [Permits.leave, hnil]
    rfl

theorem leave_of_notMem (ht : t ∉ p.line) : p.leave t = p := by
  rw [Permits.leave, List.filter_eq_self.mpr]
  intro u hu
  simpa using fun he : u = t => ht (he ▸ hu)

/-- A permit that is given back while nobody stands in line is free. -/
theorem Accounted.giveBack_none (h : Accounted total p stages)
    (ht : (stages t).holdsPermit = true) (hs : s.isQuiet = true)
    (hgive : p.giveBack = (none, p')) : Accounted total p' (Function.update stages t s) := by
  have hnil : p.line = [] ∧ p' = { p with free := p.free + 1 } := by
    rw [Permits.giveBack] at hgive
    split at hgive
    · exact ⟨‹_›, (Prod.mk.inj hgive).2.symm⟩
    · cases hgive
  obtain ⟨hnil, rfl⟩ := hnil
  have hline : t ∉ p.line := hnil ▸ List.not_mem_nil
  have hwait : s ≠ .waiting := Stage.ne_waiting_of_isQuiet hs
  obtain ⟨holders, hmem, hcard⟩ := h.held
  have hless := card_erase_add_one hmem ht
  refine ⟨⟨holders.erase t, holders_lose hmem (Stage.holdsPermit_of_isQuiet hs), ?_⟩,
    h.queued_update hline, h.waiting_update hwait, h.nodup, h.gone, fun hne => absurd hnil hne⟩
  simp only
  omega

/-- A permit that is given back while somebody stands in line goes to the first one. -/
theorem Accounted.giveBack_some (h : Accounted total p stages)
    (ht : (stages t).holdsPermit = true) (hs : s.isQuiet = true)
    (hgive : p.giveBack = (some next, p')) :
    Accounted total p' (Function.update (Function.update stages t s) next .granted) ∧
      next ≠ t ∧ stages next = .waiting := by
  obtain ⟨line, hfirst, rfl⟩ : ∃ line, p.line = next :: line ∧ p' = { p with line } := by
    rw [Permits.giveBack] at hgive
    split at hgive
    · cases hgive
    · cases hgive
      exact ⟨_, ‹_›, rfl⟩
  have hnext : stages next = .waiting := h.queued next (hfirst ▸ List.mem_cons_self)
  have hne : next ≠ t := fun he => Stage.ne_waiting_of_holdsPermit ht (he ▸ hnext)
  have hnodup := hfirst ▸ h.nodup
  have hwait : s ≠ .waiting := Stage.ne_waiting_of_isQuiet hs
  have htl : t ∉ p.line := h.notMem_line (Stage.ne_waiting_of_holdsPermit ht)
  obtain ⟨holders, hmem, hcard⟩ := h.held
  have hless := card_erase_add_one hmem ht
  have hlost := holders_lose hmem (t := t) (Stage.holdsPermit_of_isQuiet hs)
  have hnew : next ∉ holders.erase t := by
    rw [Finset.mem_erase, hmem, hnext]
    exact fun hin => Bool.false_ne_true hin.2
  refine ⟨⟨⟨insert next (holders.erase t), holders_gain hlost rfl, ?_⟩, ?_, ?_, ?_, ?_, ?_⟩, hne,
    hnext⟩
  · rw [Finset.card_insert_of_notMem hnew]
    simp only
    omega
  · intro u hu
    have hun : u ≠ next := fun he => (List.nodup_cons.mp hnodup).1 (he ▸ hu)
    rw [Function.update_of_ne hun]
    exact h.queued_update htl u (hfirst ▸ List.mem_cons_of_mem next hu)
  · intro hopen u hu
    by_cases hun : u = next
    · rw [hun, Function.update_self] at hu
      contradiction
    · rw [Function.update_of_ne hun] at hu
      have hul := h.waiting_update hwait hopen u hu
      rw [hfirst] at hul
      exact (List.mem_cons.mp hul).resolve_left hun
  · exact (List.nodup_cons.mp hnodup).2
  · intro hclosed
    rw [h.gone hclosed] at hfirst
    contradiction
  · exact fun _ => h.busy (by rw [hfirst]; exact List.cons_ne_nil _ _)

theorem Accounted.close (h : Accounted total p stages) : Accounted total p.close stages := by
  refine ⟨h.held, ?_, fun hopen => ?_, .nil, fun _ => rfl, fun hne => absurd rfl hne⟩
  · exact fun t ht => absurd ht List.not_mem_nil
  · cases hopen

end Permits

/-! ## Fetches -/

namespace Fetches

variable {σ : Type} {α : Type} {total : Nat} {fs : Fetches σ} {i : Nat} {task : Task} {f : Fetch}

def stages (fs : Fetches σ) (t : Ticket) : Stage Unit :=
  (fs.fetches[t.fetch]?.map (·.stage t.task)).getD .idle

def Accounted (total : Nat) (fs : Fetches σ) : Prop := fs.permits.Accounted total fs.stages

theorem stages_eq (hf : fs.fetches[i]? = some f) (task : Task) :
    fs.stages ⟨i, task⟩ = f.stage task := by
  rw [stages, hf]
  rfl

theorem stages_modify (fs : Fetches σ) {g : Fetch → Fetch} {s : Stage Unit}
    (hf : fs.fetches[i]? = some f) (hg : ∀ t, (g f).stage t = if t = task then s else f.stage t) :
    (fs.modify i g).stages = Function.update fs.stages ⟨i, task⟩ s := by
  funext ⟨j, t⟩
  by_cases hj : i = j
  · subst hj
    have hnew : (fs.modify i g).stages ⟨i, t⟩ = (g f).stage t := by
      simp [stages, modify, hf]
    rw [hnew, hg]
    by_cases ht : t = task
    · rw [if_pos ht, ht, Function.update_self]
    · rw [if_neg ht, Function.update_of_ne (by simpa using ht), stages_eq hf]
  · rw [Function.update_of_ne (by simpa using fun he => absurd he.symm hj)]
    simp [stages, modify, hj]

theorem stage_permitted (f : Fetch) (task t : Task) :
    (f.permitted task).stage t = if t = task then (f.stage task).permitted else f.stage t := by
  have hplain : ∀ {α : Type} (s : Stage α), s.permitted.plain = s.plain.permitted := by
    intro α s
    cases s <;> rfl
  cases task <;> cases t <;> first | rfl | exact hplain _

/-- Whoever is first in line has the permit that is given back. -/
theorem stages_giveBack {next : Ticket} {permits : Permits}
    (hgive : fs.permits.giveBack = (some next, permits)) :
    fs.giveBack.stages = Function.update fs.stages next (fs.stages next).permitted := by
  rw [giveBack, hgive]
  rcases hf : fs.fetches[next.fetch]? with _ | f
  · have hidle : fs.stages next = .idle := by
      rw [stages, hf]
      rfl
    rw [hidle, show Stage.permitted .idle = fs.stages next from hidle.symm,
      Function.update_eq_self]
    funext ticket
    obtain ⟨j, t⟩ := ticket
    by_cases hj : next.fetch = j
    · subst hj
      simp [stages, modify, hf]
    · simp [stages, modify, hj]
  · have hstages := stages_modify ({ fs with permits, stirred := true })
      (g := (·.permitted next.task)) hf (stage_permitted f next.task)
    rw [hstages]
    have hsame : fs.stages next = f.stage next.task := stages_eq hf next.task
    rw [hsame]
    rfl

/-- **A permit that is given back is not lost.** -/
theorem accounted_giveBack (fs : Fetches σ) {stages : Ticket → Stage Unit} {t : Ticket}
    {s : Stage Unit} (h : fs.permits.Accounted total stages) (ht : (stages t).holdsPermit = true)
    (hs : s.isQuiet = true) (hstages : fs.stages = Function.update stages t s) :
    fs.giveBack.Accounted total := by
  rcases hgive : fs.permits.giveBack with ⟨_ | next, permits⟩
  · have hfree := h.giveBack_none ht hs hgive
    rw [← hstages] at hfree
    rw [giveBack, hgive]
    exact hfree
  · obtain ⟨hgranted, hne, hnext⟩ := h.giveBack_some ht hs hgive
    have hpermits : fs.giveBack.permits = permits := by
      rw [giveBack, hgive]
      rfl
    have hpermitted : (fs.stages next).permitted = .granted := by
      rw [hstages, Function.update_of_ne hne, hnext]
      rfl
    rw [Accounted, hpermits, stages_giveBack hgive, hpermitted, hstages]
    exact hgranted

theorem Accounted.proceedCall (h : fs.Accounted total) (hf : fs.fetches[i]? = some f)
    {stage : Stage α} (refusal : α) {put : Stage α → Fetch → Fetch}
    (hstage : f.stage task = stage.plain)
    (hput : ∀ s t, (put s f).stage t = if t = task then s.plain else f.stage t) :
    (fs.proceedCall ⟨i, task⟩ stage refusal put).Accounted total := by
  have hown : fs.stages ⟨i, task⟩ = stage.plain := (stages_eq hf task).trans hstage
  have hstages : ∀ s : Stage α,
      (fs.modify i (put s)).stages = Function.update fs.stages ⟨i, task⟩ s.plain :=
    fun s => stages_modify _ hf (hput s)
  have hmoved : ∀ {permits : Permits} {s : Stage α},
      permits.Accounted total (Function.update fs.stages ⟨i, task⟩ s.plain) →
        ({ fs with permits }.modify i (put s)).Accounted total := by
    intro permits s ha
    have hnew : ({ fs with permits }.modify i (put s)).stages
        = Function.update fs.stages ⟨i, task⟩ s.plain := hstages s
    rw [Accounted, hnew]
    exact ha
  cases stage with
  | idle =>
      have hquiet : (fs.stages ⟨i, task⟩).isQuiet = true := hown ▸ rfl
      rw [Fetches.proceedCall, Permits.ask]
      by_cases hclosed : fs.permits.closed = true
      · rw [if_pos hclosed]
        exact hmoved (h.goOn (h.notMem_line (hown ▸ (by rintro ⟨⟩))) (by rintro ⟨⟩) (hown ▸ rfl))
      · rw [if_neg hclosed]
        by_cases hfree : 0 < fs.permits.free
        · rw [if_pos hfree]
          exact hmoved (h.grant hfree hquiet)
        · rw [if_neg hfree]
          exact hmoved (h.enqueue (Bool.eq_false_iff.mpr hclosed) (Nat.eq_zero_of_not_pos hfree)
            hquiet)
  | waiting =>
      rw [Fetches.proceedCall]
      split
      · -- The permits are closed, so nobody is in line.
        rename_i hclosed
        have hline : ⟨i, task⟩ ∉ fs.permits.line := h.gone hclosed ▸ List.not_mem_nil
        exact hmoved (h.goOn hline (by rintro ⟨⟩) (hown ▸ rfl))
      · exact h
  | granted =>
      rw [Fetches.proceedCall]
      split
      · exact accounted_giveBack (fs.modify i (put (.ended refusal))) h (hown ▸ rfl) rfl
          (hstages _)
      · exact hmoved (h.goOn (h.notMem_line (hown ▸ (by rintro ⟨⟩))) (by rintro ⟨⟩) (hown ▸ rfl))
  | calling => exact h
  | ended r => exact h

theorem stage_putBase (f : Fetch) (s : Stage (Except Failure Chart)) (t : Task) :
    (putBase s f).stage t = if t = .base then s.plain else f.stage t := by
  cases t <;> rfl

theorem stage_putBalance (f : Fetch) (s : Stage (Section BalanceAnalysis)) (t : Task) :
    (putBalance s f).stage t = if t = .balance then s.plain else f.stage t := by
  cases t <;> rfl

theorem stage_putPillars (f : Fetch) (s : Stage (Section PillarAnalysis)) (t : Task) :
    (putPillars s f).stage t = if t = .pillars then s.plain else f.stage t := by
  cases t <;> rfl

theorem stage_without (f : Fetch) (task t : Task) :
    (f.without task).stage t = if t = task then .idle else f.stage t := by
  cases task <;> cases t <;> rfl

theorem stage_answered (f : Fetch) (a : Answer) (t : Task) :
    (f.answered a).stage t = if t = a.task then .ended () else f.stage t := by
  cases a <;> cases t <;> rfl

theorem Accounted.proceed (S : Store σ) (now : Nat) (h : fs.Accounted total) (i : Nat)
    (task : Task) : (fs.proceed S now i task).Accounted total := by
  unfold Fetches.proceed
  split
  · exact h
  · rename_i f hf
    split
    · exact h
    · cases task with
      | base =>
          simp only
          split
          · exact h
          · -- The call is over, and its task as quiet as before.
            rename_i drawn _ hended
            have hown : fs.stages ⟨i, .base⟩ = .ended () := by
              rw [stages_eq hf, Fetch.stage, hended]
              rfl
            have hstages := stages_modify (fs.onFlights (fs.flights.conclude now i drawn))
              (g := putBase .idle) hf (stage_putBase f .idle)
            rw [Accounted, hstages]
            exact h.goOn (h.notMem_line (hown ▸ (by rintro ⟨⟩))) (by rintro ⟨⟩) (hown ▸ rfl)
          · exact h.proceedCall hf _ rfl (stage_putBase f)
      | balance => exact h.proceedCall hf _ rfl (stage_putBalance f)
      | pillars => exact h.proceedCall hf _ rfl (stage_putPillars f)

/-- An answer that nobody has called for is lost. -/
theorem answer_of_isCalling {a : Answer} (h : fs.isCalling i a.task = false) :
    fs.answer i a = fs := by
  rw [isCalling] at h
  rw [Fetches.answer]
  split
  · rfl
  · rename_i f hf
    rw [hf] at h
    cases a <;> exact if_neg (Bool.eq_false_iff.mp h)

theorem stage_of_isCalling (h : fs.isCalling i task = true) :
    ∃ f, fs.fetches[i]? = some f ∧ f.stage task = .calling := by
  rw [isCalling_eq] at h
  rcases hf : fs.fetches[i]? with _ | f
  · rw [hf] at h
    contradiction
  · rw [hf] at h
    exact ⟨f, rfl, Fetch.stage_of_isCalling h⟩

theorem Accounted.answer (h : fs.Accounted total) (i : Nat) (a : Answer) :
    (fs.answer i a).Accounted total := by
  rcases hcalling : fs.isCalling i a.task with _ | _
  · rw [answer_of_isCalling hcalling]
    exact h
  · obtain ⟨f, hf, hstage⟩ := stage_of_isCalling hcalling
    have hown : fs.stages ⟨i, a.task⟩ = .calling := (stages_eq hf a.task).trans hstage
    rw [answer_eq hf hcalling]
    exact accounted_giveBack (fs.modify i fun f => f.answered a) h (hown ▸ rfl) rfl
      (stages_modify _ hf (stage_answered f a))

/-! ## Tasks that are dropped -/

theorem Accounted.drop (h : fs.Accounted total) (i : Nat) (task : Task) :
    (fs.drop i task).Accounted total := by
  unfold Fetches.drop
  split
  · exact h
  · rename_i f hf
    have hholds : (fs.stages ⟨i, task⟩).holdsPermit = f.holdsPermit task := by
      rw [stages_eq hf]
      have hplain : ∀ {α : Type} (s : Stage α), s.plain.holdsPermit = s.holdsPermit := by
        intro α s
        cases s <;> rfl
      cases task <;> exact hplain _
    have hstages := stages_modify ({ fs with permits := fs.permits.leave ⟨i, task⟩ })
      (g := (·.without task)) hf (stage_without f task)
    simp only
    split
    · rename_i hheld
      have hline : ⟨i, task⟩ ∉ fs.permits.line :=
        h.notMem_line (Stage.ne_waiting_of_holdsPermit (hholds.trans hheld))
      rw [Permits.leave_of_notMem hline] at hstages ⊢
      exact accounted_giveBack (fs.modify i (·.without task)) h (hholds.trans hheld) rfl
        hstages
    · rename_i hheld
      rw [Accounted, hstages]
      exact h.leave (hholds.trans (Bool.eq_false_iff.mpr hheld))

theorem stages_giveBack_of_ne {t : Ticket} {s : Stage Unit} (h : fs.stages t = s)
    (hs : s ≠ .waiting) : fs.giveBack.stages t = s := by
  rcases hgive : fs.permits.giveBack with ⟨_ | next, permits⟩
  · rw [giveBack, hgive]
    exact h
  · rw [stages_giveBack hgive]
    by_cases ht : t = next
    · rw [← ht, Function.update_self, h]
      cases s <;> first | rfl | contradiction
    · rw [Function.update_of_ne ht, h]

theorem stages_drop {t : Ticket} (h : t = ⟨i, task⟩ ∨ fs.stages t = .idle) :
    (fs.drop i task).stages t = .idle := by
  unfold drop
  rcases hf : fs.fetches[i]? with _ | f
  · rcases h with rfl | h
    · simp only [stages, hf]
      rfl
    · exact h
  · have hrest : ({ fs with permits := fs.permits.leave ⟨i, task⟩ }.modify i
        (·.without task)).stages t = .idle := by
      rw [stages_modify ({ fs with permits := fs.permits.leave ⟨i, task⟩ })
        (g := (·.without task)) hf (stage_without f task)]
      by_cases ht : t = ⟨i, task⟩
      · rw [ht, Function.update_self]
      · rw [Function.update_of_ne ht]
        exact h.resolve_left ht
    simp only
    split
    · exact stages_giveBack_of_ne hrest nofun
    · exact hrest

def dropAll (i : Nat) (fs : Fetches σ) : Fetches σ :=
  [Task.base, .balance, .pillars].foldl (drop i) fs

theorem stages_dropAll (fs : Fetches σ) (i : Nat) (task : Task) :
    (fs.dropAll i).stages ⟨i, task⟩ = .idle := by
  cases task with
  | base => exact stages_drop (.inr (stages_drop (.inr (stages_drop (.inl rfl)))))
  | balance => exact stages_drop (.inr (stages_drop (.inl rfl)))
  | pillars => exact stages_drop (.inl rfl)

theorem stages_clear (fs : Fetches σ) (h : ∀ task, fs.stages ⟨i, task⟩ = .idle) :
    (fs.modify i fun _ => { cancelled := true }).stages = fs.stages := by
  funext ⟨j, t⟩
  by_cases hj : i = j
  · subst hj
    rw [h t]
    rcases hf : fs.fetches[i]? with _ | f
    · simp [stages, modify, hf]
    · cases t <;> simp [stages, modify, hf, Fetch.stage, Stage.plain]
  · simp [stages, modify, hj]

theorem Accounted.cancel (h : fs.Accounted total) (i : Nat) : (fs.cancel i).Accounted total := by
  unfold Fetches.cancel
  split
  · exact h
  · split
    · exact h
    · have hdropped : (fs.dropAll i).Accounted total :=
        ((h.drop i .base).drop i .balance).drop i .pillars
      have hclear := stages_clear ((fs.dropAll i).onFlights
        ((fs.dropAll i).flights.cancel i)) (fs.stages_dropAll i)
      rw [Accounted]
      exact hclear ▸ hdropped

/-! ## All moves -/

theorem stages_fetch (S : Store σ) (now : Nat) (fs : Fetches σ) (key : String) :
    (fs.step S now (.fetch key)).stages = fs.stages := by
  funext ⟨j, t⟩
  simp only [stages, Fetches.step, List.getElem?_append]
  split
  · rfl
  · rename_i hge
    rw [List.getElem?_singleton, List.getElem?_eq_none (Nat.le_of_not_lt hge)]
    split
    · cases t <;> rfl
    · rfl

/-- **No move loses a permit or makes one.** -/
theorem Accounted.step (S : Store σ) (now : Nat) (h : fs.Accounted total) (m : Move) :
    (fs.step S now m).Accounted total := by
  cases m with
  | fetch key =>
      rw [Accounted, stages_fetch]
      exact h
  | proceed i task => exact h.proceed S now i task
  | answer i a => exact h.answer i a
  | cancel i => exact h.cancel i
  | shutdown => exact h.close

end Fetches

end Almanac
