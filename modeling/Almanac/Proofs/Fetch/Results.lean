import Mathlib
import Almanac.Fetch.Basic

/-!
# What a fetch's results are made of

As long as permits are given, every result of a task is made of an answer of the engine
(`Fetches.Backed`), and a move of a task moves at most one flight (`Fetches.Moves`).
-/

namespace Almanac

variable {α : Type}

namespace Stage

theorem eq_ended {s : Stage α} {r : α} (h : s.result? = some r) : s = .ended r := by
  cases s with
  | ended result => rw [← Option.some.inj h]
  | _ => cases h

def Backed (P : α → Prop) (s : Stage α) : Prop := ∀ r, s = .ended r → P r

namespace Backed

variable {P Q : α → Prop} {s : Stage α}

theorem mono (h : s.Backed P) (hle : ∀ r, P r → Q r) : s.Backed Q := fun r hr => hle r (h r hr)

theorem of_none (h : s.result? = none) : s.Backed P := by
  rintro r rfl
  contradiction

theorem of_ended {r : α} (h : P r) : (ended r).Backed P := by
  rintro r' he
  rw [← ended.inj he]
  exact h

theorem permitted (h : s.Backed P) : s.permitted.Backed P := by
  cases s with
  | ended r => exact h
  | _ => exact of_none rfl

end Backed

end Stage

namespace Permits

theorem closed_giveBack (p : Permits) : p.giveBack.2.closed = p.closed := by
  unfold giveBack
  split <;> rfl

theorem closed_ask (p : Permits) (who : Ticket) : (p.ask who).2.closed = p.closed := by
  unfold ask
  split
  · rfl
  · split <;> rfl

theorem ask_ne_refused {p : Permits} (h : p.closed = false) (who : Ticket) :
    (p.ask who).1 ≠ .refused := by
  rw [ask, h]
  simp only [Bool.false_eq_true, if_false]
  split <;> exact fun h => by cases h

end Permits

/-! ## Single fetches -/

/-- Every result of a fetch is made of an answer that is known. -/
structure Fetch.Backed (Known : Fetches.Answer → Prop) (f : Fetch) : Prop where
  base : f.base.Backed fun r => ∃ a, Known (.base a) ∧ r = Fetch.drawn a
  balance : f.balance.Backed fun r => ∃ a, Known (.balance a) ∧ r = Fetch.part a
  pillars : f.pillars.Backed fun r => ∃ a, Known (.pillars a) ∧ r = Fetch.part a

namespace Fetch.Backed

variable {Known Known' : Fetches.Answer → Prop} {f : Fetch}

theorem mono (h : f.Backed Known) (hle : ∀ a, Known a → Known' a) : f.Backed Known' where
  base := h.base.mono fun _ hr => hr.imp fun _ ha => ⟨hle _ ha.1, ha.2⟩
  balance := h.balance.mono fun _ hr => hr.imp fun _ ha => ⟨hle _ ha.1, ha.2⟩
  pillars := h.pillars.mono fun _ hr => hr.imp fun _ ha => ⟨hle _ ha.1, ha.2⟩

theorem of_idle {c : Bool} : Fetch.Backed Known { cancelled := c } :=
  ⟨.of_none rfl, .of_none rfl, .of_none rfl⟩

theorem permitted (h : f.Backed Known) (task : Task) : (f.permitted task).Backed Known := by
  cases task with
  | base => exact ⟨h.base.permitted, h.balance, h.pillars⟩
  | balance => exact ⟨h.base, h.balance.permitted, h.pillars⟩
  | pillars => exact ⟨h.base, h.balance, h.pillars.permitted⟩

theorem without (h : f.Backed Known) (task : Task) : (f.without task).Backed Known := by
  cases task with
  | base => exact ⟨.of_none rfl, h.balance, h.pillars⟩
  | balance => exact ⟨h.base, .of_none rfl, h.pillars⟩
  | pillars => exact ⟨h.base, h.balance, .of_none rfl⟩

end Fetch.Backed

namespace Fetches

variable {σ : Type} {Known Known' : Nat → Answer → Prop} {fs : Fetches σ}

def Backed (Known : Nat → Answer → Prop) (fs : Fetches σ) : Prop :=
  ∀ (i : Nat) (f : Fetch), fs.fetches[i]? = some f → f.Backed (Known i)

/-! ## What stays the same -/

theorem flights_giveBack (fs : Fetches σ) : fs.giveBack.flights = fs.flights := by
  unfold giveBack
  split <;> rfl

theorem closed_giveBack (fs : Fetches σ) : fs.giveBack.permits.closed = fs.permits.closed := by
  have hclosed := fs.permits.closed_giveBack
  unfold giveBack
  split <;> rename_i hgive <;> rw [hgive] at hclosed <;> exact hclosed

theorem flights_drop (i : Nat) (fs : Fetches σ) (task : Task) :
    (fs.drop i task).flights = fs.flights := by
  unfold drop
  split
  · rfl
  · simp only
    split
    · rw [flights_giveBack]
      rfl
    · rfl

theorem closed_drop (i : Nat) (fs : Fetches σ) (task : Task) :
    (fs.drop i task).permits.closed = fs.permits.closed := by
  unfold drop
  split
  · rfl
  · simp only
    split
    · rw [closed_giveBack]
      rfl
    · rfl

theorem flights_answer (i : Nat) (a : Answer) (fs : Fetches σ) :
    (fs.answer i a).flights = fs.flights := by
  unfold answer
  split
  · rfl
  · cases a <;> simp only <;> split <;> first | rw [flights_giveBack]; rfl | rfl

theorem closed_answer (i : Nat) (a : Answer) (fs : Fetches σ) :
    (fs.answer i a).permits.closed = fs.permits.closed := by
  unfold answer
  split
  · rfl
  · cases a <;> simp only <;> split <;> first | rw [closed_giveBack]; rfl | rfl

section

variable (who : Ticket) (stage : Stage α) (refusal : α) (put : Stage α → Fetch → Fetch)

theorem flights_proceedCall (fs : Fetches σ) :
    (fs.proceedCall who stage refusal put).flights = fs.flights := by
  cases stage with
  | idle =>
      rw [proceedCall]
      split <;> rfl
  | waiting =>
      rw [proceedCall]
      split <;> rfl
  | granted =>
      rw [proceedCall]
      split
      · rw [flights_giveBack]
        rfl
      · rfl
  | calling => rfl
  | ended r => rfl

theorem closed_proceedCall (fs : Fetches σ) :
    (fs.proceedCall who stage refusal put).permits.closed = fs.permits.closed := by
  cases stage with
  | idle =>
      have hclosed := fs.permits.closed_ask who
      rw [proceedCall]
      split <;> rename_i hask <;> rw [hask] at hclosed <;> exact hclosed
  | waiting =>
      rw [proceedCall]
      split <;> rfl
  | granted =>
      rw [proceedCall]
      split
      · rw [closed_giveBack]
        rfl
      · rfl
  | calling => rfl
  | ended r => rfl

/-- While permits are given, a task that goes on with its call stays as it is, or gets a
stage that is no result. -/
theorem proceedCall_eq {fs : Fetches σ} (h : fs.permits.closed = false) :
    fs.proceedCall who stage refusal put = fs ∨
      ∃ permits stage', stage'.result? = none ∧ stage.result? = none ∧ stage.isCalling = false ∧
        fs.proceedCall who stage refusal put =
          { fs with permits }.modify who.fetch (put stage') := by
  cases stage with
  | idle =>
      -- A refusal would be a result, but nobody is refused yet.
      have hrefused := Permits.ask_ne_refused h who
      rw [proceedCall]
      split <;> rename_i permits hask
      · exact .inr ⟨permits, .granted, rfl, rfl, rfl, rfl⟩
      · exact .inr ⟨permits, .waiting, rfl, rfl, rfl, rfl⟩
      · rw [hask] at hrefused
        exact absurd rfl hrefused
  | waiting =>
      rw [proceedCall, h]
      exact .inl rfl
  | granted =>
      rw [proceedCall, h]
      exact .inr ⟨fs.permits, .calling, rfl, rfl, rfl, rfl⟩
  | calling => exact .inl rfl
  | ended r => exact .inl rfl

end

/-! ## Results -/

theorem Backed.mono (h : fs.Backed Known) (hle : ∀ i a, Known i a → Known' i a) :
    fs.Backed Known' := fun i f hf => (h i f hf).mono (hle i)

theorem Backed.modify (h : fs.Backed Known) (i : Nat) {g : Fetch → Fetch}
    (hg : ∀ f : Fetch, fs.fetches[i]? = some f → f.Backed (Known i) → (g f).Backed (Known i)) :
    (fs.modify i g).Backed Known := by
  intro j f hf
  rw [Fetches.modify, List.getElem?_modify] at hf
  obtain ⟨f', hf', rfl⟩ := Option.map_eq_some_iff.mp hf
  split
  · rename_i hij
    subst hij
    exact hg f' hf' (h i f' hf')
  · exact h j f' hf'

theorem Backed.giveBack (h : fs.Backed Known) : fs.giveBack.Backed Known := by
  unfold Fetches.giveBack
  split
  · exact h
  · refine Backed.modify ?_ _ fun f _ hf => hf.permitted _
    exact h

theorem Backed.drop (h : fs.Backed Known) (i : Nat) (task : Task) :
    (fs.drop i task).Backed Known := by
  have hrest : ({ fs with permits := fs.permits.leave ⟨i, task⟩ }.modify i
      (·.without task)).Backed Known := by
    refine Backed.modify ?_ i fun f _ hf => hf.without task
    exact h
  unfold Fetches.drop
  split
  · exact h
  · simp only
    split
    · exact hrest.giveBack
    · exact hrest

/-- A task that goes on with its call gets no result, if permits are given. -/
theorem Backed.proceedCall (h : fs.Backed Known) (hopen : fs.permits.closed = false)
    (who : Ticket) (stage : Stage α) (refusal : α) {put : Stage α → Fetch → Fetch}
    (hput : ∀ (f : Fetch) (stage : Stage α), stage.result? = none →
      f.Backed (Known who.fetch) → (put stage f).Backed (Known who.fetch)) :
    (fs.proceedCall who stage refusal put).Backed Known := by
  rcases proceedCall_eq who stage refusal put hopen with he | ⟨permits, stage', hs', -, -, he⟩ <;>
    rw [he]
  · exact h
  · refine Backed.modify ?_ _ fun f _ hf => hput f stage' hs' hf
    exact h

theorem Backed.proceed (S : Store σ) (now : Nat) (h : fs.Backed Known)
    (hopen : fs.permits.closed = false) (i : Nat) (task : Task) :
    (fs.proceed S now i task).Backed Known := by
  have hbase : ∀ (f : Fetch) (stage : Stage (Except Failure Chart)), stage.result? = none →
      f.Backed (Known i) → (putBase stage f).Backed (Known i) := fun f stage hstage hf =>
    ⟨.of_none hstage, hf.balance, hf.pillars⟩
  unfold Fetches.proceed
  split
  · exact h
  · split
    · exact h
    · cases task with
      | base =>
          simp only
          split
          · exact h
          · refine Backed.modify ?_ i fun f _ hf => hbase f .idle rfl hf
            exact h
          · exact h.proceedCall hopen ⟨i, .base⟩ _ _ hbase
      | balance =>
          refine h.proceedCall hopen ⟨i, .balance⟩ _ _ fun f stage hstage hf => ?_
          exact ⟨hf.base, .of_none hstage, hf.pillars⟩
      | pillars =>
          refine h.proceedCall hopen ⟨i, .pillars⟩ _ _ fun f stage hstage hf => ?_
          exact ⟨hf.base, hf.balance, .of_none hstage⟩

theorem Backed.answer (h : fs.Backed Known) {i : Nat} {a : Answer} (ha : Known i a) :
    (fs.answer i a).Backed Known := by
  unfold Fetches.answer
  split
  · exact h
  · cases a with
    | base result =>
        simp only
        split
        · refine Backed.giveBack (h.modify i fun f _ hf => ?_)
          exact ⟨.of_ended ⟨result, ha, rfl⟩, hf.balance, hf.pillars⟩
        · exact h
    | balance result =>
        simp only
        split
        · refine Backed.giveBack (h.modify i fun f _ hf => ?_)
          exact ⟨hf.base, .of_ended ⟨result, ha, rfl⟩, hf.pillars⟩
        · exact h
    | pillars result =>
        simp only
        split
        · refine Backed.giveBack (h.modify i fun f _ hf => ?_)
          exact ⟨hf.base, hf.balance, .of_ended ⟨result, ha, rfl⟩⟩
        · exact h

theorem Backed.cancel (h : fs.Backed Known) (i : Nat) : (fs.cancel i).Backed Known := by
  unfold Fetches.cancel
  split
  · exact h
  · split
    · exact h
    · have hdropped := ((h.drop i .base).drop i .balance).drop i .pillars
      refine Backed.modify ?_ i fun _ _ _ => .of_idle
      exact hdropped

/-- **Results are made of answers**, if every answer that is given is known. -/
theorem Backed.step (S : Store σ) (now : Nat) (h : fs.Backed Known)
    (hopen : fs.permits.closed = false) {m : Move}
    (hm : ∀ i a, m = .answer i a → Known i a) : (fs.step S now m).Backed Known := by
  cases m with
  | fetch key =>
      intro i f hf
      have hf : (fs.fetches ++ [({} : Fetch)])[i]? = some f := hf
      rw [List.getElem?_append] at hf
      split at hf
      · exact h i f hf
      · obtain rfl := List.mem_singleton.mp (List.mem_of_getElem? hf)
        exact .of_idle
  | proceed i task => exact h.proceed S now hopen i task
  | answer i a => exact h.answer (hm i a rfl)
  | cancel i => exact h.cancel i
  | shutdown => exact h

theorem closed_step (S : Store σ) (now : Nat) (fs : Fetches σ) {m : Move} (hm : m ≠ .shutdown) :
    (fs.step S now m).permits.closed = fs.permits.closed := by
  cases m with
  | fetch key => rfl
  | proceed i task =>
      rw [step, proceed]
      split
      · rfl
      · split
        · rfl
        · cases task with
          | base =>
              simp only
              split
              · rfl
              · rfl
              · exact closed_proceedCall _ _ _ _ _
          | balance => exact closed_proceedCall _ _ _ _ _
          | pillars => exact closed_proceedCall _ _ _ _ _
  | answer i a => exact closed_answer i a fs
  | cancel i =>
      rw [step, cancel]
      split
      · rfl
      · split
        · rfl
        · simp only [List.foldl_cons, List.foldl_nil, modify, onFlights, closed_drop]
  | shutdown => exact absurd rfl hm

/-! ## Flights -/

inductive Moves (fs : Fetches σ) : Move → Flights.Move → Prop where
  | call (key : String) : Moves fs (.fetch key) (.call key)
  | proceed (i : Nat) : Moves fs (.proceed i .base) (.proceed i)
  /-- The engine call of the flight is over. -/
  | conclude {i : Nat} {f : Fetch} {drawn : Except Failure Chart} (fetch : fs.fetches[i]? = some f)
      (ended : f.base = .ended drawn) : Moves fs (.proceed i .base) (.conclude i drawn)
  | cancel (i : Nat) : Moves fs (.cancel i) (.cancel i)
  | shutdown : Moves fs .shutdown .shutdown

/-- A move of a fetch moves at most one flight. -/
theorem flights_step (S : Store σ) (now : Nat) (fs : Fetches σ) (m : Move) :
    (fs.step S now m).flights = fs.flights ∨
      ∃ move, fs.Moves m move ∧ (fs.step S now m).flights = fs.flights.step S now move := by
  cases m with
  | fetch key => exact .inr ⟨_, .call key, rfl⟩
  | proceed i task =>
      rw [step, proceed]
      split
      · exact .inl rfl
      · rename_i f hf
        split
        · exact .inl rfl
        · cases task with
          | base =>
              simp only
              split
              · exact .inr ⟨_, .proceed i, rfl⟩
              · rename_i hended
                exact .inr ⟨_, .conclude hf hended, rfl⟩
              · exact .inl (flights_proceedCall _ _ _ _ _)
          | balance => exact .inl (flights_proceedCall _ _ _ _ _)
          | pillars => exact .inl (flights_proceedCall _ _ _ _ _)
  | answer i a => exact .inl (flights_answer i a fs)
  | cancel i =>
      rw [step, cancel]
      split
      · exact .inl rfl
      · split
        · exact .inl rfl
        · refine .inr ⟨_, .cancel i, ?_⟩
          simp only [List.foldl_cons, List.foldl_nil, modify, onFlights, flights_drop]
          rfl
  | shutdown => exact .inr ⟨_, .shutdown, rfl⟩

end Fetches

end Almanac
