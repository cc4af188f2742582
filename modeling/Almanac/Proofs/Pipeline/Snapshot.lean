import Mathlib
import Almanac.Proofs.Pipeline.Promptness

/-!
# Reports on snapshots

A new pipeline over a snapshot makes the report that the snapshot's chart gives directly,
with the analyses that the snapshot has (`Snapshot.generate_eq`).
-/

namespace Almanac.Snapshot

variable {orders : List Order} {snapshot : Snapshot} {e : Snapshot} {log : Log}

def answer (s : Snapshot) : Task → Fetches.Answer
  | .base => .base s.base
  | .balance => .balance s.balanceFor
  | .pillars => .pillars s.pillarsFor

theorem call_engine (profile : Profile) (s : Snapshot) (task : Task) :
    engine.call profile s task = (0, s.answer task, s) := by
  cases task <;> rfl

theorem instant_engine : engine.Instant := fun profile s task => by rw [call_engine]

theorem calls_engine (h : engine.Calls orders snapshot log e) :
    e = snapshot ∧ ∀ i a, (i, a) ∈ log → ∃ task, a = snapshot.answer task := by
  induction h with
  | none => exact ⟨rfl, nofun⟩
  | @call log e k o before order task ih =>
      obtain ⟨rfl, hlog⟩ := ih
      rw [call_engine]
      refine ⟨rfl, fun i a ha => ?_⟩
      rcases List.mem_append.mp ha with hold | hnew
      · exact hlog i a hold
      · exact ⟨task, (Prod.mk.inj (List.mem_singleton.mp hnew)).2⟩

/-- The charts that are worth something: the one of the snapshot, if it has periods. -/
def Good (s : Snapshot) (_ : String) (c : Chart) : Prop := c.periods.isEmpty = false ∧ c = s.chart

theorem trustworthy_engine (shape : Ranking.Shape) :
    Service.Trustworthy snapshot.Good engine shape orders snapshot where
  periods _ _ h := h.1
  drawn := by
    intro log e hcalls i key a c ha hdrawn _
    obtain ⟨task, htask⟩ := (calls_engine hcalls).2 i (.base a) ha
    cases task with
    | base =>
        obtain rfl := Fetches.Answer.base.inj htask
        simp only [Fetch.drawn, base] at hdrawn
        split at hdrawn
        · contradiction
        · rename_i hperiods
          obtain rfl := Except.ok.inj hdrawn
          exact ⟨Bool.eq_false_iff.mpr hperiods, rfl⟩
    | balance => cases htask
    | pillars => cases htask

def part {α : Type} (name : String) : Option α → Section α
  | some a => .present a
  | none => .absent ("No upstream data: snapshot has no " ++ name ++ " analysis")

theorem part_balanceFor (s : Snapshot) : Fetch.part s.balanceFor = part "balance" s.balance := by
  rw [balanceFor]
  cases s.balance with
  | none => decide
  | some a => rfl

theorem part_pillarsFor (s : Snapshot) : Fetch.part s.pillarsFor = part "pillar" s.pillars := by
  rw [pillarsFor]
  cases s.pillars with
  | none => decide
  | some a => rfl

/-- The report on a snapshot that an order gets, made without any pipeline. -/
def report (s : Snapshot) (shape : Ranking.Shape) (o : Order) : Except Failure Report :=
  if o.reference.isBefore o.profile.birthDate then
    .error (.invalidProfile (.referenceBeforeBirth o.reference o.profile.birthDate))
  else
    (Ranking.rank s.chart o.profile.birthDate o.reference shape).map fun view =>
      ⟨view, s.chart.pillars, part "balance" s.balance, part "pillar" s.pillars⟩

theorem report_of_answered {shape : Ranking.Shape} {o : Order} {key : String} {i : Nat}
    {r : Except Failure Report} (hafter : o.reference.isBefore o.profile.birthDate = false)
    (hlog : ∀ i a, (i, a) ∈ log → ∃ task, a = snapshot.answer task)
    (h : o.Answered (snapshot.Good key) shape (fun a => (i, a) ∈ log) r) :
    r = snapshot.report shape o := by
  rw [report, if_neg (Bool.eq_false_iff.mp hafter)]
  cases h with
  | missing failed =>
      obtain ⟨task, htask⟩ := hlog _ _ failed
      cases task <;> cases htask
  | @empty c drawn hnone =>
      obtain ⟨task, htask⟩ := hlog _ _ drawn
      cases task with
      | base =>
          obtain rfl := Except.ok.inj (Fetches.Answer.base.inj htask)
          rw [Ranking.rank_eq_error hnone]
          rfl
      | balance => cases htask
      | pillars => cases htask
  | report right ranked balanced detailed =>
      obtain ⟨-, rfl⟩ := right
      obtain ⟨task, htask⟩ := hlog _ _ balanced
      obtain ⟨task', htask'⟩ := hlog _ _ detailed
      cases task <;> cases htask
      cases task' <;> cases htask'
      rw [ranked, part_balanceFor, part_pillarsFor]
      rfl

/-- **A new pipeline over a snapshot makes the report on it**, whatever its cache has room
for and however long it keeps anything. -/
theorem generate_eq {σ : Type} {S : Store σ} {Holds : σ → String → ByteArray → Prop}
    (hS : S.Faithful Holds) (settings : Settings) {store : σ}
    (hstore : ∀ key payload, ¬Holds store key payload) (snapshot : Snapshot) {o : Order}
    (hlimit : 0 < (Pipeline.ofSettings settings ⟨.ofSettings settings.cache, store⟩
      snapshot).deadlineFor o) :
    ((Pipeline.ofSettings settings ⟨.ofSettings settings.cache, store⟩ snapshot).generate S engine
      o).1 = snapshot.report settings.ranking o := by
  have hsound : (Pipeline.ofSettings settings ⟨.ofSettings settings.cache, store⟩ snapshot).Sound
      Holds snapshot.Good settings.ranking :=
    Pipeline.sound_ofSettings settings settings.cache hstore snapshot
  rcases hbefore : o.reference.isBefore o.profile.birthDate with _ | _
  · have haccept : Pipeline.accept o = .ok o := by
      rw [Pipeline.accept_eq, hbefore]
      rfl
    obtain ⟨log, e, hcalls, hanswered⟩ := hsound.generate_of_instant hS instant_engine rfl
      (Nat.lt_of_lt_of_le Nat.one_pos (Nat.le_max_right _ _)) hlimit
      (trustworthy_engine settings.ranking) haccept
    exact report_of_answered hbefore (calls_engine hcalls).2 hanswered
  · rw [Pipeline.generate_of_isBefore hbefore, report, if_pos hbefore]

end Almanac.Snapshot
