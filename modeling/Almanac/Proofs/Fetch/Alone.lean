import Mathlib
import Almanac.Proofs.Fetch.Progress

/-!
# A fetch that is alone

A fetch that shares neither the cache nor the permits with another one is never held up,
except by the engine.  `Fetch.left` counts the steps that a task of it may still take;
every step of the task takes one off (`Fetches.Alone.proceed`, `Fetches.Alone.answer`) and
leaves the other tasks where they are.
-/

namespace Almanac

/-! ## A flight that is alone -/

/-- The steps that a flight may still take, those of its engine call apart. -/
def Flight.Phase.way : Phase → Nat
  | called => 10
  | asking => 9
  | queued _ => 8
  | rechecking _ => 7
  | drawing _ => 2
  | publishing _ _ => 1
  | handed _ _ => 1
  | done _ => 0
  | cancelled => 0

namespace Flights

variable {σ : Type} {fs : Flights σ} {key : String} {p : Flight.Phase}

theorem phase_single (h : fs.flights = [⟨key, p⟩]) : fs.phase 0 = p := by
  rw [phase, h]
  rfl

theorem flights_set (h : fs.flights = [⟨key, p⟩]) (q : Flight.Phase) :
    (fs.set 0 q).flights = [⟨key, q⟩] := by
  rw [set, h]
  rfl

theorem flights_land (h : fs.flights = [⟨key, p⟩]) (cell : Nat) (last : Flight.Phase) :
    (fs.land 0 key cell last).flights = [⟨key, last⟩] :=
  flights_set h last

theorem flights_deliver (h : fs.flights = [⟨key, p⟩]) (cell : Nat) (chart : Chart) :
    (fs.deliver 0 key cell chart).flights = [⟨key, .done (.ok chart)⟩] := by
  obtain ⟨q, hq⟩ : ∃ q, (fs.hand cell chart).flights = [⟨key, q⟩] := by
    rw [hand, h]
    cases p with
    | queued c =>
        by_cases hc : c = cell
        · exact ⟨.handed cell chart, by simp [hc]⟩
        · exact ⟨.queued c, by simp [hc]⟩
    | _ => exact ⟨_, rfl⟩
  exact flights_land hq cell _

/-- **A flight that is alone is never held up.**  When it begins to draw, there is room
for the four steps of an engine call. -/
theorem proceed_alone (S : Store σ) (now : Nat) (h : fs.flights = [⟨key, p⟩])
    (hkept : p ≠ .cancelled) (hdrawing : p.isDrawing = false) :
    ∃ q, (fs.proceed S now 0).flights = [⟨key, q⟩] ∧ q ≠ .cancelled ∧
      q.way + 4 * q.isDrawing.toNat ≤ p.way - 1 := by
  have hget : fs.flights[0]? = some ⟨key, p⟩ := by rw [h]; rfl
  cases p with
  | called =>
      simp only [proceed, hget]
      split
      · exact ⟨_, flights_set h _, by rintro ⟨⟩, Nat.zero_le _⟩
      · exact ⟨_, flights_set h _, by rintro ⟨⟩, Nat.le_refl _⟩
  | asking =>
      simp only [proceed, hget]
      split
      · exact ⟨_, flights_set h _, by rintro ⟨⟩, Nat.zero_le _⟩
      · exact ⟨_, flights_set h _, by rintro ⟨⟩, Nat.le_refl _⟩
  | queued cell =>
      have hunled : fs.isLed cell = false := by
        rw [isLed, h]
        rfl
      simp only [proceed, hget, hunled, Bool.false_eq_true, if_false]
      split
      · exact ⟨_, flights_deliver h _ _, by rintro ⟨⟩, Nat.zero_le _⟩
      · exact ⟨_, flights_set h _, by rintro ⟨⟩, Nat.le_refl _⟩
  | rechecking cell =>
      simp only [proceed, hget]
      split
      · exact ⟨_, flights_deliver h _ _, by rintro ⟨⟩, Nat.zero_le _⟩
      · exact ⟨_, flights_set h _, by rintro ⟨⟩, Nat.le_refl _⟩
  | publishing cell chart =>
      simp only [proceed, hget]
      exact ⟨_, flights_deliver h _ _, by rintro ⟨⟩, Nat.zero_le _⟩
  | handed cell chart =>
      simp only [proceed, hget]
      exact ⟨_, flights_land h _ _, by rintro ⟨⟩, Nat.zero_le _⟩
  | done outcome =>
      simp only [proceed, hget]
      exact ⟨_, h, by rintro ⟨⟩, Nat.le_refl _⟩
  | drawing cell => contradiction
  | cancelled => contradiction

/-- The end of the drawing is near the end of the flight. -/
theorem conclude_alone (now : Nat) (drawn : Except Failure Chart) (h : fs.flights = [⟨key, p⟩])
    (hdrawing : p.isDrawing = true) :
    ∃ q, (fs.conclude now 0 drawn).flights = [⟨key, q⟩] ∧ q ≠ .cancelled ∧
      q.isDrawing = false ∧ q.way < p.way := by
  have hget : fs.flights[0]? = some ⟨key, p⟩ := by rw [h]; rfl
  cases p with
  | drawing cell =>
      cases drawn with
      | error e =>
          simp only [conclude, hget]
          exact ⟨_, flights_land h _ _, by rintro ⟨⟩, rfl, Nat.succ_pos _⟩
      | ok chart =>
          simp only [conclude, hget]
          exact ⟨_, flights_set h _, by rintro ⟨⟩, rfl, Nat.lt_succ_self _⟩
  | _ => contradiction

end Flights

/-! ## The stages of a fetch -/

namespace Stage

variable {α : Type}

def plain : Stage α → Stage Unit
  | idle => idle
  | waiting => waiting
  | granted => granted
  | calling => calling
  | ended _ => ended ()

def isQuiet : Stage α → Bool
  | idle => true
  | ended _ => true
  | _ => false

/-- The steps that an engine call may still take; `called` tells whether it was made. -/
def way (called : Bool) : Stage α → Nat
  | idle => 4
  | waiting => 4
  | granted => 3
  | calling => if called then 1 else 2
  | ended _ => 0

theorem isCalling_plain (s : Stage α) : s.plain.isCalling = s.isCalling := by cases s <;> rfl

theorem eq_calling {s : Stage α} (h : s.isCalling = true) : s = .calling := by
  cases s <;> first | rfl | cases h

theorem isCalling_of_isQuiet {s : Stage α} (h : s.isQuiet = true) : s.isCalling = false := by
  cases s <;> first | rfl | cases h

theorem holdsPermit_of_isQuiet {s : Stage α} (h : s.isQuiet = true) : s.holdsPermit = false := by
  cases s <;> first | rfl | cases h

theorem result?_of_way {s : Stage α} {called : Bool} (h : s.plain.way called = 0) :
    ∃ r, s.result? = some r := by
  cases s with
  | ended r => exact ⟨r, rfl⟩
  | calling => cases called <;> cases h
  | _ => cases h

end Stage

namespace Fetch

def stage (f : Fetch) : Task → Stage Unit
  | .base => f.base.plain
  | .balance => f.balance.plain
  | .pillars => f.pillars.plain

theorem isCalling_stage (f : Fetch) (task : Task) :
    (f.stage task).isCalling = f.isCalling task := by
  cases task <;> exact Stage.isCalling_plain _

theorem stage_of_isCalling {f : Fetch} {task : Task} (h : f.isCalling task = true) :
    f.stage task = .calling :=
  Stage.eq_calling ((f.isCalling_stage task).trans h)

/-- The steps that a task of a fetch may still take, whose flight is in a phase. -/
def left (f : Fetch) (p : Flight.Phase) (called : Bool) : Task → Nat
  | .base => p.way + if p.isDrawing then (f.stage .base).way called else 0
  | .balance => (f.stage .balance).way called
  | .pillars => (f.stage .pillars).way called

theorem left_le (f : Fetch) (p : Flight.Phase) (called : Bool) (task : Task) :
    f.left p called task ≤ 10 := by
  have hway : ∀ s : Stage Unit, s.way called ≤ 4 := by
    rintro (_ | _ | _ | _ | r) <;> cases called <;> simp [Stage.way]
  cases task with
  | base =>
      have hbase := hway (f.stage .base)
      rw [left]
      cases p <;> simp only [Flight.Phase.way, Flight.Phase.isDrawing, Bool.false_eq_true,
        if_false, if_true] <;> omega
  | balance => exact Nat.le_trans (hway _) (by decide)
  | pillars => exact Nat.le_trans (hway _) (by decide)

theorem left_congr {f g : Fetch} {task : Task} (h : g.stage task = f.stage task)
    (p : Flight.Phase) (called : Bool) : g.left p called task = f.left p called task := by
  cases task <;> simp only [left, h]

theorem left_le_of_way {f g : Fetch} {p : Flight.Phase} {task : Task} {called called' : Bool}
    (hbase : task = .base → p.isDrawing = true ∧ 0 < (f.stage .base).way called)
    (h : (g.stage task).way called' ≤ (f.stage task).way called - 1) :
    g.left p called' task ≤ f.left p called task - 1 := by
  cases task with
  | base =>
      obtain ⟨hdrawing, hpos⟩ := hbase rfl
      simp only [left, hdrawing, if_true]
      omega
  | balance => exact h
  | pillars => exact h

end Fetch

/-! ## Steps -/

namespace Fetches

variable {σ : Type} {fs : Fetches σ} {task : Task} {p : Flight.Phase} {f : Fetch}

/-- The fetches are a single one, whose flight is in a phase, and of whose tasks only one
may be under way; for that one there is a permit. -/
structure Alone (task : Task) (p : Flight.Phase) (f : Fetch) (fs : Fetches σ) : Prop where
  flights : ∃ key, fs.flights.flights = [⟨key, p⟩]
  fetches : fs.fetches = [f]
  /-- Neither the flight nor the fetch was cancelled. -/
  kept : p ≠ .cancelled ∧ f.cancelled = false
  given : fs.permits.closed = false ∧ fs.permits.line = []
  permit : 0 < fs.permits.free + (f.stage task).holdsPermit.toNat
  unwaiting : f.stage task ≠ .waiting
  /-- The engine is asked for a chart only while the flight is drawing. -/
  undrawn : p.isDrawing = false → f.stage .base = .idle
  quiet : ∀ t, t ≠ task → (f.stage t).isQuiet = true

theorem Alone.phase (h : fs.Alone task p f) : fs.flights.phase 0 = p := by
  obtain ⟨key, hkey⟩ := h.flights
  exact Flights.phase_single hkey

theorem Alone.get (h : fs.Alone task p f) : fs.fetches[0]? = some f := by
  rw [h.fetches]
  rfl

theorem Alone.isCalling (h : fs.Alone task p f) (t : Task) :
    fs.isCalling 0 t = (f.stage t).isCalling := by
  rw [isCalling_eq, h.get, Fetch.isCalling_stage]
  rfl

theorem Alone.put (h : fs.Alone task p f) {g : Fetch} {s : Stage Unit} {permits : Permits}
    {stirred : Bool} (hstage : ∀ t, g.stage t = if t = task then s else f.stage t)
    (hkept : g.cancelled = f.cancelled) (hdrawing : task = .base → p.isDrawing = true)
    (hgiven : permits.closed = fs.permits.closed ∧ permits.line = fs.permits.line)
    (hpermit : 0 < permits.free + s.holdsPermit.toNat) (hs : s ≠ .waiting) :
    ({ fs with permits, stirred, fetches := [g] } : Fetches σ).Alone task p g := by
  have hown : g.stage task = s := by rw [hstage, if_pos rfl]
  refine ⟨h.flights, rfl, ⟨h.kept.1, hkept.trans h.kept.2⟩, ?_, ?_, ?_, ?_, ?_⟩
  · exact ⟨hgiven.1.trans h.given.1, hgiven.2.trans h.given.2⟩
  · rw [hown]
    exact hpermit
  · rw [hown]
    exact hs
  · intro hundrawn
    have hne : Task.base ≠ task := by
      rintro rfl
      rw [hdrawing rfl] at hundrawn
      contradiction
    rw [hstage, if_neg hne]
    exact h.undrawn hundrawn
  · intro t ht
    rw [hstage, if_neg ht]
    exact h.quiet t ht

/-- The task under way goes on with its engine call: it gets a permit or makes the call, if
there is no result yet. -/
theorem Alone.proceedCall {α : Type} (h : fs.Alone task p f) {stage : Stage α} (refusal : α)
    {put : Stage α → Fetch → Fetch} (hstage : f.stage task = stage.plain)
    (hput : ∀ s t, (put s f).stage t = if t = task then s.plain else f.stage t)
    (hkept : ∀ s, (put s f).cancelled = f.cancelled)
    (hdrawing : task = .base → p.isDrawing = true) (hcalling : stage.isCalling = false) :
    ∃ g, (fs.proceedCall ⟨0, task⟩ stage refusal put).Alone task p g ∧
      (g.stage task).way false ≤ (f.stage task).way false - 1 ∧
      ∀ t, t ≠ task → g.stage t = f.stage t := by
  have hown : ∀ s, (put s f).stage task = s.plain := fun s => by rw [hput, if_pos rfl]
  have hothers : ∀ s t, t ≠ task → (put s f).stage t = f.stage t :=
    fun s t ht => by rw [hput, if_neg ht]
  have hmodify : ∀ s, fs.fetches.modify 0 (put s) = [put s f] := by
    intro s
    rw [h.fetches]
    rfl
  have hpermit := h.permit
  cases stage with
  | idle =>
      have hfree : 0 < fs.permits.free := by
        rw [hstage] at hpermit
        exact hpermit
      have hask : fs.permits.ask ⟨0, task⟩
          = (.granted, { fs.permits with free := fs.permits.free - 1 }) := by
        rw [Permits.ask, if_neg (Bool.eq_false_iff.mp h.given.1), if_pos hfree]
      refine ⟨put .granted f, ?_, ?_, hothers _⟩
      · simp only [Fetches.proceedCall, hask, modify, hmodify]
        exact h.put (hput .granted) (hkept _) hdrawing ⟨rfl, rfl⟩ (Nat.succ_pos _) (by rintro ⟨⟩)
      · rw [hown, hstage]
        exact Nat.le_refl _
  | waiting => exact absurd hstage h.unwaiting
  | granted =>
      refine ⟨put .calling f, ?_, ?_, hothers _⟩
      · simp only [Fetches.proceedCall, h.given.1, Bool.false_eq_true, if_false, modify, hmodify]
        exact h.put (hput .calling) (hkept _) hdrawing ⟨rfl, rfl⟩ (Nat.succ_pos _) (by rintro ⟨⟩)
      · rw [hown, hstage]
        exact Nat.le_refl _
  | calling => contradiction
  | ended r =>
      refine ⟨f, h, ?_, fun _ _ => rfl⟩
      rw [hstage]
      exact Nat.le_refl _

/-- **The task under way takes one of the steps that it may still take**, unless the engine
is to answer it. -/
theorem Alone.proceed (S : Store σ) (now : Nat) (h : fs.Alone task p f)
    (hcalling : f.isCalling task = false) :
    ∃ q g, (fs.proceed S now 0 task).Alone task q g ∧
      g.left q false task ≤ f.left p false task - 1 ∧
      ∀ t, t ≠ task → g.left q false t = f.left p false t := by
  -- Steps of an engine call leave the flight alone.
  have hcall : ∀ {fs' : Fetches σ},
      (task = .base → p.isDrawing = true ∧ 0 < (f.stage .base).way false) →
      (∃ g, fs'.Alone task p g ∧ (g.stage task).way false ≤ (f.stage task).way false - 1 ∧
        ∀ t, t ≠ task → g.stage t = f.stage t) →
      ∃ q g, fs'.Alone task q g ∧ g.left q false task ≤ f.left p false task - 1 ∧
        ∀ t, t ≠ task → g.left q false t = f.left p false t := by
    rintro fs' hbase ⟨g, hg, hway, hothers⟩
    refine ⟨p, g, hg, Fetch.left_le_of_way hbase hway, ?_⟩
    intro t ht
    exact Fetch.left_congr (hothers t ht) p false
  rw [Fetches.proceed, h.get]
  simp only [h.kept.2, Bool.false_eq_true, if_false]
  cases task with
  | balance =>
      refine hcall (by rintro ⟨⟩) (h.proceedCall _ rfl ?_ (fun _ => rfl) (by rintro ⟨⟩) hcalling)
      rintro s (_ | _ | _) <;> rfl
  | pillars =>
      refine hcall (by rintro ⟨⟩) (h.proceedCall _ rfl ?_ (fun _ => rfl) (by rintro ⟨⟩) hcalling)
      rintro s (_ | _ | _) <;> rfl
  | base =>
      obtain ⟨key, hkey⟩ := h.flights
      simp only [h.phase]
      split
      · rename_i hdrawing
        obtain ⟨q, hq, hkept, hway⟩ := Flights.proceed_alone S now hkey h.kept.1 hdrawing
        have hidle := h.undrawn hdrawing
        refine ⟨q, f, ⟨⟨key, hq⟩, h.fetches, ⟨hkept, h.kept.2⟩, h.given, h.permit, h.unwaiting,
          fun _ => hidle, h.quiet⟩, ?_, ?_⟩
        · simp only [Fetch.left, hidle, hdrawing, Bool.false_eq_true, if_false]
          refine Nat.le_trans (Nat.le_of_eq ?_) hway
          cases q.isDrawing <;> rfl
        · rintro (_ | _ | _) ht
          · contradiction
          · rfl
          · rfl
      · rename_i drawn hdrawing hended
        obtain ⟨q, hq, hkept, hundrawn, hway⟩ := Flights.conclude_alone now drawn hkey hdrawing
        have hfree := h.permit
        simp only [Fetch.stage, hended] at hfree
        refine ⟨q, putBase .idle f, ⟨⟨key, hq⟩, ?_, ⟨hkept, h.kept.2⟩, h.given, hfree, by rintro ⟨⟩,
          fun _ => rfl, ?_⟩, ?_, ?_⟩
        · simp only [modify, onFlights, h.fetches]
          rfl
        · rintro (_ | _ | _) ht
          · contradiction
          · exact h.quiet .balance (by rintro ⟨⟩)
          · exact h.quiet .pillars (by rintro ⟨⟩)
        · simp only [Fetch.left, hundrawn, hdrawing, Bool.false_eq_true, if_false, if_true]
          omega
        · rintro (_ | _ | _) ht
          · contradiction
          · rfl
          · rfl
      · rename_i hdrawing hresult
        refine hcall (fun _ => ⟨hdrawing, ?_⟩) (h.proceedCall _ rfl ?_ (fun _ => rfl)
          (fun _ => hdrawing) hcalling)
        · cases hbase : f.base with
          | ended drawn => exact absurd hbase (hresult drawn)
          | _ => simp [Fetch.stage, hbase, Stage.plain, Stage.way]
        · rintro s (_ | _ | _) <;> rfl

/-- **The answer to the call of the task under way is a step of the task.** -/
theorem Alone.answer (h : fs.Alone task p f) {a : Answer} (ha : a.task = task)
    (hdrawing : task = .base → p.isDrawing = true) (hcalling : f.isCalling task = true) :
    ∃ g, (fs.answer 0 a).Alone task p g ∧ g.isCalling task = false ∧
      g.left p false task ≤ f.left p true task - 1 ∧
      ∀ t, t ≠ task → g.left p false t = f.left p false t := by
  subst ha
  have hanswer : fs.answer 0 a = { fs with
      permits := { fs.permits with free := fs.permits.free + 1 }, fetches := [f.answered a] } := by
    have hcalling' : fs.isCalling 0 a.task = true := by
      rw [h.isCalling, Fetch.isCalling_stage, hcalling]
    rw [answer_eq h.get hcalling', giveBack, Permits.giveBack]
    simp only [modify, h.given.2, h.fetches]
    rfl
  have hown : (f.answered a).stage a.task = .ended () := by cases a <;> rfl
  have hothers : ∀ t, t ≠ a.task → (f.answered a).stage t = f.stage t := by
    rintro (_ | _ | _) ht <;> cases a <;> first | rfl | contradiction
  have hway : (f.stage a.task).way true = 1 := by
    rw [Fetch.stage_of_isCalling hcalling]
    rfl
  refine ⟨f.answered a, ?_, ?_, ?_, fun t ht => Fetch.left_congr (hothers t ht) p _⟩
  · rw [hanswer]
    refine h.put (s := .ended ()) (fun t => ?_) (by cases a <;> rfl) hdrawing ⟨rfl, rfl⟩
      (Nat.succ_pos _) (by rintro ⟨⟩)
    by_cases ht : t = a.task
    · rw [if_pos ht, ht, hown]
    · rw [if_neg ht, hothers t ht]
  · rw [← Fetch.isCalling_stage, hown]
    rfl
  · refine Fetch.left_le_of_way (fun hbase => ⟨hdrawing hbase, ?_⟩) ?_
    · rw [← hbase, hway]
      exact Nat.one_pos
    · rw [hown]
      exact Nat.zero_le _

theorem Alone.isQuiet (h : fs.Alone task p f) {called : Bool} {t : Task}
    (hleft : f.left p called t = 0) : (f.stage t).isQuiet = true := by
  have hquiet : ∀ s : Stage Unit, s.way called = 0 → s.isQuiet = true := by
    rintro (_ | _ | _ | _ | r) hs
    case ended => rfl
    case calling => cases called <;> cases hs
    all_goals cases hs
  cases t with
  | base =>
      rcases hp : p.isDrawing with _ | _
      · rw [h.undrawn hp]
        rfl
      · simp only [Fetch.left, hp, if_true, Nat.add_eq_zero_iff] at hleft
        exact hquiet _ hleft.2
  | balance => exact hquiet _ hleft
  | pillars => exact hquiet _ hleft

/-- Once the task under way takes no more steps, any other may be the next. -/
theorem Alone.other (h : fs.Alone task p f) {called : Bool} (hleft : f.left p called task = 0)
    (next : Task) : fs.Alone next p f := by
  have hquiet : ∀ t, (f.stage t).isQuiet = true := by
    intro t
    by_cases ht : t = task
    · subst ht
      exact h.isQuiet hleft
    · exact h.quiet t ht
  have hfree := h.permit
  rw [Stage.holdsPermit_of_isQuiet (hquiet task)] at hfree
  refine ⟨h.flights, h.fetches, h.kept, h.given, Nat.lt_of_lt_of_le hfree (Nat.le_add_right _ _),
    ?_, h.undrawn, fun t _ => hquiet t⟩
  intro hwaiting
  have hnext := hquiet next
  rw [hwaiting] at hnext
  contradiction

/-- **A fetch whose tasks take no more steps has an outcome.** -/
theorem Alone.outcome (h : fs.Alone task p f) {called : Bool}
    (hleft : ∀ t, f.left p called t = 0) : ∃ outcome, fs.outcome? 0 = some outcome := by
  obtain ⟨drawn, hdrawn⟩ : ∃ drawn, p.outcome? = some drawn := by
    have hway := (Nat.add_eq_zero_iff.mp (hleft .base)).1
    cases p with
    | done drawn => exact ⟨drawn, rfl⟩
    | cancelled => exact absurd rfl h.kept.1
    | _ => cases hway
  obtain ⟨balance, hbalance⟩ := Stage.result?_of_way (hleft .balance)
  obtain ⟨pillars, hpillars⟩ := Stage.result?_of_way (hleft .pillars)
  rw [outcome?, h.get]
  simp only [h.phase, hdrawn, hbalance, hpillars]
  cases drawn with
  | error e => exact ⟨_, rfl⟩
  | ok chart => exact ⟨_, rfl⟩

end Fetches

end Almanac
