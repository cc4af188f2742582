import Mathlib
import Almanac.Proofs.Cache.Onward
import Almanac.Proofs.Fetch.Results

/-!
# How often the engine answers

The engine answers each task of a fetch once at most: `Fetches.unspent` counts the answers
that may still come.  While they do not come, a fetch goes on but never back.
-/

namespace Almanac

def Flight.Phase.mayDraw : Phase → Bool
  | publishing _ _ => false
  | handed _ _ => false
  | done _ => false
  | cancelled => false
  | _ => true

theorem Flight.Phase.mayDraw_eq (p : Phase) : p.mayDraw = decide (p.rank < 5) := by
  cases p <;> rfl

namespace Stage

variable {α : Type}

theorem result?_permitted (s : Stage α) : s.permitted.result? = s.result? := by cases s <;> rfl

theorem isCalling_permitted (s : Stage α) : s.permitted.isCalling = s.isCalling := by
  cases s <;> rfl

theorem result?_of_isCalling {s : Stage α} (h : s.isCalling = true) : s.result? = none := by
  cases s <;> first | rfl | cases h

end Stage

def Fetches.Answer.task : Fetches.Answer → Task
  | .base _ => .base
  | .balance _ => .balance
  | .pillars _ => .pillars

/-! ## Single flights -/

namespace Flights

variable {σ : Type} {fs : Flights σ} {i : Nat}

theorem phase_of_isAt {key : String} {p : Flight.Phase} (h : fs.board.IsAt i key p) :
    fs.phase i = p := by
  rw [phase, show fs.flights[i]? = some ⟨key, p⟩ from h]

/-- A flight that may not draw any more never may again. -/
theorem mayDraw_proceed (S : Store σ) (now : Nat) (h : (fs.phase i).mayDraw = false) :
    ((fs.proceed S now i).phase i).mayDraw = false := by
  rcases hf : fs.flights[i]? with _ | ⟨key, p⟩
  · rw [proceed, hf]
    exact h
  · have hat : fs.board.IsAt i key p := hf
    obtain ⟨q, hq, hpq⟩ := (proceed_goes S fs now i).onward i key p hat
    rw [phase_of_isAt hat] at h
    rw [phase_of_isAt hq]
    rcases hpq with rfl | hlt
    · exact h
    · rw [Flight.Phase.mayDraw_eq, decide_eq_false_iff_not] at h ⊢
      omega

theorem mayDraw_conclude (now : Nat) (drawn : Except Failure Chart)
    (h : (fs.phase i).isDrawing = true) : ((fs.conclude now i drawn).phase i).mayDraw = false := by
  rw [phase] at h
  split at h
  · rename_i f hf
    rcases f with ⟨key, p⟩
    cases p with
    | drawing cell =>
        rw [conclude, hf]
        have hat : fs.board.IsAt i key (.drawing cell) := hf
        cases drawn with
        | error e =>
            have hdone : (fs.land i key cell (.done (.error e))).board.IsAt i key
                (.done (.error e)) := by
              rw [board_land]
              exact Board.isAt_set.mpr ⟨_, hat, (if_pos rfl).symm⟩
            simp only [phase_of_isAt hdone]
            rfl
        | ok chart =>
            have hdone : ((fs.onLayer (fs.cache.layer.keep now key chart)).set i
                (.publishing cell chart)).board.IsAt i key (.publishing cell chart) :=
              Board.isAt_set.mpr ⟨_, hat, (if_pos rfl).symm⟩
            simp only [phase_of_isAt hdone]
            rfl
    | _ => cases h
  · cases h

/-- A flight alone is never held up, so no move lets it go on. -/
theorem letsGo_of_alone (h : fs.flights.length ≤ 1) (after : Flights σ) :
    fs.letsGo after = false := by
  have hheld : ∀ f ∈ fs.flights, fs.isHeldUp f.phase = false := by
    intro f hf
    obtain ⟨g, hg⟩ : ∃ g, fs.flights = [g] := by
      rcases hflights : fs.flights with _ | ⟨g, _ | ⟨g', rest⟩⟩
      · rw [hflights] at hf
        contradiction
      · exact ⟨g, rfl⟩
      · rw [hflights, List.length_cons, List.length_cons] at h
        omega
    rw [hg] at hf
    obtain rfl := List.mem_singleton.mp hf
    -- Only a flight in a queue is held up, and there is no other that leads.
    rcases hp : f.phase with _ | _ | cell | _ | _ | _ | _ | _ | _
    case queued => simp only [isHeldUp, isLed, hg, List.any, hp]; rfl
    all_goals rfl
  rw [letsGo, List.any_eq_false]
  rintro ⟨f, g⟩ hmem
  simp only [hheld f (List.of_mem_zip hmem).1, Bool.false_and, Bool.false_eq_true,
    not_false_eq_true]

end Flights

/-! ## Single fetches -/

namespace Fetch

def lacks (f : Fetch) : Task → Bool
  | .base => f.base.result?.isNone
  | .balance => f.balance.result?.isNone
  | .pillars => f.pillars.result?.isNone

def isCalling (f : Fetch) : Task → Bool
  | .base => f.base.isCalling
  | .balance => f.balance.isCalling
  | .pillars => f.pillars.isCalling

theorem lacks_permitted (f : Fetch) (t task : Task) :
    (f.permitted t).lacks task = f.lacks task := by
  cases t <;> cases task <;> simp only [permitted, lacks, Stage.result?_permitted]

theorem isCalling_permitted (f : Fetch) (t task : Task) :
    (f.permitted t).isCalling task = f.isCalling task := by
  cases t <;> cases task <;> simp only [permitted, isCalling, Stage.isCalling_permitted]

def answered (f : Fetch) : Fetches.Answer → Fetch
  | .base result => Fetches.putBase (.ended (drawn result)) f
  | .balance result => Fetches.putBalance (.ended (part result)) f
  | .pillars result => Fetches.putPillars (.ended (part result)) f

theorem lacks_answered (f : Fetch) (a : Fetches.Answer) (task : Task) :
    (f.answered a).lacks task = (task != a.task && f.lacks task) := by
  cases a <;> cases task <;> rfl

theorem isCalling_answered (f : Fetch) (a : Fetches.Answer) (task : Task) :
    (f.answered a).isCalling task = (task != a.task && f.isCalling task) := by
  cases a <;> cases task <;> rfl

theorem lacks_of_isCalling {f : Fetch} {task : Task} (h : f.isCalling task = true) :
    f.lacks task = true := by
  cases task <;> exact Option.isNone_iff_eq_none.mpr (Stage.result?_of_isCalling h)

/-- A fetch has gone on: it lacks what it lacked, and its calls stay in progress. -/
structure Keeps (f f' : Fetch) : Prop where
  lacks : ∀ task, f'.lacks task = f.lacks task
  calling : ∀ task, f.isCalling task = true → f'.isCalling task = true

theorem keeps_putBase {f : Fetch} {stage : Stage (Except Failure Chart)}
    (hstage : stage.result? = none) (hf : f.base.result? = none) (hc : f.base.isCalling = false) :
    f.Keeps (Fetches.putBase stage f) := by
  constructor <;> intro task
  · cases task with
    | base => simp only [Fetch.lacks, Fetches.putBase, hstage, hf]
    | _ => rfl
  · intro h
    cases task with
    | base => exact absurd (hc.symm.trans h) Bool.false_ne_true
    | _ => exact h

theorem keeps_putBalance {f : Fetch} {stage : Stage (Section BalanceAnalysis)}
    (hstage : stage.result? = none) (hf : f.balance.result? = none)
    (hc : f.balance.isCalling = false) : f.Keeps (Fetches.putBalance stage f) := by
  constructor <;> intro task
  · cases task with
    | balance => simp only [Fetch.lacks, Fetches.putBalance, hstage, hf]
    | _ => rfl
  · intro h
    cases task with
    | balance => exact absurd (hc.symm.trans h) Bool.false_ne_true
    | _ => exact h

theorem keeps_putPillars {f : Fetch} {stage : Stage (Section PillarAnalysis)}
    (hstage : stage.result? = none) (hf : f.pillars.result? = none)
    (hc : f.pillars.isCalling = false) : f.Keeps (Fetches.putPillars stage f) := by
  constructor <;> intro task
  · cases task with
    | pillars => simp only [Fetch.lacks, Fetches.putPillars, hstage, hf]
    | _ => rfl
  · intro h
    cases task with
    | pillars => exact absurd (hc.symm.trans h) Bool.false_ne_true
    | _ => exact h

end Fetch

/-! ## Answers that may still come -/

namespace Fetches

variable {σ : Type} {fs fs' : Fetches σ} {i : Nat}

/-- Whether the engine may still answer a task: it has no result, and if it is the base
task, its flight may still draw. -/
def awaits (fs : Fetches σ) (i : Nat) (task : Task) : Bool :=
  match fs.fetches[i]? with
  | none => false
  | some f => f.lacks task && (task != .base || (fs.flights.phase i).mayDraw)

/-- The number of answers that may still come to a fetch. -/
def unspent (fs : Fetches σ) (i : Nat) : Nat :=
  (fs.awaits i .base).toNat + (fs.awaits i .balance).toNat + (fs.awaits i .pillars).toNat

theorem unspent_le (fs : Fetches σ) (i : Nat) : fs.unspent i ≤ 3 := by
  have hle : ∀ task, (fs.awaits i task).toNat ≤ 1 := fun task => Bool.toNat_le _
  have hbase := hle .base
  have hbalance := hle .balance
  have hpillars := hle .pillars
  rw [unspent]
  omega

/-- A fetch has gone on: nothing is awaited that was not, and calls stay in progress. -/
structure Onward (i : Nat) (fs fs' : Fetches σ) : Prop where
  awaits : ∀ task, fs'.awaits i task = true → fs.awaits i task = true
  calling : ∀ task, fs.isCalling i task = true → fs'.isCalling i task = true

theorem Onward.refl (fs : Fetches σ) : Onward i fs fs := ⟨fun _ => id, fun _ => id⟩

theorem toNat_le_of_imp {a b : Bool} (h : a = true → b = true) : a.toNat ≤ b.toNat := by
  cases a with
  | false => exact Nat.zero_le _
  | true => exact Nat.le_of_eq (congrArg Bool.toNat (h rfl).symm)

theorem unspent_mono (h : ∀ task, fs'.awaits i task = true → fs.awaits i task = true) :
    fs'.unspent i ≤ fs.unspent i := by
  have hle : ∀ task, (fs'.awaits i task).toNat ≤ (fs.awaits i task).toNat :=
    fun task => toNat_le_of_imp (h task)
  have hbase := hle .base
  have hbalance := hle .balance
  have hpillars := hle .pillars
  rw [unspent, unspent]
  omega

theorem unspent_lt (h : ∀ task, fs'.awaits i task = true → fs.awaits i task = true) {task : Task}
    (hbefore : fs.awaits i task = true) (hafter : fs'.awaits i task = false) :
    fs'.unspent i < fs.unspent i := by
  have hle : ∀ task, (fs'.awaits i task).toNat ≤ (fs.awaits i task).toNat :=
    fun task => toNat_le_of_imp (h task)
  have hlt : (fs'.awaits i task).toNat < (fs.awaits i task).toNat := by
    rw [hbefore, hafter]
    exact Nat.zero_lt_one
  have hbase := hle .base
  have hbalance := hle .balance
  have hpillars := hle .pillars
  rw [unspent, unspent]
  cases task <;> omega

/-! ## Going on -/

theorem isCalling_eq (fs : Fetches σ) (i : Nat) (task : Task) :
    fs.isCalling i task = (fs.fetches[i]?.map (·.isCalling task)).getD false := by
  rw [isCalling]
  rcases fs.fetches[i]? with _ | f
  · rfl
  · cases task <;> rfl

theorem awaits_modify (j : Nat) {g : Fetch → Fetch} {task : Task}
    (hg : ∀ f : Fetch, fs.fetches[j]? = some f → (g f).lacks task = f.lacks task) :
    (fs.modify j g).awaits i task = fs.awaits i task := by
  simp only [awaits, modify, List.getElem?_modify]
  rcases hf : fs.fetches[i]? with _ | f
  · rfl
  · simp only [Option.map_eq_map, Option.map_some]
    split
    · rename_i hji
      rw [hg f (hji ▸ hf)]
    · rfl

theorem isCalling_modify (j : Nat) {g : Fetch → Fetch} {task : Task}
    (hg : ∀ f : Fetch, fs.fetches[j]? = some f → (g f).isCalling task = f.isCalling task) :
    (fs.modify j g).isCalling i task = fs.isCalling i task := by
  simp only [isCalling_eq, modify, List.getElem?_modify]
  rcases hf : fs.fetches[i]? with _ | f
  · rfl
  · simp only [Option.map_eq_map, Option.map_some, Option.getD_some]
    split
    · rename_i hji
      exact hg f (hji ▸ hf)
    · rfl

theorem isCalling_modify_self {f : Fetch} (hf : fs.fetches[i]? = some f) (g : Fetch → Fetch)
    (task : Task) : (fs.modify i g).isCalling i task = (g f).isCalling task := by
  simp only [isCalling_eq, modify, List.getElem?_modify, hf, Option.map_eq_map, Option.map_some,
    if_true, Option.getD_some]

theorem awaits_modify_self {f : Fetch} (hf : fs.fetches[i]? = some f) (g : Fetch → Fetch)
    (task : Task) : (fs.modify i g).awaits i task
      = ((g f).lacks task && (task != .base || (fs.flights.phase i).mayDraw)) := by
  simp only [awaits, modify, List.getElem?_modify, hf, Option.map_eq_map, Option.map_some, if_true]

theorem awaits_giveBack (fs : Fetches σ) (task : Task) :
    fs.giveBack.awaits i task = fs.awaits i task := by
  unfold giveBack
  split
  · rfl
  · exact awaits_modify _ fun f _ => f.lacks_permitted _ _

theorem isCalling_giveBack (fs : Fetches σ) (task : Task) :
    fs.giveBack.isCalling i task = fs.isCalling i task := by
  unfold giveBack
  split
  · rfl
  · exact isCalling_modify _ fun f _ => f.isCalling_permitted _ _

theorem Onward.proceedCall {α : Type} (h : fs.permits.closed = false) {f : Fetch} {task : Task}
    (hf : fs.fetches[i]? = some f) (stage : Stage α) (refusal : α) {put : Stage α → Fetch → Fetch}
    (hput : ∀ stage' : Stage α, stage'.result? = none → stage.result? = none →
      stage.isCalling = false → f.Keeps (put stage' f)) :
    fs.Onward i (fs.proceedCall ⟨i, task⟩ stage refusal put) := by
  rcases proceedCall_eq ⟨i, task⟩ stage refusal put h with
    he | ⟨permits, stage', hs', hs, hc, he⟩ <;> rw [he]
  · exact .refl fs
  · have hf' : ({ fs with permits } : Fetches σ).fetches[i]? = some f := hf
    have hkeeps := hput stage' hs' hs hc
    refine ⟨fun t ht => ?_, fun t ht => ?_⟩
    · rw [awaits_modify_self hf', hkeeps.lacks t] at ht
      rw [Fetches.awaits, hf]
      exact ht
    · rw [isCalling_modify_self hf']
      rw [isCalling_eq, hf] at ht
      exact hkeeps.calling t ht

theorem Onward.proceedFlight (S : Store σ) (now : Nat) (fs : Fetches σ) (i : Nat) :
    fs.Onward i (fs.onFlights (fs.flights.proceed S now i)) := by
  refine ⟨?_, fun _ ht => ht⟩
  intro task ht
  unfold Fetches.awaits at ht ⊢
  rcases hf : fs.fetches[i]? with _ | f
  · simp only [onFlights, hf] at ht
    contradiction
  · simp only [onFlights, hf] at ht ⊢
    rcases hdraw : (fs.flights.phase i).mayDraw with _ | _
    · rw [Flights.mayDraw_proceed S now hdraw] at ht
      exact ht
    · simp only [Bool.and_eq_true, Bool.or_true, and_true] at ht ⊢
      exact ht.1

/-- A base task whose call has ended concludes its flight, and awaits nothing more. -/
theorem Onward.conclude (now : Nat) {f : Fetch} {drawn : Except Failure Chart}
    (hf : fs.fetches[i]? = some f) (hdrawing : (fs.flights.phase i).isDrawing = true)
    (hended : f.base = .ended drawn) :
    fs.Onward i ((fs.onFlights (fs.flights.conclude now i drawn)).modify i (putBase .idle)) := by
  have hf' : (fs.onFlights (fs.flights.conclude now i drawn)).fetches[i]? = some f := hf
  constructor <;> intro task ht
  · rw [awaits_modify_self hf'] at ht
    rw [Fetches.awaits, hf]
    cases task with
    | base =>
        simp only [onFlights, Flights.mayDraw_conclude now drawn hdrawing] at ht
        contradiction
    | _ => exact ht
  · rw [isCalling_modify_self hf']
    rw [isCalling_eq, hf] at ht
    cases task with
    | base =>
        simp only [Fetch.isCalling, hended, Option.map_some, Option.getD_some] at ht
        contradiction
    | _ => exact ht

/-- **A fetch goes on but never back**, while permits are given. -/
theorem Onward.proceed (S : Store σ) (now : Nat) (h : fs.permits.closed = false) (i : Nat)
    (task : Task) : fs.Onward i (fs.proceed S now i task) := by
  unfold Fetches.proceed
  split
  · exact .refl fs
  · rename_i f hf
    split
    · exact .refl fs
    · cases task with
      | base =>
          simp only
          split
          · exact .proceedFlight S now fs i
          · rename_i hdrawing hended
            exact .conclude now hf hdrawing hended
          · exact .proceedCall h hf _ _ fun _ => Fetch.keeps_putBase
      | balance => exact .proceedCall h hf _ _ fun _ => Fetch.keeps_putBalance
      | pillars => exact .proceedCall h hf _ _ fun _ => Fetch.keeps_putPillars

theorem stirred_proceedCall {α : Type} (h : fs.permits.closed = false) (who : Ticket)
    (stage : Stage α) (refusal : α) (put : Stage α → Fetch → Fetch) :
    (fs.proceedCall who stage refusal put).stirred = fs.stirred := by
  rcases proceedCall_eq who stage refusal put h with he | ⟨permits, stage', -, -, -, he⟩ <;>
    rw [he]
  rfl

/-- Nobody is let go on by a fetch that is alone and only goes on. -/
theorem stirred_proceed (S : Store σ) (now : Nat) (h : fs.permits.closed = false)
    (hone : fs.flights.flights.length ≤ 1) (i : Nat) (task : Task) :
    (fs.proceed S now i task).stirred = fs.stirred := by
  unfold proceed
  split
  · rfl
  · split
    · rfl
    · cases task with
      | base =>
          simp only
          split
          · simp only [onFlights, Flights.letsGo_of_alone hone, Bool.or_false]
          · simp only [onFlights, modify, Flights.letsGo_of_alone hone, Bool.or_false]
          · exact stirred_proceedCall h _ _ _ _
      | balance => exact stirred_proceedCall h _ _ _ _
      | pillars => exact stirred_proceedCall h _ _ _ _

/-! ## Answers -/

def CallsWhileDrawing (fs : Fetches σ) (i : Nat) : Prop :=
  fs.isCalling i .base = true → (fs.flights.phase i).isDrawing = true

theorem CallsWhileDrawing.proceed (S : Store σ) (now : Nat) (hopen : fs.permits.closed = false)
    (h : fs.CallsWhileDrawing i) (task : Task) :
    (fs.proceed S now i task).CallsWhileDrawing i := by
  -- The base task's call is the only thing that a call of another task leaves alone.
  have hother : ∀ {α : Type} (who : Ticket) (stage : Stage α) (refusal : α)
      (put : Stage α → Fetch → Fetch), (∀ stage' f, (put stage' f).base = f.base) →
        (fs.proceedCall who stage refusal put).CallsWhileDrawing i := by
    intro α who stage refusal put hput hcalling
    rw [flights_proceedCall]
    apply h
    rcases proceedCall_eq who stage refusal put hopen with he | ⟨permits, stage', -, -, -, he⟩ <;>
      rw [he] at hcalling
    · exact hcalling
    · rw [isCalling_modify _ fun f _ => by simp only [Fetch.isCalling, hput]] at hcalling
      exact hcalling
  unfold Fetches.proceed
  split
  · exact h
  · rename_i f hf
    split
    · exact h
    · cases task with
      | base =>
          simp only
          split
          · rename_i hdrawing
            intro hcalling
            exact absurd (hdrawing.symm.trans (h hcalling)) Bool.false_ne_true
          · rename_i drawn hdrawing hended
            have hf' : (fs.onFlights (fs.flights.conclude now i drawn)).fetches[i]? = some f := hf
            intro hcalling
            rw [isCalling_modify_self hf'] at hcalling
            contradiction
          · rename_i hdrawing _
            intro _
            rw [flights_proceedCall]
            exact hdrawing
      | balance => exact hother _ _ _ _ fun _ _ => rfl
      | pillars => exact hother _ _ _ _ fun _ _ => rfl

theorem answer_eq {f : Fetch} {a : Answer} (hf : fs.fetches[i]? = some f)
    (hcalling : fs.isCalling i a.task = true) :
    fs.answer i a = (fs.modify i fun f => f.answered a).giveBack := by
  rw [isCalling, hf] at hcalling
  rw [answer, hf]
  cases a <;> exact if_pos hcalling

/-- **An answer that is awaited comes once.** -/
theorem awaits_answer {a : Answer} (h : fs.CallsWhileDrawing i)
    (hcalling : fs.isCalling i a.task = true) :
    fs.awaits i a.task = true ∧ (fs.answer i a).awaits i a.task = false ∧
      ∀ task, (fs.answer i a).awaits i task = true → fs.awaits i task = true := by
  rcases hf : fs.fetches[i]? with _ | f
  · rw [isCalling, hf] at hcalling
    contradiction
  · have hlacks : f.lacks a.task = true := by
      rw [isCalling_eq, hf] at hcalling
      exact Fetch.lacks_of_isCalling hcalling
    -- The base task's call is in progress, so its flight is drawing.
    have hdraws : (a.task != .base || (fs.flights.phase i).mayDraw) = true := by
      cases a with
      | base result =>
          have hdrawing := h hcalling
          rcases hp : fs.flights.phase i with _ | _ | _ | _ | _ | _ | _ | _ | _ <;>
            rw [hp] at hdrawing <;> first | rfl | cases hdrawing
      | balance result => rfl
      | pillars result => rfl
    have hafter : ∀ task, (fs.answer i a).awaits i task
        = (task != a.task && fs.awaits i task) := by
      intro task
      rw [answer_eq hf hcalling, awaits_giveBack, awaits_modify_self hf, Fetch.lacks_answered,
        awaits, hf]
      exact Bool.and_assoc _ _ _
    refine ⟨?_, ?_, fun task ht => ?_⟩
    · simp only [awaits, hf, hlacks, hdraws, Bool.and_self]
    · rw [hafter, bne_self_eq_false, Bool.false_and]
    · rw [hafter, Bool.and_eq_true] at ht
      exact ht.2

theorem isCalling_answer {a : Answer} (hcalling : fs.isCalling i a.task = true) (task : Task) :
    (fs.answer i a).isCalling i task = (task != a.task && fs.isCalling i task) := by
  rcases hf : fs.fetches[i]? with _ | f
  · rw [isCalling, hf] at hcalling
    contradiction
  · rw [answer_eq hf hcalling, isCalling_giveBack, isCalling_modify_self hf,
      Fetch.isCalling_answered, isCalling_eq, hf]
    rfl

theorem CallsWhileDrawing.answer {a : Answer} (h : fs.CallsWhileDrawing i)
    (hcalling : fs.isCalling i a.task = true) : (fs.answer i a).CallsWhileDrawing i := by
  intro hbase
  rw [isCalling_answer hcalling, Bool.and_eq_true] at hbase
  rw [flights_answer]
  exact h hbase.2

end Fetches

end Almanac
