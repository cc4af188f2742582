import Mathlib
import Almanac.Cache.SharedStore

/-!
# The memory store is a plain map

A plain map has no clock and never sweeps: a write says whether its payload lives, and
what lives is answered until the name is written again or deleted.  The memory store
drops what is dead on three occasions, one of which hangs on a counter.  None of them
shows in an answer: `SharedStore.answers_eq_plain`.
-/

namespace Almanac

theorem Stored.isLive_of_le {e : Stored} {now later : Nat} (hle : now ≤ later)
    (h : e.isLive later = true) : e.isLive now = true := by
  unfold isLive at h ⊢
  cases hexp : e.expiry with
  | none => rfl
  | some expiry =>
      simp only [hexp, decide_eq_true_eq] at h ⊢
      omega

namespace SharedStore

variable {s : SharedStore} {now later : Nat}

/-! ## What is shown -/

def shown (s : SharedStore) (now : Nat) (name : String) : Option ByteArray :=
  ((s.entries.get? name).filter (Stored.isLive now)).map Stored.payload

/-- What is dropped at a time because it is dead does not show later. -/
theorem filter_isLive (hle : now ≤ later) (e : Option Stored) :
    (e.filter (Stored.isLive now)).filter (Stored.isLive later)
      = e.filter (Stored.isLive later) := by
  cases e with
  | none => rfl
  | some e =>
      by_cases hlater : e.isLive later = true
      · simp [Option.filter, hlater, Stored.isLive_of_le hle hlater]
      · cases hnow : e.isLive now <;> simp [Option.filter, hlater, hnow]

theorem shown_swept (hle : now ≤ later) (name : String) :
    (s.swept now).shown later name = s.shown later name := by
  unfold shown swept
  rw [Table.get?_filter, filter_isLive hle]

theorem shown_counted (hle : now ≤ later) (name : String) :
    (s.counted now).shown later name = s.shown later name := by
  unfold counted
  split
  · exact shown_swept hle name
  · rfl

theorem shown_erase (name n : String) :
    ({ s with entries := s.entries.erase name } : SharedStore).shown later n
      = if n = name then none else s.shown later n := by
  unfold shown
  rw [Table.get?_erase]
  split <;> rfl

theorem shown_put (name n : String) (e : Stored) :
    ({ s with entries := s.entries.put name e } : SharedStore).shown later n
      = if n = name then (if e.isLive later then some e.payload else none)
        else s.shown later n := by
  unfold shown
  rw [Table.get?_put]
  split
  · cases h : e.isLive later <;> simp [Option.filter, h]
  · rfl

theorem closed_counted (s : SharedStore) (now : Nat) : (s.counted now).closed = s.closed := by
  unfold counted
  split <;> rfl

theorem set_of_open (hopen : s.closed = false) (now : Nat) (name : String) (payload : ByteArray)
    (span : Option Nat) :
    set now name payload span s = (.ok (), { s.counted now with
      entries := (s.counted now).entries.put name ⟨payload, span.map (now + ·)⟩ }) := by
  unfold set
  rw [if_neg (by simp [hopen])]

theorem delete_of_open (hopen : s.closed = false) (name : String) :
    delete name s = (.ok (), { s with entries := s.entries.erase name }) := by
  unfold delete
  rw [if_neg (by simp [hopen])]

theorem get_of_open (hopen : s.closed = false) (now : Nat) (name : String) :
    (get now name s).1 = .ok (s.shown now name) ∧ (get now name s).2.closed = false ∧
      ∀ later, now ≤ later → ∀ n, (get now name s).2.shown later n = s.shown later n := by
  unfold get
  rw [if_neg (by simp [hopen])]
  split
  · rename_i hget
    exact ⟨by simp [shown, hget], hopen, fun _ _ _ => rfl⟩
  · rename_i e hget
    split
    · rename_i hlive
      exact ⟨by simp [shown, hget, Option.filter, hlive], hopen, fun _ _ _ => rfl⟩
    -- The entry is dead, so it has not shown before it was dropped either.
    · rename_i hdead
      refine ⟨by simp [shown, hget, Option.filter, hdead], hopen, ?_⟩
      intro later hle n
      rw [shown_erase]
      split
      · rename_i hn
        have hlater : ¬e.isLive later = true := fun h => hdead (Stored.isLive_of_le hle h)
        simp [hn, shown, hget, Option.filter, hlater]
      · rfl

/-! ## Runs -/

inductive Op where
  | set (name : String) (payload : ByteArray) (span : Option Nat)
  | get (name : String)
  | delete (name : String)
  | ping
  | purge
  | close

/-- What a call is answered with.  A purge and a close are not answered. -/
inductive Answer where
  | found (reply : Except StoreFault (Option ByteArray))
  | done (reply : Except StoreFault Unit)
  | silent

def Answer.isSilent : Answer → Bool
  | silent => true
  | _ => false

def Op.isPurge : Op → Bool
  | purge => true
  | _ => false

def Op.refused : Op → Answer
  | set .. => .done (.error closedFault)
  | get _ => .found (.error closedFault)
  | delete _ => .done (.error closedFault)
  | ping => .done (.error closedFault)
  | purge => .silent
  | close => .silent

def step (s : SharedStore) (now : Nat) : Op → Answer × SharedStore
  | .set name payload span =>
    let (reply, s) := s.set now name payload span
    (.done reply, s)
  | .get name =>
    let (reply, s) := s.get now name
    (.found reply, s)
  | .delete name =>
    let (reply, s) := s.delete name
    (.done reply, s)
  | .ping =>
    let (reply, s) := s.ping
    (.done reply, s)
  | .purge => (.silent, (s.purge now).2)
  | .close => (.silent, s.close)

def after (s : SharedStore) (run : List (Nat × Op)) : SharedStore :=
  run.foldl (fun s call => (s.step call.1 call.2).2) s

def answers (s : SharedStore) : List (Nat × Op) → List Answer
  | [] => []
  | (now, op) :: run => (s.step now op).1 :: answers (s.step now op).2 run

/-- The answers that somebody hears. -/
def heard (answers : List Answer) : List Answer := answers.filter (!·.isSilent)

/-- The clock does not go back, and a life is over at once or never. -/
def Timely (run : List (Nat × Op)) : Prop :=
  run.Pairwise fun (now, op) (later, _) => now ≤ later ∧
    ∀ name payload life, op = .set name payload (some life) → life = 0 ∨ later < now + life

/-! ## The plain map -/

/-- Payloads under names, each with whether it lives. -/
structure Plain where
  entries : String → Option (ByteArray × Bool) := fun _ => none
  closed : Bool := false

namespace Plain

def shown (p : Plain) (name : String) : Option ByteArray :=
  ((p.entries name).filter Prod.snd).map Prod.fst

/-- A call on an open map.  There is no time and no sweep. -/
def perform (p : Plain) : Op → Answer × Plain
  | .set name payload span =>
    (.done (.ok ()),
      { p with entries := Function.update p.entries name (some (payload, span != some 0)) })
  | .get name => (.found (.ok (p.shown name)), p)
  | .delete name => (.done (.ok ()), { p with entries := Function.update p.entries name none })
  | .ping => (.done (.ok ()), p)
  | .purge => (.silent, p)
  | .close => (.silent, { p with closed := true })

def step (p : Plain) (op : Op) : Answer × Plain :=
  if p.closed then (op.refused, p) else p.perform op

def after (p : Plain) (ops : List Op) : Plain := ops.foldl (fun p op => (p.step op).2) p

def answers (p : Plain) : List Op → List Answer
  | [] => []
  | op :: ops => (p.step op).1 :: answers (p.step op).2 ops

end Plain

/-! ## The simulation -/

/-- The store is as open as the map, and shows what the map shows at all times to come. -/
structure Mirrors (s : SharedStore) (p : Plain) (run : List (Nat × Op)) : Prop where
  closed : s.closed = p.closed
  shown : p.closed = false → ∀ call ∈ run, ∀ name, s.shown call.1 name = p.shown name

theorem Plain.shown_update (p : Plain) (name n : String) (e : Option (ByteArray × Bool)) :
    Plain.shown { p with entries := Function.update p.entries name e } n
      = if n = name then (e.filter Prod.snd).map Prod.fst else p.shown n := by
  by_cases hn : n = name
  · simp [Plain.shown, hn]
  · simp [Plain.shown, hn]

theorem shown_written {run : List (Nat × Op)} {name : String} {payload : ByteArray}
    {span : Option Nat} (h : Timely ((now, .set name payload span) :: run)) :
    ∀ call ∈ run, Stored.isLive call.1 ⟨payload, span.map (now + ·)⟩ = (span != some 0) := by
  rintro ⟨later, op⟩ hmem
  obtain ⟨hle, hlife⟩ := (List.pairwise_cons.mp h).1 _ hmem
  cases span with
  | none => rfl
  | some life =>
      have := hlife name payload life rfl
      by_cases hzero : life = 0
      · simp [Stored.isLive, hzero, hle]
      · simp [Stored.isLive, hzero, this.resolve_left hzero]

theorem step_of_closed (h : s.closed = true) (now : Nat) (op : Op) :
    (s.step now op).1 = op.refused ∧ (s.step now op).2.closed = true ∧
      (s.step now op).2.size ≤ s.size := by
  cases op with
  | set name payload span => simp [step, set, h, Op.refused]
  | get name => simp [step, get, h, Op.refused]
  | delete name => simp [step, delete, h, Op.refused]
  | ping => simp [step, ping, h, Op.refused]
  | purge => exact ⟨rfl, h, List.length_filter_le _ _⟩
  | close => exact ⟨rfl, rfl, Nat.zero_le _⟩

theorem Mirrors.step {p : Plain} {op : Op} {run : List (Nat × Op)}
    (h : Mirrors s p ((now, op) :: run)) (htime : Timely ((now, op) :: run)) :
    (s.step now op).1 = (p.step op).1 ∧ Mirrors (s.step now op).2 (p.step op).2 run := by
  obtain ⟨hclosed, hshown⟩ := h
  have hle : ∀ call ∈ run, now ≤ call.1 := fun call hmem =>
    ((List.pairwise_cons.mp htime).1 call hmem).1
  by_cases hp : p.closed = true
  · obtain ⟨hanswer, hstill, -⟩ := step_of_closed (hclosed.trans hp) now op
    rw [Plain.step, if_pos hp]
    exact ⟨hanswer, by rw [hstill, hp], fun hopen => absurd (hp.symm.trans hopen) (by decide)⟩
  · rw [Bool.not_eq_true] at hp
    have hopen : s.closed = false := hclosed.trans hp
    have hnow := hshown hp (now, op) List.mem_cons_self
    have hlater : ∀ call ∈ run, ∀ name, s.shown call.1 name = p.shown name :=
      fun call hmem => hshown hp call (List.mem_cons_of_mem _ hmem)
    rw [Plain.step, if_neg (by simp [hp])]
    cases op with
    | set name payload span =>
        simp only [SharedStore.step, set_of_open hopen, Plain.perform]
        refine ⟨trivial, (closed_counted s now).trans hclosed, ?_⟩
        intro _ call hmem n
        rw [shown_put, Plain.shown_update, shown_written htime call hmem,
          shown_counted (hle call hmem), hlater call hmem]
        cases span != some 0 <;> rfl
    | get name =>
        obtain ⟨hfound, hstill, hsame⟩ := get_of_open hopen now name
        simp only [SharedStore.step, hfound, hnow, Plain.perform]
        refine ⟨trivial, hstill.trans hp.symm, ?_⟩
        intro _ call hmem n
        rw [hsame call.1 (hle call hmem), hlater call hmem]
    | delete name =>
        simp only [SharedStore.step, delete_of_open hopen, Plain.perform]
        refine ⟨trivial, hclosed, ?_⟩
        intro _ call hmem n
        rw [shown_erase, Plain.shown_update, hlater call hmem]
        rfl
    | ping =>
        simp only [SharedStore.step, ping, hopen, Plain.perform]
        exact ⟨rfl, hclosed, fun _ => hlater⟩
    | purge =>
        refine ⟨rfl, hclosed, ?_⟩
        intro _ call hmem n
        exact (shown_swept (hle call hmem) n).trans (hlater call hmem n)
    | close => exact ⟨rfl, rfl, fun hstill => Bool.noConfusion hstill⟩

theorem Mirrors.answers {p : Plain} {run : List (Nat × Op)} (h : Mirrors s p run)
    (htime : Timely run) : s.answers run = p.answers (run.map Prod.snd) := by
  induction run generalizing s p with
  | nil => rfl
  | cons call run ih =>
      obtain ⟨now, op⟩ := call
      obtain ⟨hanswer, hnext⟩ := h.step htime
      rw [SharedStore.answers, List.map_cons, Plain.answers, hanswer,
        ih hnext (List.pairwise_cons.mp htime).2]

theorem mirrors_empty (writes : Nat) (run : List (Nat × Op)) :
    Mirrors { writes } {} run := ⟨rfl, fun _ _ _ _ => rfl⟩

/-! ## The map and its history -/

/-- What a call makes of a name, if it does anything about it. -/
def Op.effect? (name : String) : Op → Option (Option (ByteArray × Bool))
  | .set n payload span => if n = name then some (some (payload, span != some 0)) else none
  | .delete n => if n = name then some none else none
  | _ => none

/-- The last write of a name since it was deleted last, and whether it was to live. -/
def lastWrite (name : String) (ops : List Op) : Option (ByteArray × Bool) :=
  (ops.reverse.findSome? (Op.effect? name)).join

namespace Plain

theorem after_append (p : Plain) (ops more : List Op) :
    p.after (ops ++ more) = (p.after ops).after more := List.foldl_append

theorem answers_append (p : Plain) (ops more : List Op) :
    p.answers (ops ++ more) = p.answers ops ++ (p.after ops).answers more := by
  induction ops generalizing p with
  | nil => rfl
  | cons op ops ih => exact congrArg _ (ih (p.step op).2)

theorem length_answers (p : Plain) (ops : List Op) : (p.answers ops).length = ops.length := by
  induction ops generalizing p with
  | nil => rfl
  | cons op ops ih => exact congrArg Nat.succ (ih (p.step op).2)

theorem closed_step {p : Plain} {op : Op} (h : p.closed = false) (hop : op ≠ .close) :
    (p.step op).2.closed = false := by
  unfold step
  rw [if_neg (by simp [h])]
  cases op with
  | close => exact absurd rfl hop
  | _ => exact h

theorem entries_step {p : Plain} {op : Op} (h : p.closed = false) (name : String) :
    (p.step op).2.entries name = ((op.effect? name).getD (p.entries name)) := by
  unfold step
  rw [if_neg (by simp [h])]
  cases op with
  | set n payload span =>
      by_cases hn : n = name
      · simp [perform, Op.effect?, hn]
      · simp [perform, Op.effect?, hn, Ne.symm hn]
  | delete n =>
      by_cases hn : n = name
      · simp [perform, Op.effect?, hn]
      · simp [perform, Op.effect?, hn, Ne.symm hn]
  | _ => rfl

/-- Until it is closed, the map has the last writes. -/
theorem entries_after {ops : List Op} (h : .close ∉ ops) (name : String) :
    (after {} ops).closed = false ∧ (after {} ops).entries name = lastWrite name ops := by
  induction ops using List.reverseRecOn with
  | nil => exact ⟨rfl, rfl⟩
  | append_singleton ops op ih =>
      simp only [List.mem_append, List.mem_singleton, not_or] at h
      obtain ⟨hopen, hentries⟩ := ih h.1
      rw [after_append]
      refine ⟨closed_step hopen (Ne.symm h.2), ?_⟩
      show ((after {} ops).step op).2.entries name = _
      rw [entries_step hopen, hentries]
      simp only [lastWrite, List.reverse_append, List.reverse_cons, List.reverse_nil,
        List.nil_append, List.singleton_append, List.findSome?_cons]
      cases op.effect? name <;> rfl

theorem heard_answers (p : Plain) (ops : List Op) :
    heard (p.answers ops) = heard (p.answers (ops.filter (!·.isPurge))) := by
  induction ops generalizing p with
  | nil => rfl
  | cons op ops ih =>
      cases op with
      | purge =>
          have hpurge : p.step .purge = (.silent, p) := by
            unfold step
            split <;> rfl
          rw [answers, hpurge]
          exact ih p
      | _ =>
          simp only [answers, heard, Op.isPurge, Bool.not_false, List.filter_cons, if_true]
          rw [← heard, ih]
          rfl

end Plain

/-! ## Closing -/

theorem after_append (s : SharedStore) (run more : List (Nat × Op)) :
    s.after (run ++ more) = (s.after run).after more := List.foldl_append

theorem answers_of_closed (h : s.closed = true) (run : List (Nat × Op)) :
    s.answers run = run.map fun call => call.2.refused := by
  induction run generalizing s with
  | nil => rfl
  | cons call run ih =>
      obtain ⟨hanswer, hstill, -⟩ := step_of_closed h call.1 call.2
      rw [answers, hanswer, ih hstill, List.map_cons]

theorem after_of_closed (h : s.closed = true) (run : List (Nat × Op)) :
    (s.after run).closed = true ∧ (s.after run).size ≤ s.size := by
  induction run generalizing s with
  | nil => exact ⟨h, Nat.le_refl _⟩
  | cons call run ih =>
      obtain ⟨-, hstill, hsize⟩ := step_of_closed h call.1 call.2
      obtain ⟨hclosed, hle⟩ := ih hstill
      exact ⟨hclosed, Nat.le_trans hle hsize⟩

theorem after_close (s : SharedStore) (before mid : List (Nat × Op)) (now : Nat) :
    (s.after (before ++ (now, .close) :: mid)).closed = true ∧
      (s.after (before ++ (now, .close) :: mid)).size = 0 := by
  have hclose : s.after (before ++ (now, .close) :: mid) = (s.after before).close.after mid :=
    after_append s before _
  rw [hclose]
  obtain ⟨hclosed, hsize⟩ := after_of_closed (s := (s.after before).close) rfl mid
  exact ⟨hclosed, Nat.le_zero.mp hsize⟩

/-! ## The memory store is a plain map -/

/-- **The answers of the memory store are those of a plain map.**  So a look-up is
answered with what was written last, if that lives; from the first close on, everything
is refused and nothing is held; and no purge shows in the answers, nor does the write
at which the next sweep is due. -/
theorem answers_eq_plain (writes : Nat) {run : List (Nat × Op)} (htime : Timely run) :
    answers { writes } run = Plain.answers {} (run.map Prod.snd) ∧
    (∀ before now name more, run = before ++ (now, .get name) :: more →
      .close ∉ before.map Prod.snd →
      (answers { writes } run)[before.length]? = some (.found (.ok
        (((lastWrite name (before.map Prod.snd)).filter Prod.snd).map Prod.fst)))) ∧
    (∀ before now mid more, run = before ++ (now, .close) :: (mid ++ more) →
      (after { writes } (before ++ (now, .close) :: mid)).size = 0 ∧
      answers (after { writes } (before ++ (now, .close) :: mid)) more
        = more.map fun call => call.2.refused) ∧
    (∀ writes' other, Timely other →
      (other.map Prod.snd).filter (!·.isPurge) = (run.map Prod.snd).filter (!·.isPurge) →
      heard (answers { writes := writes' } other) = heard (answers { writes } run)) := by
  have hplain : ∀ writes {run}, Timely run →
      answers { writes } run = Plain.answers {} (run.map Prod.snd) :=
    fun writes run htime => (mirrors_empty writes run).answers htime
  refine ⟨hplain writes htime, ?_, ?_, ?_⟩
  · rintro before now name more rfl hclose
    obtain ⟨hopen, hentries⟩ := Plain.entries_after hclose name
    have hget : ((Plain.after {} (before.map Prod.snd)).step (.get name)).1
        = .found (.ok ((Plain.after {} (before.map Prod.snd)).shown name)) := by
      rw [Plain.step, hopen]
      rfl
    rw [Plain.shown, hentries] at hget
    rw [hplain writes htime, List.map_append, List.map_cons, Plain.answers_append,
      List.getElem?_append_right (by rw [Plain.length_answers, List.length_map]),
      Plain.length_answers, List.length_map, Nat.sub_self, Plain.answers,
      List.getElem?_cons_zero, hget]
  · rintro before now mid more rfl
    obtain ⟨hclosed, hsize⟩ := after_close { writes } before mid now
    exact ⟨hsize, answers_of_closed hclosed more⟩
  · intro writes' other hother hsame
    rw [hplain writes' hother, hplain writes htime, Plain.heard_answers, hsame,
      ← Plain.heard_answers]

/-- Writes that are dead at once and others that live, with a sweep due at the second. -/
def sweptRun : List (Nat × Op) :=
  [(0, .set "dead" ⟨#[1]⟩ (some 0)), (1, .set "kept" ⟨#[2]⟩ (some 9)), (1, .get "dead"),
    (2, .purge), (3, .get "kept"), (3, .delete "kept"), (4, .get "kept"),
    (5, .set "kept" ⟨#[3]⟩ none), (6, .close), (7, .ping), (7, .get "kept")]

theorem answers_sweptRun :
    Timely sweptRun ∧ answers { writes := 62 } sweptRun
      = [.done (.ok ()), .done (.ok ()), .found (.ok none), .silent, .found (.ok (some ⟨#[2]⟩)),
        .done (.ok ()), .found (.ok none), .done (.ok ()), .silent, .done (.error closedFault),
        .found (.error closedFault)] := by
  have htime : Timely sweptRun := by simp [Timely, sweptRun]
  exact ⟨htime, (answers_eq_plain 62 htime).1⟩

end SharedStore

end Almanac
