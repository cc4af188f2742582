import Mathlib
import Almanac.Proofs.Cache.Epochs
import Almanac.Proofs.Cache.OrderedTier

/-!
# What the sweeps of the memory store leave

A dead entry that nobody reads stays until the next sweep, and there is a sweep before
every 64th accepted write.  Where a life is over at once or never, the dead entries that a
store holds were all written since the last sweep, so their number is bounded by the
position of the write counter, however many names have been written.  What lives is never
swept: it stays until its name is deleted or written again, or the store is closed:
`SharedStore.dead_few_and_live_kept`.
-/

namespace Almanac

namespace Table

variable {κ α : Type} {t : Table κ α}

theorem size_filter_put_le [DecidableEq κ] (t : Table κ α) (p : κ → α → Bool) (name : κ) (a : α) :
    ((t.put name a).filter p).size ≤ (t.filter p).size + 1 := by
  have hput : ((t.put name a).filter p).size
      = ((t.erase name).filter p).size + ([(name, a)].filter fun e => p e.1 e.2).length := by
    simp only [put, filter, size, List.filter_append, List.length_append]
  have hone : ([(name, a)].filter fun e => p e.1 e.2).length ≤ 1 := List.length_filter_le _ _
  have hrest : ((t.erase name).filter p).size ≤ (t.filter p).size :=
    (List.filter_sublist.filter _).length_le
  omega

theorem size_filter_put_of_absent [DecidableEq κ] {p : κ → α → Bool} {name : κ} {a : α}
    (hname : t.get? name = none) (ha : p name a = true) :
    ((t.put name a).filter p).size = (t.filter p).size + 1 := by
  have herase : t.entries.filter (fun e => e.1 != name) = t.entries := by
    apply List.filter_eq_self.mpr
    intro e he
    exact bne_iff_ne.mpr (get?_eq_none_iff.mp hname e he)
  simp [put, erase, filter, size, herase, ha]

theorem size_filter_add (t : Table κ α) (p : κ → α → Bool) :
    (t.filter p).size + (t.filter fun n a => !p n a).size = t.size :=
  (t.entries.length_eq_length_filter_add fun e => p e.1 e.2).symm

end Table

namespace SharedStore

variable {s : SharedStore} {now later : Nat} {name : String}

/-! ## Dead entries -/

def dead (s : SharedStore) (now : Nat) : Nat := (s.entries.filter fun _ e => !e.isLive now).size

theorem purge_count (s : SharedStore) (now : Nat) : (s.purge now).1 = s.dead now := by
  have hsize : (s.swept now).size + s.dead now = s.size :=
    s.entries.size_filter_add fun _ e => e.isLive now
  rw [purge]
  omega

theorem dead_le_of_sublist {s' : SharedStore}
    (h : s'.entries.entries.Sublist s.entries.entries) (now : Nat) : s'.dead now ≤ s.dead now :=
  (h.filter _).length_le

theorem dead_put_le (s : SharedStore) (name : String) (e : Stored) (now : Nat) :
    dead { s with entries := s.entries.put name e } now ≤ s.dead now + 1 :=
  s.entries.size_filter_put_le _ name e

theorem dead_put_of_absent {e : Stored} (hname : s.entries.get? name = none)
    (hdead : e.isLive now = false) :
    dead { s with entries := s.entries.put name e } now = s.dead now + 1 :=
  Table.size_filter_put_of_absent hname (by rw [hdead]; rfl)

theorem dead_swept (s : SharedStore) (now : Nat) : (s.swept now).dead now = 0 := by
  apply List.length_eq_zero_iff.mpr
  apply List.filter_eq_nil_iff.mpr
  intro e he
  simp only [swept, Table.filter, List.mem_filter] at he
  simp [he.2]

theorem writes_counted (s : SharedStore) (now : Nat) : (s.counted now).writes = s.writes + 1 := by
  unfold counted
  split <;> rfl

theorem dead_counted (s : SharedStore) (now : Nat) :
    (s.counted now).dead now
      = if s.writes % sweepInterval = sweepInterval - 1 then 0 else s.dead now := by
  unfold counted
  by_cases hdue : s.writes % sweepInterval = sweepInterval - 1
  · rw [if_pos hdue, if_pos hdue]
    exact dead_swept s now
  · rw [if_neg hdue, if_neg hdue]
    rfl

/-- Before a write is stored, there is room for it: the sweep has made room, or the counter
goes up. -/
theorem dead_counted_le (h : s.dead now ≤ 1 + s.writes % sweepInterval) :
    (s.counted now).dead now ≤ (s.counted now).writes % sweepInterval := by
  rw [dead_counted, writes_counted]
  split
  · exact Nat.zero_le _
  · rename_i hdue
    simp only [sweepInterval] at h hdue ⊢
    omega

/-! ## Accepted writes -/

/-- Whether a call with this answer was a write that was accepted. -/
def Op.isAccepted : Op → Answer → Bool
  | .set .., .done (.ok _) => true
  | _, _ => false

def accepted (s : SharedStore) (run : List (Nat × Op)) : Nat :=
  ((run.map Prod.snd).zip (s.answers run)).countP fun call => call.1.isAccepted call.2

theorem accepted_cons (s : SharedStore) (now : Nat) (op : Op) (run : List (Nat × Op)) :
    s.accepted ((now, op) :: run)
      = (op.isAccepted (s.step now op).1).toNat + (s.step now op).2.accepted run := by
  simp only [accepted, answers, List.map_cons, List.zip_cons_cons, List.countP_cons]
  cases op.isAccepted (s.step now op).1 <;> simp [Nat.add_comm]

/-! ## What a call does -/

/-- A call drops entries if anything, or it is a write that is accepted. -/
theorem step_cases (s : SharedStore) (now : Nat) (op : Op) :
    ((s.step now op).2.entries.entries.Sublist s.entries.entries ∧
      (s.step now op).2.writes = s.writes ∧ op.isAccepted (s.step now op).1 = false) ∨
    ∃ name payload span, op = .set name payload span ∧
      s.step now op = (.done (.ok ()), { s.counted now with
        entries := (s.counted now).entries.put name ⟨payload, span.map (now + ·)⟩ }) := by
  cases op with
  | set name payload span =>
      by_cases hclosed : s.closed = true
      · left
        have hstep : s.step now (.set name payload span) = (.done (.error closedFault), s) := by
          simp only [step, set, hclosed, if_true]
        rw [hstep]
        exact ⟨.refl _, rfl, rfl⟩
      · right
        refine ⟨name, payload, span, rfl, ?_⟩
        rw [step, set_of_open (Bool.not_eq_true _ ▸ hclosed)]
  | get name =>
      left
      simp only [step, get]
      split
      · exact ⟨.refl _, rfl, rfl⟩
      · split
        · exact ⟨.refl _, rfl, rfl⟩
        · split
          · exact ⟨.refl _, rfl, rfl⟩
          · exact ⟨List.filter_sublist, rfl, rfl⟩
  | delete name =>
      left
      simp only [step, delete]
      split
      · exact ⟨.refl _, rfl, rfl⟩
      · exact ⟨List.filter_sublist, rfl, rfl⟩
  | ping => exact .inl ⟨.refl _, rfl, rfl⟩
  | purge => exact .inl ⟨List.filter_sublist, rfl, rfl⟩
  | close => exact .inl ⟨List.nil_sublist _, rfl, rfl⟩

/-- No call brings in more dead entries than the counter of the writes allows for. -/
theorem dead_step (h : s.dead now ≤ 1 + s.writes % sweepInterval) (op : Op) :
    (s.step now op).2.dead now ≤ 1 + (s.step now op).2.writes % sweepInterval := by
  rcases s.step_cases now op with ⟨hsub, hwrites, -⟩ | ⟨name, payload, span, rfl, hstep⟩
  · rw [hwrites]
    exact Nat.le_trans (dead_le_of_sublist hsub now) h
  · have hput := dead_put_le (s.counted now) name ⟨payload, span.map (now + ·)⟩ now
    have hroom := dead_counted_le h
    rw [hstep]
    exact Nat.le_trans hput (by rw [Nat.add_comm]; exact Nat.add_le_add_left hroom 1)

theorem writes_step (s : SharedStore) (now : Nat) (op : Op) :
    (s.step now op).2.writes = s.writes + (op.isAccepted (s.step now op).1).toNat := by
  rcases s.step_cases now op with ⟨-, hwrites, haccepted⟩ | ⟨name, payload, span, rfl, hstep⟩
  · rw [hwrites, haccepted]
    rfl
  · rw [hstep]
    exact s.writes_counted now

/-- What is held after a call was held before, or the call has written it. -/
theorem held_step {op : Op} {e : Stored} (h : (s.step now op).2.entries.get? name = some e) :
    s.entries.get? name = some e ∨
      ∃ payload span, op = .set name payload span ∧ e = ⟨payload, span.map (now + ·)⟩ := by
  rcases s.step_cases now op with ⟨hsub, -, -⟩ | ⟨other, payload, span, rfl, hstep⟩
  · rw [Table.get?_eq_some_iff] at h ⊢
    exact .inl (hsub.subset h)
  · rw [hstep, Table.get?_put] at h
    split at h
    · rename_i hname
      exact .inr ⟨payload, span, by rw [hname], (Option.some.inj h).symm⟩
    · exact .inl ((s.spares_counted now name).old e h)

theorem spares_step {op : Op} (hop : op.effect? name = none) (hclose : op ≠ .close) (now : Nat) :
    s.Spares (Stored.isLive now · = true) name (s.step now op).2 := by
  cases op with
  | set other payload span =>
      have hne : name ≠ other := by
        rintro rfl
        simp [Op.effect?] at hop
      exact s.spares_set hne now payload span
  | get other => exact s.spares_get now other name
  | delete other =>
      have hne : name ≠ other := by
        rintro rfl
        simp [Op.effect?] at hop
      exact s.spares_delete hne
  | ping => exact .refl s
  | purge => exact spares_filter fun _ he => he
  | close => exact absurd rfl hclose

/-! ## Runs -/

theorem writes_after (s : SharedStore) (run : List (Nat × Op)) :
    (s.after run).writes = s.writes + s.accepted run := by
  induction run generalizing s with
  | nil => rfl
  | cons call run ih =>
      obtain ⟨now, op⟩ := call
      rw [accepted_cons, ← Nat.add_assoc, ← writes_step]
      exact ih _

/-- After a call at the time `now`: whether an entry lives does not change during the calls
to come, and the dead ones are few. -/
structure Tidy (s : SharedStore) (now : Nat) (run : List (Nat × Op)) : Prop where
  settled : ∀ name e, s.entries.get? name = some e →
    ∀ call ∈ run, e.isLive call.1 = e.isLive now
  few : s.dead now ≤ 1 + s.writes % sweepInterval

theorem tidy_empty (now : Nat) (run : List (Nat × Op)) : Tidy {} now run := by
  refine ⟨?_, Nat.zero_le _⟩
  intro name e he
  rw [Table.get?_empty] at he
  contradiction

theorem dead_congr (h : ∀ name e, s.entries.get? name = some e → e.isLive later = e.isLive now) :
    s.dead later = s.dead now := by
  apply congrArg List.length
  apply List.filter_congr
  rintro ⟨name, e⟩ hmem
  exact congrArg Bool.not (h name e (Table.get?_eq_some_iff.mpr hmem))

theorem isLive_written (now : Nat) (payload : ByteArray) (span : Option Nat) :
    Stored.isLive now ⟨payload, span.map (now + ·)⟩ = (span != some 0) := by
  cases span with
  | none => rfl
  | some life => cases life <;> simp [Stored.isLive]

theorem Tidy.step {op : Op} {run : List (Nat × Op)} (h : Tidy s now ((later, op) :: run))
    (htime : Timely ((later, op) :: run)) : Tidy (s.step later op).2 later run := by
  refine ⟨?_, ?_⟩
  · intro name e he call hmem
    rcases held_step he with hheld | ⟨payload, span, rfl, rfl⟩
    · rw [h.settled name e hheld call (List.mem_cons_of_mem _ hmem),
        h.settled name e hheld (later, op) List.mem_cons_self]
    · rw [shown_written htime call hmem, isLive_written]
  · apply dead_step
    rw [dead_congr fun name e he => h.settled name e he (later, op) List.mem_cons_self]
    exact h.few

theorem Tidy.after {before more : List (Nat × Op)} (h : Tidy s now (before ++ more))
    (htime : Timely (before ++ more)) : ∃ last, Tidy (s.after before) last more := by
  induction before generalizing s now with
  | nil => exact ⟨now, h⟩
  | cons call before ih => exact ih (h.step htime) (List.pairwise_cons.mp htime).2

/-- What lives throughout some calls is still held after them, if none of them is about
its name or closes the store. -/
theorem held_after {run : List (Nat × Op)} {e : Stored} (h : s.entries.get? name = some e)
    (hlive : ∀ call ∈ run, e.isLive call.1 = true)
    (hrun : ∀ call ∈ run, call.2.effect? name = none ∧ call.2 ≠ .close) :
    (s.after run).entries.get? name = some e := by
  induction run generalizing s with
  | nil => exact h
  | cons call run ih =>
      obtain ⟨hop, hclose⟩ := hrun call List.mem_cons_self
      have hnext := (spares_step hop hclose call.1).kept e h (hlive call List.mem_cons_self)
      exact ih hnext (fun c hc => hlive c (List.mem_cons_of_mem _ hc))
        fun c hc => hrun c (List.mem_cons_of_mem _ hc)

/-! ## Dead entries stay few -/

/-- **The dead entries of a memory store are few and the live ones stay.**  After any calls,
the dead entries, which a purge would count, are at most one more than the accepted writes
since the last multiple of 64.  An entry that lives after a call is held for ever after, until
a call deletes its name, writes it again or closes the store. -/
theorem dead_few_and_live_kept {run : List (Nat × Op)} {now : Nat}
    (htime : Timely (run ++ [(now, .purge)])) :
    (after {} run).dead now ≤ 1 + accepted {} run % 64 ∧ (after {} run).dead now ≤ 64 ∧
    ((after {} run).purge now).1 = (after {} run).dead now ∧
    ∀ before last op mid more, run = before ++ (last, op) :: (mid ++ more) → ∀ name e,
      (after {} (before ++ [(last, op)])).entries.get? name = some e → e.isLive last = true →
      (∀ call ∈ mid, call.2.effect? name = none ∧ call.2 ≠ .close) →
      (after {} (before ++ (last, op) :: mid)).entries.get? name = some e ∧
        e.isLive now = true := by
  have hbound : (after {} run).dead now ≤ 1 + accepted {} run % 64 := by
    obtain ⟨last, htidy⟩ := (tidy_empty 0 _).after htime
    rw [dead_congr fun name e he => htidy.settled name e he (now, .purge) List.mem_cons_self]
    have hwrites : (after {} run).writes = accepted {} run := by
      rw [writes_after, Nat.zero_add]
    rw [← hwrites]
    exact htidy.few
  refine ⟨hbound, by omega, purge_count _ now, ?_⟩
  rintro before last op mid more rfl name e hheld hlive hmid
  rw [List.append_assoc, List.cons_append, List.append_assoc] at htime
  obtain ⟨_, hbefore⟩ := (tidy_empty 0 _).after htime
  have htidy := hbefore.step (List.pairwise_append.mp htime).2.1
  rw [after_append] at hheld
  have hlasting : ∀ call ∈ mid ++ (more ++ [(now, .purge)]), e.isLive call.1 = true := by
    intro call hmem
    rw [htidy.settled name e hheld call hmem, hlive]
  refine ⟨?_, hlasting (now, .purge) (by simp)⟩
  rw [List.append_cons, after_append, after_append]
  exact held_after hheld (fun call hmem => hlasting call (List.mem_append_left _ hmem)) hmid

/-! ## The bound is reached -/

def floodName (i : Nat) : String := String.ofList (List.replicate i 'x')

/-- Writes under `n` different names.  The first lives for ever, the others are dead at
once. -/
def flood (n : Nat) : List (Nat × Op) :=
  (List.range n).map fun i => (0, .set (floodName i) ⟨#[]⟩ (if i = 0 then none else some 0))

theorem length_floodName (i : Nat) : (floodName i).length = i := by
  simp [floodName]

theorem flood_succ (n : Nat) : flood (n + 1)
    = flood n ++ [(0, .set (floodName n) ⟨#[]⟩ (if n = 0 then none else some 0))] := by
  simp [flood, List.range_succ]

theorem flood_succ_eq_cons (n : Nat) : flood (n + 1) = (0, .set (floodName 0) ⟨#[]⟩ none) ::
    (List.range n).map fun i => (0, .set (floodName (i + 1)) ⟨#[]⟩ (some 0)) := by
  simp [flood, List.range_succ_eq_map]

theorem timely_flood (n : Nat) : Timely (flood n ++ [(0, .purge)]) := by
  have hall : ∀ call ∈ flood n ++ [(0, .purge)], call.1 = 0 ∧
      ∀ name payload life, call.2 = .set name payload (some life) → life = 0 := by
    intro call hmem
    rcases List.mem_append.mp hmem with hmem | hmem
    · obtain ⟨i, -, rfl⟩ := List.mem_map.mp hmem
      refine ⟨rfl, ?_⟩
      intro name payload life hop
      simp only [Op.set.injEq] at hop
      grind
    · rw [List.mem_singleton.mp hmem]
      exact ⟨rfl, by rintro name payload life ⟨⟩⟩
  apply List.pairwise_of_forall_mem_list
  rintro ⟨now, op⟩ hmem ⟨later, op'⟩ hmem'
  obtain ⟨rfl, hlife⟩ := hall _ hmem
  obtain ⟨rfl, -⟩ := hall _ hmem'
  exact ⟨Nat.le_refl _, fun name payload life hop => .inl (hlife name payload life hop)⟩

/-- A store that was flooded with `n` names.  It holds no name that is still to come. -/
structure Flooded (s : SharedStore) (n : Nat) : Prop where
  opened : s.closed = false
  writes : s.writes = n
  names : ∀ name e, s.entries.get? name = some e → name.length < n
  dead : s.dead 0 = if n < 64 then n - 1 else 1 + n % 64

theorem Flooded.set {n : Nat} (h : Flooded s n) (hpos : 0 < n) :
    Flooded (s.set 0 (floodName n) ⟨#[]⟩ (some 0)).2 (n + 1) := by
  have hnew : (s.counted 0).entries.get? (floodName n) = none := by
    apply (s.spares_counted 0 _).of_absent
    rw [Option.eq_none_iff_forall_ne_some]
    intro e he
    have := h.names _ e he
    rw [length_floodName] at this
    omega
  rw [set_of_open h.opened]
  refine ⟨(closed_counted s 0).trans h.opened, ?_, ?_, ?_⟩
  · rw [writes_counted, h.writes]
  · intro name e he
    rw [Table.get?_put] at he
    split at he
    · rename_i hname
      rw [hname, length_floodName]
      exact Nat.lt_succ_self n
    · exact Nat.lt_succ_of_lt (h.names name e ((s.spares_counted 0 name).old e he))
  · rw [dead_put_of_absent hnew rfl, dead_counted, h.writes, h.dead]
    show (if n % 64 = 63 then 0 else if n < 64 then n - 1 else 1 + n % 64) + 1 = _
    split_ifs <;> omega

theorem flooded {n : Nat} (h : 0 < n) : Flooded (after {} (flood n)) n := by
  induction n, h using Nat.le_induction with
  | base =>
      refine ⟨rfl, rfl, ?_, rfl⟩
      intro name e he
      change Table.get? (Table.put .empty (floodName 0) _) name = some e at he
      rw [Table.get?_put] at he
      split at he
      · rename_i hname
        rw [hname]
        decide
      · contradiction
  | succ n hpos ih =>
      rw [flood_succ, after_append, if_neg (Nat.ne_of_gt hpos)]
      exact ih.set hpos

theorem accepted_flood {n : Nat} (h : 0 < n) : accepted {} (flood n) = n := by
  have hwrites := (flooded h).writes
  rwa [writes_after, Nat.zero_add] at hwrites

/-- The dead entries pile up anew after each multiple of 64, up to the bound. -/
theorem dead_flood {n : Nat} (h : 64 ≤ n) : (after {} (flood n)).dead 0 = 1 + n % 64 := by
  rw [(flooded (n := n) (by omega)).dead, if_neg (by omega)]

/-- Just before the second sweep, 64 dead entries are held, and the first one that lives. -/
theorem dead_few_and_live_kept_flood :
    Timely (flood 127 ++ [(0, .purge)]) ∧
      (after {} (flood 127)).dead 0 = 64 ∧ (after {} (flood 127)).dead 0 ≤ 1 + 127 % 64 ∧
      (after {} (flood 127)).entries.get? (floodName 0) = some ⟨⟨#[]⟩, none⟩ := by
  have hothers : ∀ call ∈ (List.range 126).map
      (fun i => ((0, .set (floodName (i + 1)) ⟨#[]⟩ (some 0)) : Nat × Op)),
      call.2.effect? (floodName 0) = none ∧ call.2 ≠ .close := by
    intro call hmem
    obtain ⟨i, -, rfl⟩ := List.mem_map.mp hmem
    refine ⟨if_neg ?_, by simp⟩
    intro hname
    have hlength := congrArg String.length hname
    rw [length_floodName, length_floodName] at hlength
    omega
  obtain ⟨hfew, -, -, hkept⟩ := dead_few_and_live_kept (timely_flood 127)
  rw [accepted_flood (by decide)] at hfew
  have hfirst := hkept [] 0 _ _ [] (by rw [List.append_nil]; exact flood_succ_eq_cons 126)
    (floodName 0) ⟨⟨#[]⟩, none⟩ rfl rfl hothers
  rw [List.nil_append, ← flood_succ_eq_cons 126] at hfirst
  exact ⟨timely_flood 127, dead_flood (by decide), hfew, hfirst.1⟩

end SharedStore

end Almanac
