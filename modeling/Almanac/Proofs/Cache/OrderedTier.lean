import Mathlib
import Almanac.Cache.LocalTier

/-!
# The local tier is an ordered list

A queue holds its entries in the order in which they were put last, and drops from the
front whatever does not fit.  The local tier is a table with a time on each entry, and
looks for the least time when it is full.  As long as times grow and no entry grows old,
both give the same answers and have the same size: `LocalTier.answers_eq_queue`.  The
order of the table's own list plays no part in this.
-/

namespace Almanac

namespace Table

variable {κ α : Type} [DecidableEq κ] {t : Table κ α}

/-- Tables with the same pairs say the same, in whatever order they have them. -/
theorem get?_of_perm {u : Table κ α} (h : u.entries.Perm t.entries) (name : κ) :
    u.get? name = t.get? name := by
  apply Option.ext
  intro a
  rw [get?_eq_some_iff, get?_eq_some_iff, h.mem_iff]

theorem size_erase_le (name : κ) : (t.erase name).size ≤ t.size := List.length_filter_le _ _

theorem size_erase_lt {name : κ} (h : (t.get? name).isSome = true) :
    (t.erase name).size < t.size := by
  obtain ⟨a, ha⟩ := Option.isSome_iff_exists.mp h
  apply List.length_filter_lt_length_iff_exists.mpr
  exact ⟨(name, a), get?_eq_some_iff.mp ha, by simp⟩

theorem size_put (name : κ) (a : α) : (t.put name a).size = (t.erase name).size + 1 :=
  List.length_append

end Table

namespace LocalTier

variable {α : Type}

/-! ## Runs -/

inductive Op (α : Type) where
  | insert (name : String) (a : α)
  | get (name : String)
  | remove (name : String)
  | purge
  | clear

def Op.isInsert : Op α → Bool
  | insert .. => true
  | _ => false

inductive Answer (α : Type) where
  | found (a : Option α)
  | removed (was : Bool)
  | purged (count : Nat)
  | silent

def step (t : LocalTier α) (now : Nat) : Op α → Answer α × LocalTier α
  | .insert name a => (.silent, t.insert now name a)
  | .get name =>
    let (found, t) := t.get now name
    (.found found, t)
  | .remove name =>
    let (was, t) := t.remove name
    (.removed was, t)
  | .purge =>
    let (count, t) := t.purge now
    (.purged count, t)
  | .clear => (.silent, t.clear)

def after (t : LocalTier α) (run : List (Nat × Op α)) : LocalTier α :=
  run.foldl (fun t call => (t.step call.1 call.2).2) t

/-- The answers to some calls, each with the number of entries after it. -/
def answers (t : LocalTier α) : List (Nat × Op α) → List (Answer α × Nat)
  | [] => []
  | (now, op) :: run =>
    ((t.step now op).1, (t.step now op).2.size) :: answers (t.step now op).2 run

/-- The times of insertions grow, and whatever is inserted is fresh in all later calls. -/
def Lasting (span : Option Nat) (run : List (Nat × Op α)) : Prop :=
  run.Pairwise fun (now, op) (later, next) => op.isInsert = true →
    (∀ life, span = some life → later - now < life) ∧ (next.isInsert = true → now < later)

/-! ## The queue -/

end LocalTier

/-- Values under names, the one that was put first in front. -/
abbrev Queue (α : Type) := List (String × α)

namespace Queue

variable {α β : Type}

/-- A value goes to the end, and an older one of its name is gone. -/
def put (q : Queue α) (name : String) (a : α) : Queue α :=
  q.filter (·.1 != name) ++ [(name, a)]

def insert (capacity : Nat) (q : Queue α) (name : String) (a : α) : Queue α :=
  (put q name a).drop ((put q name a).length - capacity)

open LocalTier (Op Answer)

def step (capacity : Nat) (q : Queue α) : Op α → Answer α × Queue α
  | .insert name a => (.silent, q.insert capacity name a)
  | .get name => (.found ((q.find? (·.1 == name)).map Prod.snd), q)
  | .remove name => (.removed (q.any (·.1 == name)), q.filter (·.1 != name))
  | .purge => (.purged 0, q)
  | .clear => (.silent, [])

def answers (capacity : Nat) (q : Queue α) : List (Op α) → List (Answer α × Nat)
  | [] => []
  | op :: ops =>
    ((q.step capacity op).1, (q.step capacity op).2.length)
      :: answers capacity (q.step capacity op).2 ops

theorem length_put (q : Queue α) (name : String) (a : α) :
    (put q name a).length = (q.filter (·.1 != name)).length + 1 := List.length_append

theorem insert_of_room {capacity : Nat} {q : Queue α} {name : String} (a : α)
    (h : (q.filter (·.1 != name)).length < capacity) : insert capacity q name a = put q name a := by
  unfold insert
  rw [length_put, Nat.sub_eq_zero_of_le h, List.drop_zero]

theorem filter_of_absent {q : Queue α} {name : String} (h : ∀ e ∈ q, e.1 ≠ name) :
    q.filter (·.1 != name) = q := by
  rw [List.filter_eq_self]
  intro e he
  simpa using h e he

/-- A new name in a full queue pushes out the head. -/
theorem insert_of_full {capacity : Nat} {e : String × α} {rest : Queue α} {name : String} (a : α)
    (habsent : ∀ d ∈ e :: rest, d.1 ≠ name) (hfull : rest.length + 1 = capacity) :
    insert capacity (e :: rest) name a = put rest name a := by
  have hrest := filter_of_absent fun d hd => habsent d (List.mem_cons_of_mem e hd)
  have hone : (put (e :: rest) name a).length - capacity = 1 := by
    rw [length_put, filter_of_absent habsent, List.length_cons]
    omega
  unfold insert
  rw [hone, put, put, filter_of_absent habsent, hrest]
  rfl

theorem mem_insert {capacity : Nat} {q : Queue α} {name : String} {a : α} {e : String × α}
    (h : e ∈ insert capacity q name a) : e ∈ q ∨ e = (name, a) := by
  rcases List.mem_append.mp (List.mem_of_mem_drop h) with h | h
  · exact .inl (List.mem_of_mem_filter h)
  · exact .inr (List.mem_singleton.mp h)

/-- What is put does not matter to who has to leave. -/
theorem map_insert (f : α → β) (capacity : Nat) (q : Queue α) (name : String) (a : α) :
    (q.insert capacity name a).map (Prod.map id f)
      = Queue.insert capacity (q.map (Prod.map id f)) name (f a) := by
  simp [insert, put, List.filter_map, Function.comp_def, List.map_drop]

end Queue

namespace LocalTier

variable {α : Type} {t : LocalTier α} {now : Nat}

/-! ## The oldest entry -/

theorem oldest?_ne_none {es : List (String × Stamped α)} (h : es ≠ []) : oldest? es ≠ none := by
  cases es with
  | nil => exact absurd rfl h
  | cons e es =>
      unfold oldest?
      split
      · simp
      · split <;> simp

theorem oldest?_spec {es : List (String × Stamped α)} {o : String × Stamped α}
    (h : oldest? es = some o) : o ∈ es ∧ ∀ e ∈ es, o.2.time ≤ e.2.time := by
  induction es generalizing o with
  | nil => cases h
  | cons e es ih =>
      unfold oldest? at h
      split at h
      · rename_i hnone
        have hes : es = [] := by
          by_contra hne
          exact oldest?_ne_none hne hnone
        obtain rfl := Option.some.inj h
        simp [hes]
      · rename_i first hfirst
        obtain ⟨hmem, hleast⟩ := ih hfirst
        split at h
        · rename_i hlt
          obtain rfl := Option.some.inj h
          refine ⟨List.mem_cons_of_mem _ hmem, ?_⟩
          intro d hd
          rcases List.mem_cons.mp hd with rfl | hd
          · exact Nat.le_of_lt hlt
          · exact hleast d hd
        · rename_i hge
          obtain rfl := Option.some.inj h
          refine ⟨List.mem_cons_self, ?_⟩
          intro d hd
          rcases List.mem_cons.mp hd with rfl | hd
          · exact Nat.le_refl _
          · exact Nat.le_trans (Nat.le_of_not_lt hge) (hleast d hd)

/-! ## The entries in the order of their times -/

structure InOrder (stamped : Queue (Stamped α)) (t : LocalTier α) : Prop where
  perm : stamped.Perm t.entries.entries
  sorted : stamped.Pairwise fun d e => d.2.time < e.2.time

namespace InOrder

variable {stamped : Queue (Stamped α)}

theorem nodup (h : InOrder stamped t) : (stamped.map Prod.fst).Nodup :=
  (h.perm.map Prod.fst).nodup_iff.mpr t.entries.nodup

theorem length_eq (h : InOrder stamped t) : stamped.length = t.size := h.perm.length_eq

theorem find?_eq (h : InOrder stamped t) (name : String) :
    (stamped.find? (·.1 == name)).map Prod.snd = t.entries.get? name :=
  Table.get?_of_perm (u := ⟨stamped, h.nodup⟩) h.perm name

theorem any_eq (h : InOrder stamped t) (name : String) :
    stamped.any (·.1 == name) = (t.entries.get? name).isSome := by
  rw [← h.find?_eq, Option.isSome_map, List.isSome_find?]

/-- **The victim is the head of the queue.** -/
theorem oldest?_eq {e : String × Stamped α} {rest : Queue (Stamped α)}
    (h : InOrder (e :: rest) t) : oldest? t.entries.entries = some e := by
  have hne : t.entries.entries ≠ [] := by
    intro hnil
    have := h.perm.length_eq
    simp [hnil] at this
  obtain ⟨o, ho⟩ := Option.ne_none_iff_exists'.mp (oldest?_ne_none hne)
  obtain ⟨hmem, hleast⟩ := oldest?_spec ho
  have hle : o.2.time ≤ e.2.time := hleast e (h.perm.mem_iff.mp List.mem_cons_self)
  rcases List.mem_cons.mp (h.perm.mem_iff.mpr hmem) with rfl | hrest
  · exact ho
  · have hlt : e.2.time < o.2.time := (List.pairwise_cons.mp h.sorted).1 o hrest
    omega

theorem erase (h : InOrder stamped t) (name : String) :
    InOrder (stamped.filter (·.1 != name)) { t with entries := t.entries.erase name } :=
  ⟨h.perm.filter _, h.sorted.filter _⟩

theorem evict {e : String × Stamped α} {rest : Queue (Stamped α)}
    (h : InOrder (e :: rest) t) : InOrder rest t.evict := by
  have hrest : (e :: rest).filter (·.1 != e.1) = rest := by
    have hnames := (List.nodup_cons.mp h.nodup).1
    rw [List.filter_cons_of_neg (by simp), List.filter_eq_self]
    intro d hd
    simp only [bne_iff_ne]
    intro he
    exact hnames (he ▸ List.mem_map_of_mem hd)
  have herase := h.erase e.1
  rw [hrest] at herase
  unfold LocalTier.evict
  rw [h.oldest?_eq]
  exact herase

theorem put (h : InOrder stamped t) (hless : ∀ e ∈ stamped, e.2.time < now) (name : String)
    (a : α) : InOrder (Queue.put stamped name ⟨a, now⟩)
      { t with entries := t.entries.put name ⟨a, now⟩ } := by
  refine ⟨(h.perm.filter _).append_right _, ?_⟩
  rw [Queue.put, List.pairwise_append]
  refine ⟨h.sorted.filter _, List.pairwise_singleton _ _, ?_⟩
  intro d hd e he
  rw [List.mem_singleton.mp he]
  exact hless d (List.mem_of_mem_filter hd)

theorem purged_eq (h : InOrder stamped t) (hfresh : ∀ e ∈ stamped, t.isFresh now e.2 = true) :
    t.purged now = t := by
  have hall : t.entries.filter (fun _ e => t.isFresh now e) = t.entries := by
    rcases hentries : t.entries with ⟨entries, hnodup⟩
    simp only [Table.filter, Table.mk.injEq, List.filter_eq_self]
    intro e he
    refine hfresh e (h.perm.mem_iff.mpr ?_)
    rw [hentries]
    exact he
  unfold purged
  rw [hall]

theorem ne_of_absent (h : InOrder stamped t) {name : String}
    (hname : t.entries.get? name = none) : ∀ e ∈ stamped, e.1 ≠ name :=
  fun e he => Table.get?_eq_none_iff.mp hname e (h.perm.mem_iff.mp he)

theorem length_filter_of_present (h : InOrder stamped t) {name : String}
    (hname : (t.entries.get? name).isSome = true) :
    (stamped.filter (·.1 != name)).length < t.size := by
  rw [(h.perm.filter _).length_eq]
  exact Table.size_erase_lt hname

/-- **A tier whose entries are fresh inserts like a queue.** -/
theorem insert (h : InOrder stamped t) (hfresh : ∀ e ∈ stamped, t.isFresh now e.2 = true)
    (hless : ∀ e ∈ stamped, e.2.time < now) (hsize : t.size ≤ t.capacity) (name : String) (a : α) :
    InOrder (Queue.insert t.capacity stamped name ⟨a, now⟩) (t.insert now name a) := by
  have hlength := h.length_eq
  unfold LocalTier.insert
  by_cases hzero : t.capacity = 0
  · have hnil : stamped = [] := List.length_eq_zero_iff.mp (by omega)
    subst hnil
    simpa [Queue.insert, Queue.put, hzero] using h
  rw [if_neg hzero]
  cases hname : t.entries.get? name with
  | some e =>
      have hpresent : (t.entries.get? name).isSome = true := by
        rw [hname]
        rfl
      have hroom := h.length_filter_of_present hpresent
      rw [Queue.insert_of_room _ (Nat.lt_of_lt_of_le hroom hsize)]
      exact h.put hless name a
  | none =>
      have habsent := h.ne_of_absent hname
      simp only [Option.isSome_none, Bool.false_eq_true, if_false]
      unfold makeRoom
      rw [h.purged_eq hfresh]
      by_cases hroom : t.size < t.capacity
      · rw [if_pos hroom, Queue.insert_of_room _
          (by rw [Queue.filter_of_absent habsent, hlength]; exact hroom)]
        exact h.put hless name a
      -- The tier is full of fresh entries, so the oldest of them leaves.
      · rw [if_neg hroom, if_neg hroom]
        cases stamped with
        | nil =>
            simp only [List.length_nil] at hlength
            omega
        | cons e rest =>
            have hput := h.evict.put (fun d hd => hless d (List.mem_cons_of_mem _ hd)) name a
            rw [List.length_cons] at hlength
            rw [Queue.insert_of_full _ habsent (by omega)]
            exact hput

end InOrder

/-! ## Bounds -/

theorem size_purged_le (t : LocalTier α) (now : Nat) : (t.purged now).size ≤ t.size :=
  List.length_filter_le _ _

theorem size_evict_lt (h : 0 < t.size) : t.evict.size < t.size := by
  unfold evict
  split
  · rename_i hnone
    have hnil : t.entries.entries = [] := by
      by_contra hne
      exact oldest?_ne_none hne hnone
    exact absurd (congrArg List.length hnil) (Nat.ne_of_gt h)
  · rename_i e he
    apply Table.size_erase_lt
    rw [Table.get?_eq_some_iff.mpr (oldest?_spec he).1]
    rfl

theorem limits_makeRoom (t : LocalTier α) (now : Nat) :
    (t.makeRoom now).capacity = t.capacity ∧ (t.makeRoom now).span = t.span := by
  unfold makeRoom evict
  split
  · exact ⟨rfl, rfl⟩
  · split
    · exact ⟨rfl, rfl⟩
    · split <;> exact ⟨rfl, rfl⟩

theorem size_makeRoom_lt (hpos : 0 < t.capacity) (h : t.size ≤ t.capacity) (now : Nat) :
    (t.makeRoom now).size < t.capacity := by
  have hpurged := t.size_purged_le now
  unfold makeRoom
  split
  · assumption
  · split
    · assumption
    · have := size_evict_lt (t := t.purged now) (by omega)
      omega

theorem limits_step (t : LocalTier α) (now : Nat) (op : Op α) :
    (t.step now op).2.capacity = t.capacity ∧ (t.step now op).2.span = t.span := by
  cases op with
  | insert name a =>
      simp only [step, insert]
      split
      · exact ⟨rfl, rfl⟩
      · split
        · exact ⟨rfl, rfl⟩
        · exact t.limits_makeRoom now
  | get name =>
      simp only [step, get]
      split
      · exact ⟨rfl, rfl⟩
      · split <;> exact ⟨rfl, rfl⟩
  | remove name => exact ⟨rfl, rfl⟩
  | purge => exact ⟨rfl, rfl⟩
  | clear => exact ⟨rfl, rfl⟩

theorem size_insert_le (h : t.size ≤ t.capacity) (name : String) (a : α) :
    (t.insert now name a).size ≤ t.capacity := by
  unfold insert
  split
  · exact h
  · rename_i hzero
    show (Table.put _ _ _).size ≤ _
    rw [Table.size_put]
    split
    · rename_i hname
      exact Nat.le_trans (Table.size_erase_lt hname) h
    · have hroom := size_makeRoom_lt (Nat.pos_of_ne_zero hzero) h now
      exact Nat.lt_of_le_of_lt (Table.size_erase_le name) hroom

theorem size_step_le (h : t.size ≤ t.capacity) (now : Nat) (op : Op α) :
    (t.step now op).2.size ≤ t.capacity := by
  cases op with
  | insert name a => exact size_insert_le h name a
  | get name =>
      simp only [step, get]
      split
      · exact h
      · split
        · exact h
        · exact Nat.le_trans (Table.size_erase_le name) h
  | remove name => exact Nat.le_trans (Table.size_erase_le name) h
  | purge => exact Nat.le_trans (t.size_purged_le now) h
  | clear => exact Nat.zero_le _

/-! ## Losses -/

def Has (t : LocalTier α) (name : String) : Prop := (t.entries.get? name).isSome = true

inductive Loses (t : LocalTier α) (now : Nat) (name : String) : Op α → Prop where
  | removed : Loses t now name (.remove name)
  | cleared : Loses t now name .clear
  | read {e : Stamped α} (held : t.entries.get? name = some e) (old : t.isFresh now e = false) :
      Loses t now name (.get name)
  | purged {e : Stamped α} (held : t.entries.get? name = some e) (old : t.isFresh now e = false) :
      Loses t now name .purge
  /-- It makes room for a new name. -/
  | evicted {other : String} {a : α} (absent : ¬t.Has other) (full : t.size = t.capacity) :
      Loses t now name (.insert other a)

theorem has_erase {name other : String} (h : t.Has name) (hne : name ≠ other) :
    Has { t with entries := t.entries.erase other } name := by
  unfold Has at h ⊢
  rw [Table.get?_erase, if_neg hne]
  exact h

theorem has_put {name other : String} (h : t.Has name) (e : Stamped α) :
    Has { t with entries := t.entries.put other e } name := by
  unfold Has at h ⊢
  rw [Table.get?_put]
  split
  · rfl
  · exact h

theorem loses_of_step {name : String} {op : Op α} (hsize : t.size ≤ t.capacity) (h : t.Has name)
    (hgone : ¬(t.step now op).2.Has name) : Loses t now name op := by
  cases op with
  | insert other a =>
      simp only [step, insert] at hgone
      split at hgone
      · exact absurd h hgone
      · split at hgone
        · exact absurd (has_put h _) hgone
        · rename_i habsent
          refine .evicted habsent ?_
          by_contra hroom
          have hlt : t.size < t.capacity := Nat.lt_of_le_of_ne hsize hroom
          rw [makeRoom, if_pos hlt] at hgone
          exact hgone (has_put h _)
  | get other =>
      simp only [step, get] at hgone
      split at hgone
      · exact absurd h hgone
      · rename_i e he
        split at hgone
        · exact absurd h hgone
        · rename_i hold
          by_cases hname : name = other
          · subst hname
            exact .read he (by simpa using hold)
          · exact absurd (has_erase h hname) hgone
  | remove other =>
      by_cases hname : name = other
      · subst hname
        exact .removed
      · exact absurd (has_erase h hname) hgone
  | purge =>
      obtain ⟨e, he⟩ := Option.isSome_iff_exists.mp h
      refine .purged he ?_
      by_contra hfresh
      apply hgone
      show (Table.get? (Table.filter _ _) name).isSome = true
      rw [Table.get?_filter, he]
      simpa [Option.filter] using hfresh
  | clear => exact .cleared

/-! ## The simulation -/

/-- The queue has the entries of the tier in the order of their times.  In the calls to
come they are fresh, and older than what is inserted. -/
structure Mirrors (t : LocalTier α) (q : Queue α) (run : List (Nat × Op α)) : Prop where
  bounded : t.size ≤ t.capacity
  ordered : ∃ stamped : Queue (Stamped α), InOrder stamped t ∧
    q = stamped.map (Prod.map id Stamped.value) ∧
    ∀ e ∈ stamped, ∀ call ∈ run,
      t.isFresh call.1 e.2 = true ∧ (call.2.isInsert = true → e.2.time < call.1)

theorem mirrors_empty (capacity : Nat) (span : Option Nat) (run : List (Nat × Op α)) :
    Mirrors (empty capacity span) [] run :=
  ⟨Nat.zero_le _, [], ⟨.nil, .nil⟩, rfl, by simp⟩

theorem Mirrors.length_eq {q : Queue α} {run : List (Nat × Op α)} (h : Mirrors t q run) :
    t.size = q.length := by
  obtain ⟨stamped, horder, rfl, -⟩ := h.ordered
  rw [List.length_map, horder.length_eq]

theorem isFresh_of_span {u : LocalTier α} (h : u.span = t.span) (now : Nat) (e : Stamped α) :
    u.isFresh now e = t.isFresh now e := by
  unfold isFresh
  rw [h]

theorem fresh_of_lasting {name : String} {a : α} {run : List (Nat × Op α)}
    (h : Lasting t.span ((now, .insert name a) :: run)) :
    ∀ call ∈ run, t.isFresh call.1 ⟨a, now⟩ = true ∧ (call.2.isInsert = true → now < call.1) := by
  intro call hmem
  obtain ⟨hlife, hless⟩ := (List.pairwise_cons.mp h).1 call hmem rfl
  refine ⟨?_, hless⟩
  unfold isFresh
  split
  · rfl
  · rename_i life hspan
    exact decide_eq_true (hlife life hspan)

theorem Mirrors.step {q : Queue α} {op : Op α} {run : List (Nat × Op α)}
    (h : Mirrors t q ((now, op) :: run)) (htime : Lasting t.span ((now, op) :: run)) :
    (t.step now op).1 = (q.step t.capacity op).1 ∧
      Mirrors (t.step now op).2 (q.step t.capacity op).2 run := by
  obtain ⟨hbound, stamped, horder, rfl, hcalls⟩ := h
  have hnow : ∀ e ∈ stamped, t.isFresh now e.2 = true := fun e he =>
    (hcalls e he (now, op) List.mem_cons_self).1
  have hlater : ∀ e ∈ stamped, ∀ call ∈ run,
      t.isFresh call.1 e.2 = true ∧ (call.2.isInsert = true → e.2.time < call.1) :=
    fun e he call hmem => hcalls e he call (List.mem_cons_of_mem _ hmem)
  obtain ⟨hcapacity, hspan⟩ := limits_step t now op
  have hnext : (t.step now op).2.size ≤ (t.step now op).2.capacity := by
    rw [hcapacity]
    exact size_step_le hbound now op
  cases op with
  | insert name a =>
      have hless : ∀ e ∈ stamped, e.2.time < now := fun e he =>
        (hcalls e he _ List.mem_cons_self).2 rfl
      refine ⟨rfl, hnext, _, horder.insert hnow hless hbound name a,
        (Queue.map_insert Stamped.value t.capacity stamped name ⟨a, now⟩).symm, ?_⟩
      intro e he call hmem
      rw [isFresh_of_span hspan]
      rcases Queue.mem_insert he with he | rfl
      · exact hlater e he call hmem
      · exact fresh_of_lasting htime call hmem
  | get name =>
      have hget : t.get now name = ((t.entries.get? name).map Stamped.value, t) := by
        unfold get
        split
        · rename_i hnone
          rw [hnone, Option.map_none]
        · rename_i e he
          have hmem : (name, e) ∈ stamped := horder.perm.mem_iff.mpr (Table.get?_eq_some_iff.mp he)
          rw [if_pos (hnow _ hmem), he, Option.map_some]
      simp only [LocalTier.step, hget, Queue.step]
      refine ⟨?_, hbound, stamped, horder, rfl, hlater⟩
      rw [← horder.find?_eq, List.find?_map, Option.map_map, Option.map_map]
      rfl
  | remove name =>
      refine ⟨?_, hnext, _, horder.erase name, ?_, ?_⟩
      · simp only [LocalTier.step, remove, Queue.step, ← horder.any_eq, List.any_map]
        rfl
      · simp only [Queue.step, List.filter_map]
        rfl
      · exact fun e he => hlater e (List.mem_of_mem_filter he)
  | purge =>
      have hpurge : t.purge now = (0, t) := by
        unfold purge
        rw [horder.purged_eq hnow, Nat.sub_self]
      simp only [LocalTier.step, hpurge, Queue.step]
      exact ⟨trivial, hbound, stamped, horder, rfl, hlater⟩
  | clear => exact ⟨rfl, hnext, [], ⟨.nil, .nil⟩, rfl, by simp⟩

theorem Mirrors.answers {q : Queue α} {run : List (Nat × Op α)} (h : Mirrors t q run)
    (htime : Lasting t.span run) : t.answers run = q.answers t.capacity (run.map Prod.snd) := by
  induction run generalizing t q with
  | nil => rfl
  | cons call run ih =>
      obtain ⟨now, op⟩ := call
      obtain ⟨hanswer, hnext⟩ := h.step htime
      obtain ⟨hcapacity, hspan⟩ := limits_step t now op
      have htimes := (List.pairwise_cons.mp htime).2
      rw [LocalTier.answers, List.map_cons, Queue.answers, hanswer, hnext.length_eq,
        ih hnext (by rw [hspan]; exact htimes), hcapacity]

theorem Mirrors.after {q : Queue α} {before more : List (Nat × Op α)}
    (h : Mirrors t q (before ++ more)) (htime : Lasting t.span (before ++ more)) :
    ∃ q', Mirrors (t.after before) q' more := by
  induction before generalizing t q with
  | nil => exact ⟨q, h⟩
  | cons call before ih =>
      obtain ⟨now, op⟩ := call
      have hnext := (h.step htime).2
      refine ih hnext ?_
      rw [(limits_step t now op).2]
      exact (List.pairwise_cons.mp htime).2

/-! ## The local tier is an ordered list -/

theorem limits_after (t : LocalTier α) (run : List (Nat × Op α)) (h : t.size ≤ t.capacity) :
    (t.after run).capacity = t.capacity ∧ (t.after run).span = t.span ∧
      (t.after run).size ≤ t.capacity := by
  induction run generalizing t with
  | nil => exact ⟨rfl, rfl, h⟩
  | cons call run ih =>
      obtain ⟨hcapacity, hspan⟩ := limits_step t call.1 call.2
      have hsize := size_step_le h call.1 call.2
      rw [← hcapacity] at hsize
      obtain ⟨hcapacity', hspan', hsize'⟩ := ih _ hsize
      refine ⟨hcapacity'.trans hcapacity, hspan'.trans hspan, ?_⟩
      rw [← hcapacity]
      exact hsize'

theorem get_of_span_zero (h : t.span = some 0) (name : String) : (t.get now name).1 = none := by
  unfold get isFresh
  rw [h]
  split
  · rfl
  · rfl

theorem found_of_span_zero (h : t.span = some 0) {run : List (Nat × Op α)} {a : Option α}
    {size : Nat} (hmem : (.found a, size) ∈ t.answers run) : a = none := by
  induction run generalizing t with
  | nil => cases hmem
  | cons call run ih =>
      obtain ⟨now, op⟩ := call
      rcases List.mem_cons.mp hmem with hmem | hmem
      · cases op with
        | get name =>
            have hfound := (Prod.mk.inj hmem).1
            simp only [LocalTier.step, get_of_span_zero h, Answer.found.injEq] at hfound
            exact hfound
        | insert name a => cases (Prod.mk.inj hmem).1
        | remove name => cases (Prod.mk.inj hmem).1
        | purge => cases (Prod.mk.inj hmem).1
        | clear => cases (Prod.mk.inj hmem).1
      · exact ih ((limits_step t now op).2.trans h) hmem

/-- **The answers and sizes of the local tier are those of a queue**, as long as times
grow and entries last; then no entry is ever too old.  If nothing lives at all, nothing
is found.  In every run, a tier holds no more than it takes; an entry that has not been
removed and has not grown old only leaves for a new name in a full tier, and nothing
leaves for a name that is there. -/
theorem answers_eq_queue (capacity : Nat) (span : Option Nat) (run : List (Nat × Op α)) :
    (Lasting span run →
      answers (empty capacity span) run = Queue.answers capacity [] (run.map Prod.snd) ∧
      ∀ before now op more, run = before ++ (now, op) :: more →
        ∀ name e, (after (empty capacity span) before).entries.get? name = some e →
          (after (empty capacity span) before).isFresh now e = true) ∧
    (span = some 0 → ∀ a size, (.found a, size) ∈ answers (empty capacity span) run → a = none) ∧
    ∀ before now op more, run = before ++ (now, op) :: more →
      let t := after (empty capacity span) before
      t.size ≤ capacity ∧ (t.step now op).2.size ≤ capacity ∧
      (∀ name, t.Has name → ¬(t.step now op).2.Has name → Loses t now name op) ∧
      ∀ name a, op = .insert name a → t.Has name →
        ∀ other, t.Has other → (t.step now op).2.Has other := by
  refine ⟨?_, fun hzero a size hmem => found_of_span_zero hzero hmem, ?_⟩
  · intro htime
    refine ⟨(mirrors_empty capacity span run).answers htime, ?_⟩
    rintro before now op more rfl name e he
    obtain ⟨q, -, stamped, horder, -, hcalls⟩ := (mirrors_empty capacity span _).after htime
    have hmem : (name, e) ∈ stamped := horder.perm.mem_iff.mpr (Table.get?_eq_some_iff.mp he)
    exact (hcalls _ hmem _ List.mem_cons_self).1
  · rintro before now op more -
    obtain ⟨hcapacity, -, hsize⟩ :=
      limits_after (empty capacity span : LocalTier α) before (Nat.zero_le _)
    have hbound := hsize.trans_eq hcapacity.symm
    have hnext := size_step_le hbound now op
    rw [hcapacity] at hnext
    refine ⟨hsize, hnext, fun name h hgone => loses_of_step hbound h hgone, ?_⟩
    rintro name a rfl h other hother
    by_contra hgone
    cases loses_of_step hbound hother hgone with
    | evicted habsent hfull => exact habsent h

/-- A name that is put again in a tier of two, before a third name comes. -/
def crowdedRun : List (Nat × Op Nat) :=
  [(0, .insert "a" 1), (1, .insert "b" 2), (2, .get "a"), (3, .insert "a" 3), (4, .insert "c" 4),
    (4, .purge), (5, .get "b"), (5, .get "a"), (6, .remove "a"), (6, .remove "b"), (7, .clear)]

theorem answers_crowdedRun :
    Lasting (some 8) crowdedRun ∧ answers (empty 2 (some 8)) crowdedRun
      = [(.silent, 1), (.silent, 2), (.found (some 1), 2), (.silent, 2), (.silent, 2),
        (.purged 0, 2), (.found none, 2), (.found (some 3), 2), (.removed true, 1),
        (.removed false, 1), (.silent, 0)] := by
  have htime : Lasting (some 8) crowdedRun := by simp [Lasting, crowdedRun, Op.isInsert]
  exact ⟨htime, ((answers_eq_queue 2 (some 8) crowdedRun).1 htime).1⟩

end LocalTier

end Almanac
