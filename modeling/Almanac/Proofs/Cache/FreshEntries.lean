import Mathlib
import Almanac.Proofs.Cache.OrderedTier

/-!
# Only fresh entries show

A local tier answers with its fresh entries only, and the others make room before any of
them is pushed out.  So tiers with the same fresh entries are alike, `LocalTier.Like`, and
stay alike whatever is done to both; and a look-up only drops what does not show.
-/

namespace Almanac

/-! ## Tables -/

namespace Table

variable {κ α : Type} {t u : Table κ α}

theorem eq_of_entries (h : t.entries = u.entries) : t = u := by
  cases t
  cases u
  cases h
  rfl

theorem filter_filter (t : Table κ α) (keep more : κ → α → Bool) :
    (t.filter keep).filter more = t.filter fun n a => keep n a && more n a := by
  apply eq_of_entries
  simp only [filter, List.filter_filter]
  congr 1
  funext e
  exact Bool.and_comm _ _

variable [DecidableEq κ]

theorem erase_filter (t : Table κ α) (keep : κ → α → Bool) (name : κ) :
    (t.filter keep).erase name = (t.erase name).filter keep := by
  rw [erase, erase, filter_filter, filter_filter]
  congr 1
  funext n a
  exact Bool.and_comm _ _

/-- What a filter keeps after a put does not depend on what it drops before. -/
theorem put_filter (t : Table κ α) (keep : κ → α → Bool) (name : κ) (a : α) :
    ((t.filter keep).put name a).filter keep = (t.put name a).filter keep := by
  apply eq_of_entries
  have hsame : ((t.filter keep).erase name).filter keep = (t.erase name).filter keep := by
    rw [erase_filter, filter_filter]
    simp only [Bool.and_self]
  show (((t.filter keep).erase name).entries ++ [(name, a)]).filter _
    = ((t.erase name).entries ++ [(name, a)]).filter _
  rw [List.filter_append, List.filter_append]
  exact congrArg (fun u : Table κ α => u.entries ++ _) hsame

end Table

/-! ## Local tiers -/

namespace LocalTier

variable {α : Type} {t t' : LocalTier α} {now later : Nat}

theorem isFresh_of_le (h : now ≤ later) {e : Stamped α} (he : t.isFresh later e = true) :
    t.isFresh now e = true := by
  unfold isFresh at he ⊢
  cases hspan : t.span with
  | none => rfl
  | some span =>
      simp only [hspan, decide_eq_true_eq] at he ⊢
      omega

theorem purged_purged (t : LocalTier α) (h : now ≤ later) :
    (t.purged now).purged later = t.purged later := by
  have hentries : (t.entries.filter fun _ e => t.isFresh now e).filter
      (fun _ e => t.isFresh later e) = t.entries.filter fun _ e => t.isFresh later e := by
    rw [Table.filter_filter]
    congr 1
    funext _ e
    cases hlater : t.isFresh later e with
    | false => exact Bool.and_false _
    | true => rw [isFresh_of_le h hlater, Bool.and_self]
  exact congrArg (fun entries => { t with entries }) hentries

theorem get_eq_purged (t : LocalTier α) (now : Nat) (name : String) :
    (t.get now name).1 = ((t.purged now).entries.get? name).map Stamped.value := by
  have hget : (t.purged now).entries.get? name = (t.entries.get? name).filter (t.isFresh now) :=
    Table.get?_filter t.entries _ name
  rw [hget]
  unfold get
  cases t.entries.get? name with
  | none => rfl
  | some e => cases hfresh : t.isFresh now e <;> simp [hfresh, Option.filter]

theorem purged_get (t : LocalTier α) (now : Nat) (name : String) :
    (t.get now name).2.purged now = t.purged now := by
  unfold get
  cases hget : t.entries.get? name with
  | none => rfl
  | some e =>
      by_cases hfresh : t.isFresh now e = true
      · simp only [hfresh, if_true]
      · have herase : (t.entries.erase name).filter (fun _ e => t.isFresh now e)
            = t.entries.filter fun _ e => t.isFresh now e := by
          rw [Table.erase, Table.filter_filter]
          apply Table.eq_of_entries
          apply List.filter_congr
          intro d hd
          -- The only entry of the name is the one that is not fresh.
          by_cases hname : d.1 = name
          · have hde : d.2 = e := by
              have hd' : t.entries.get? name = some d.2 :=
                Table.get?_eq_some_iff.mpr (hname ▸ hd)
              exact Option.some.inj (hd'.symm.trans hget)
            simp [hde, hfresh]
          · simp [hname]
        simp only [hfresh]
        exact congrArg (fun entries => { t with entries }) herase

theorem purged_remove (t : LocalTier α) (now : Nat) (name : String) :
    (t.remove name).2.purged now = ((t.purged now).remove name).2 :=
  congrArg (fun entries => { t with entries }) (Table.erase_filter t.entries _ name).symm

/-- Room is made for a new name among the fresh entries: what is not fresh is never a
reason to push out one that is. -/
theorem purged_makeRoom (t : LocalTier α) (now : Nat) :
    (t.makeRoom now).purged now = ((t.purged now).makeRoom now).purged now := by
  have hself : (t.purged now).purged now = t.purged now := t.purged_purged (Nat.le_refl now)
  have hle : (t.purged now).size ≤ t.size := t.size_purged_le now
  have hcapacity : (t.purged now).capacity = t.capacity := rfl
  unfold makeRoom
  rw [hself, hcapacity]
  by_cases hroom : t.size < t.capacity
  · rw [if_pos hroom, if_pos (Nat.lt_of_le_of_lt hle hroom), hself]
  · rw [if_neg hroom]
    by_cases hpurged : (t.purged now).size < t.capacity
    · rw [if_pos hpurged, if_pos hpurged]
    · rw [if_neg hpurged, if_neg hpurged]

theorem purged_put (h : t.purged now = t'.purged now) (name : String) (e : Stamped α) :
    ({ t with entries := t.entries.put name e } : LocalTier α).purged now
      = ({ t' with entries := t'.entries.put name e } : LocalTier α).purged now := by
  have hput : ∀ u : LocalTier α,
      ({ u with entries := u.entries.put name e } : LocalTier α).purged now
        = ({ u.purged now with entries := (u.purged now).entries.put name e }
            : LocalTier α).purged now :=
    fun u => congrArg (fun entries => { u with entries })
      (Table.put_filter u.entries (fun _ d => u.isFresh now d) name e).symm
  rw [hput t, hput t', h]

theorem size_purged_lt {name : String} {e : Stamped α} (hget : t.entries.get? name = some e)
    (hold : t.isFresh now e = false) : (t.purged now).size < t.size := by
  apply List.length_filter_lt_length_iff_exists.mpr
  exact ⟨(name, e), Table.get?_eq_some_iff.mp hget, by simp [hold]⟩

/-- **An insertion shows what it would show without the old entries.** -/
theorem purged_insert (hroom : t.size ≤ t.capacity) (now : Nat) (name : String) (a : α) :
    (t.insert now name a).purged now = ((t.purged now).insert now name a).purged now := by
  have hself : (t.purged now).purged now = t.purged now := t.purged_purged (Nat.le_refl now)
  have hcapacity : (t.purged now).capacity = t.capacity := rfl
  have hpurged : (t.purged now).entries.get? name
      = (t.entries.get? name).filter (t.isFresh now) := Table.get?_filter t.entries _ name
  unfold insert
  rw [hcapacity, hpurged]
  by_cases hzero : t.capacity = 0
  · rw [if_pos hzero, if_pos hzero, hself]
  · rw [if_neg hzero, if_neg hzero]
    apply purged_put
    cases hget : t.entries.get? name with
    | none => exact t.purged_makeRoom now
    | some e =>
        cases hfresh : t.isFresh now e with
        | true =>
            simp only [Option.filter, hfresh, if_true, Option.isSome_some]
            exact hself.symm
        | false =>
            -- The old entry of the name is in the way of nobody.
            have hless : (t.purged now).size < t.capacity :=
              Nat.lt_of_lt_of_le (size_purged_lt hget hfresh) hroom
            have hkeep : (t.purged now).makeRoom now = t.purged now := if_pos hless
            simp only [Option.filter, hfresh, Option.isSome_some, if_true, Bool.false_eq_true,
              if_false, Option.isSome_none, hkeep, hself]

/-- Two tiers that show the same at a time, and hold no more than they take. -/
structure Like (now : Nat) (t t' : LocalTier α) : Prop where
  purged : t.purged now = t'.purged now
  room : t.size ≤ t.capacity
  room' : t'.size ≤ t'.capacity

theorem like_refl (hroom : t.size ≤ t.capacity) (now : Nat) : t.Like now t := ⟨rfl, hroom, hroom⟩

theorem Like.trans {t'' : LocalTier α} (h : t.Like now t') (h' : t'.Like now t'') :
    t.Like now t'' := ⟨h.purged.trans h'.purged, h.room, h'.room'⟩

theorem Like.mono (h : t.Like now t') (hle : now ≤ later) : t.Like later t' := by
  refine ⟨?_, h.room, h.room'⟩
  rw [← t.purged_purged hle, h.purged, t'.purged_purged hle]

theorem room_step (hroom : t.size ≤ t.capacity) (now : Nat) (op : Op α) :
    (t.step now op).2.size ≤ (t.step now op).2.capacity :=
  (size_step_le hroom now op).trans_eq (t.limits_step now op).1.symm

theorem Like.get (h : t.Like now t') (name : String) :
    (t.get now name).1 = (t'.get now name).1 ∧ (t.get now name).2.Like now (t'.get now name).2 := by
  refine ⟨by rw [get_eq_purged, get_eq_purged, h.purged], ?_, room_step h.room now (.get name),
    room_step h.room' now (.get name)⟩
  rw [purged_get, purged_get, h.purged]

theorem like_get (hroom : t.size ≤ t.capacity) (now : Nat) (name : String) :
    t.Like now (t.get now name).2 :=
  ⟨(t.purged_get now name).symm, hroom, room_step hroom now (.get name)⟩

theorem Like.remove (h : t.Like now t') (name : String) :
    (t.remove name).2.Like now (t'.remove name).2 :=
  ⟨by rw [purged_remove, purged_remove, h.purged], room_step h.room now (.remove name),
    room_step h.room' now (.remove name)⟩

theorem Like.insert (h : t.Like now t') (name : String) (a : α) :
    (t.insert now name a).Like now (t'.insert now name a) := by
  refine ⟨?_, room_step h.room now (.insert name a), room_step h.room' now (.insert name a)⟩
  rw [purged_insert h.room, purged_insert h.room', h.purged]

theorem Like.purge (h : t.Like now t') : (t.purge now).2.Like now (t'.purge now).2 :=
  ⟨congrArg (·.purged now) h.purged, room_step h.room now .purge, room_step h.room' now .purge⟩

theorem Like.clear (h : t.Like now t') : t.clear.Like now t'.clear := by
  have hsame : (t.purged now).clear = (t'.purged now).clear := congrArg LocalTier.clear h.purged
  exact ⟨congrArg (·.purged now) hsame, Nat.zero_le _, Nat.zero_le _⟩

end LocalTier

end Almanac
