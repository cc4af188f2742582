import Mathlib
import Almanac.Ranking.Retention

/-!
# Which years a period keeps

The years of a period are the first entries of its own years in the order of their
scores, where an entry is a year with its position in the chart.  What is left out is
not more important than anything that is kept.
-/

namespace Almanac.Ranking

/-! ## Priorities -/

/-- The number of periods up to which no composite priority overflows. -/
def maxPeriods : Nat := 42949672

theorem priority_le (r : Relation) : r.priority.toNat ≤ 4 := by
  cases r <;> decide

/-- A composite priority is what its formula says, if that does not overflow, -/
theorem toNat_compositePriority_of_lt {p t : UInt32} (h : p.toNat * 100 + t.toNat < 2 ^ 32) :
    (compositePriority p t).toNat = p.toNat * 100 + t.toNat := by
  have hweight : periodWeight.toNat = 100 := rfl
  rw [compositePriority, UInt32.toNat_add, UInt32.toNat_mul, hweight]
  omega

/-- and so it is among fewer periods than that. -/
theorem toNat_compositePriority {p t : UInt32} (hp : p.toNat < maxPeriods) (ht : t.toNat ≤ 4) :
    (compositePriority p t).toNat = p.toNat * 100 + t.toNat := by
  have hmax : maxPeriods = 42949672 := rfl
  exact toNat_compositePriority_of_lt (by omega)

theorem typePriority_score (p : UInt32) (y : SpecialYear) :
    (score p y).typePriority = (Relation.ofTag y.relation).priority := by
  simp only [score]

theorem compositePriority_score (p : UInt32) (y : SpecialYear) :
    (score p y).compositePriority
      = compositePriority p (Relation.ofTag y.relation).priority := by
  simp only [score]

/-- Within a period, the composite priority orders years by their relation. -/
theorem typePriority_le_of_compositePriority_le {p : UInt32} (hp : p.toNat < maxPeriods)
    {y z : SpecialYear}
    (h : (score p y).compositePriority.toNat ≤ (score p z).compositePriority.toNat) :
    (score p y).typePriority ≤ (score p z).typePriority := by
  have hy := toNat_compositePriority hp (priority_le (Relation.ofTag y.relation))
  have hz := toNat_compositePriority hp (priority_le (Relation.ofTag z.relation))
  rw [compositePriority_score, compositePriority_score, hy, hz] at h
  rw [typePriority_score, typePriority_score, UInt32.le_iff_toNat_le]
  omega

/-! ## The order of scores -/

theorem ScoredYear.before_iff {a b : ScoredYear} :
    a.before b = true ↔ a.compositePriority.toNat < b.compositePriority.toNat ∨
      a.compositePriority.toNat = b.compositePriority.toNat ∧
        a.summary.year.toInt ≤ b.summary.year.toInt := by
  simp only [before, Bool.or_eq_true, Bool.and_eq_true, decide_eq_true_eq, beq_iff_eq,
    UInt32.lt_iff_toNat_lt, Int32.le_iff_toInt_le, ← UInt32.toNat_inj]

theorem ScoredYear.before_trans (a b c : ScoredYear) (hab : a.before b = true)
    (hbc : b.before c = true) : a.before c = true := by
  rw [before_iff] at *
  omega

theorem ScoredYear.before_total (a b : ScoredYear) : (a.before b || b.before a) = true := by
  rw [Bool.or_eq_true, before_iff, before_iff]
  omega

/-! ## Entries -/

abbrev Entry := SpecialYear × Nat

def owned (years : List SpecialYear) (index : UInt32) : List Entry :=
  years.zipIdx.filter fun e => e.1.periodIndex == index

def rankedEntries (years : List SpecialYear) (stub : Stub) : List Entry :=
  (owned years stub.period.index).mergeSort fun a b =>
    (score stub.priority a.1).before (score stub.priority b.1)

def kept (years : List SpecialYear) (cap : Nat) (stub : Stub) : List Entry :=
  (rankedEntries years stub).take cap

variable {years : List SpecialYear} {cap : Nat} {stub : Stub} {e : Entry}

theorem owned_years (years : List SpecialYear) (index : UInt32) :
    (owned years index).map (·.1) = years.filter fun y => y.periodIndex == index := by
  have h := List.filter_map (f := Prod.fst) (p := fun y : SpecialYear => y.periodIndex == index)
    (l := years.zipIdx)
  rw [List.zipIdx_map_fst] at h
  exact h.symm

theorem mem_owned {index : UInt32} :
    e ∈ owned years index ↔ e ∈ years.zipIdx ∧ e.1.periodIndex = index := by
  rw [owned, List.mem_filter, beq_iff_eq]

theorem owned_nodup (years : List SpecialYear) (index : UInt32) :
    ((owned years index).map (·.2)).Nodup := by
  -- The positions of all entries are a range.
  have h := (List.filter_sublist (l := years.zipIdx)
    (p := fun e => e.1.periodIndex == index)).map (·.2)
  apply h.nodup
  rw [List.zipIdx_map_snd]
  exact List.nodup_range'

theorem rankedEntries_perm (years : List SpecialYear) (stub : Stub) :
    (rankedEntries years stub).Perm (owned years stub.period.index) := List.mergeSort_perm _ _

theorem rankedEntries_sorted (years : List SpecialYear) (stub : Stub) :
    (rankedEntries years stub).Pairwise fun a b =>
      (score stub.priority a.1).before (score stub.priority b.1) := by
  rw [rankedEntries]
  refine List.pairwise_mergeSort ?_ ?_ _
  · exact fun a b c => ScoredYear.before_trans _ _ _
  · exact fun a b => ScoredYear.before_total _ _

theorem rankedEntries_scores (years : List SpecialYear) (stub : Stub) :
    (rankedEntries years stub).map (fun e => score stub.priority e.1) = ranked stub years := by
  have hmap : (owned years stub.period.index).map (fun e : Entry => score stub.priority e.1)
      = (years.filter fun y => y.periodIndex == stub.period.index).map (score stub.priority) := by
    rw [← owned_years, List.map_map]
    rfl
  rw [ranked, ← hmap, rankedEntries]
  apply List.map_mergeSort
  intro a _ b _
  rfl

/-- **The years of a period are the scores of the entries that it keeps.** -/
theorem attach_years (years : List SpecialYear) (cap : Nat) (stub : Stub) :
    (attach years cap stub).years = (kept years cap stub).map fun e => score stub.priority e.1 := by
  rw [kept, List.map_take, rankedEntries_scores, attach]

theorem mem_owned_of_mem_kept (h : e ∈ kept years cap stub) :
    e ∈ owned years stub.period.index :=
  (rankedEntries_perm years stub).mem_iff.mp (List.mem_of_mem_take h)

theorem kept_nodup (years : List SpecialYear) (cap : Nat) (stub : Stub) :
    ((kept years cap stub).map (·.2)).Nodup := by
  have hperm := (rankedEntries_perm years stub).map (·.2)
  have hsub := (List.take_sublist cap (rankedEntries years stub)).map (·.2)
  exact hsub.nodup (hperm.nodup_iff.mpr (owned_nodup years stub.period.index))

theorem length_owned (years : List SpecialYear) (index : UInt32) :
    (owned years index).length = years.countP fun y => y.periodIndex == index := by
  rw [← List.length_map (·.1), owned_years, List.countP_eq_length_filter]

theorem length_kept (years : List SpecialYear) (cap : Nat) (stub : Stub) :
    (kept years cap stub).length
      = min cap (years.countP fun y => y.periodIndex == stub.period.index) := by
  rw [kept, List.length_take, (rankedEntries_perm years stub).length_eq, length_owned]

/-- **Only what is not more important is left out**, and only if the cap is reached. -/
theorem kept_of_not_mem (hpriority : stub.priority.toNat < maxPeriods)
    (he : e ∈ owned years stub.period.index) (hout : e ∉ kept years cap stub) :
    (kept years cap stub).length = cap ∧ ∀ k ∈ kept years cap stub,
      (score stub.priority k.1).typePriority ≤ (score stub.priority e.1).typePriority := by
  have hranked : e ∈ rankedEntries years stub := (rankedEntries_perm years stub).mem_iff.mpr he
  rw [← List.take_append_drop cap (rankedEntries years stub), List.mem_append] at hranked
  -- The entry stands behind the cut, so every kept one goes before it.
  rcases hranked with hin | hdrop
  · exact absurd hin hout
  · have hlen : cap < (rankedEntries years stub).length := by
      have hpos := List.length_pos_of_mem hdrop
      rw [List.length_drop] at hpos
      omega
    refine ⟨by rw [kept, List.length_take]; omega, ?_⟩
    intro k hk
    have happend : ((rankedEntries years stub).take cap
        ++ (rankedEntries years stub).drop cap).Pairwise fun a b =>
          (score stub.priority a.1).before (score stub.priority b.1) := by
      rw [List.take_append_drop]
      exact rankedEntries_sorted years stub
    have hbefore := (List.pairwise_append.mp happend).2.2 k hk e hdrop
    apply typePriority_le_of_compositePriority_le hpriority
    rcases ScoredYear.before_iff.mp hbefore with h | h
    · exact Nat.le_of_lt h
    · exact Nat.le_of_eq h.1

end Almanac.Ranking
