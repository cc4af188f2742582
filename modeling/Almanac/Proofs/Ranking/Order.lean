import Mathlib
import Almanac.Proofs.Ranking.Accounts

/-!
# The order of all years of a view

The years of a view stand in one order over all its periods, and the key of that order can
be taken apart again: the weight of a period outweighs every relation, so no year of a
period comes before one of a more important period.
-/

namespace Almanac

open Ranking

/-- Whether a year may stand before another: by composite priority, then by calendar year. -/
def RankedYear.mayPrecede (a b : RankedYear) : Prop :=
  a.compositePriority < b.compositePriority ∨
    a.compositePriority = b.compositePriority ∧ a.summary.year ≤ b.summary.year

structure RankedYear.IsKeyed (priority : UInt32) (y : RankedYear) : Prop where
  period : y.compositePriority / 100 = priority
  type : y.compositePriority % 100 = y.typePriority
  relation : y.typePriority = (Relation.ofTag y.summary.relationTag).priority

/-- The years of a view in one order, with the keys by which they are ordered. -/
structure View.IsOrdered (v : View) : Prop where
  sorted : (v.periods.flatMap (·.years)).Pairwise RankedYear.mayPrecede
  keyed : ∀ p ∈ v.periods, ∀ y ∈ p.years, y.IsKeyed p.priority

namespace Ranking

/-! ## Priorities of periods -/

theorem numbered_pairwise {first : Nat} {ps : List Period}
    (h : first + ps.length ≤ UInt32.size) :
    (numbered first ps).Pairwise fun s t => s.priority < t.priority := by
  induction ps generalizing first with
  | nil => exact .nil
  | cons p ps ih =>
      rw [List.length_cons] at h
      apply List.Pairwise.cons
      · intro stub hs
        obtain ⟨n, hlo, hhi, hn⟩ := numbered_priority hs
        rw [UInt32.lt_iff_toNat_lt, hn, UInt32.toNat_ofNat_of_lt' (by omega),
          UInt32.toNat_ofNat_of_lt' (by omega)]
        omega
      · exact ih (by omega)

theorem select_pairwise {periods : List Period} {current count : Nat}
    (h : (select periods current count).length < maxPeriods) :
    (select periods current count).Pairwise fun s t => s.priority < t.priority := by
  rw [select_eq] at h ⊢
  rw [length_numbered, maxPeriods] at h
  apply numbered_pairwise
  rw [UInt32.size]
  omega

/-! ## Years of one period -/

section

variable {years : List SpecialYear} {cap : Nat} {stub : Stub}

theorem isKeyed_score (h : stub.priority.toNat < maxPeriods) (y : SpecialYear) (tier : Tier) :
    ((score stub.priority y).labelled tier).IsKeyed stub.priority := by
  have hle := priority_le (Relation.ofTag y.relation)
  have hcomposite := toNat_compositePriority h hle
  have h100 : (100 : UInt32).toNat = 100 := rfl
  rw [← compositePriority_score stub.priority y] at hcomposite
  constructor
  · rw [← UInt32.toNat_inj, UInt32.toNat_div, h100]
    simp only [ScoredYear.labelled]
    omega
  · rw [← UInt32.toNat_inj, UInt32.toNat_mod, h100]
    simp only [ScoredYear.labelled, typePriority_score]
    omega
  · rw [ScoredYear.labelled, typePriority_score]
    rfl

theorem labelled_keyed (h : stub.priority.toNat < maxPeriods) {y : RankedYear}
    (hy : y ∈ (attach years cap stub).labelled.years) : y.IsKeyed stub.priority := by
  rw [labelled_years] at hy
  obtain ⟨e, -, rfl⟩ := List.mem_map.mp hy
  exact isKeyed_score h e.1 _

theorem ScoredYear.mayPrecede_of_before {a b : ScoredYear} (h : a.before b = true)
    (tier : Tier) : (a.labelled tier).mayPrecede (b.labelled tier) := by
  rw [before_iff, ← UInt32.lt_iff_toNat_lt, UInt32.toNat_inj, ← Int32.le_iff_toInt_le] at h
  exact h

theorem labelled_sorted (years : List SpecialYear) (cap : Nat) (stub : Stub) :
    (attach years cap stub).labelled.years.Pairwise RankedYear.mayPrecede := by
  rw [labelled_years, List.pairwise_map]
  apply ((rankedEntries_sorted years stub).sublist (List.take_sublist cap _)).imp
  intro a b hab
  exact ScoredYear.mayPrecede_of_before hab _

end

/-! ## Years of two periods -/

/-- The weight of a period counts more than all relations. -/
theorem mayPrecede_of_priority_lt {p q : UInt32} {y z : RankedYear} (h : p < q)
    (hy : y.IsKeyed p) (hz : z.IsKeyed q) : y.mayPrecede z := by
  left
  have hyp := congrArg UInt32.toNat hy.period
  have hzq := congrArg UInt32.toNat hz.period
  rw [UInt32.toNat_div] at hyp hzq
  have h100 : (100 : UInt32).toNat = 100 := rfl
  rw [h100] at hyp hzq
  rw [UInt32.lt_iff_toNat_lt] at h ⊢
  omega

/-- **The report is in one order**: over all periods the years ascend by their composite
priority and then by the calendar year, and every composite priority gives back the period
and the relation from which it was made. -/
theorem rank_isOrdered {chart : Chart} (birth reference : Date) {shape : Shape}
    (hfew : min (max shape.periodCount.toNat 1) chart.periods.length < maxPeriods) :
    (∃ v, rank chart birth reference shape = .ok v ∧
      v.periods.length = min (max shape.periodCount.toNat 1) chart.periods.length ∧
      v.IsOrdered) ∨
    chart.periods = [] ∧ rank chart birth reference shape = .error .noPeriods := by
  by_cases hperiods : chart.periods = []
  · right
    exact ⟨hperiods, rank_eq_error hperiods birth reference shape⟩
  · left
    obtain ⟨location, v, hrank, hv⟩ := rank_eq_ok hperiods birth reference shape
    have hlen := length_select hv.position_lt (max shape.periodCount.toNat 1)
    rw [← hlen] at hfew ⊢
    have hpriority : ∀ stub ∈ select chart.periods location.position
        (max shape.periodCount.toNat 1), stub.priority.toNat < maxPeriods := by
      intro stub hs
      exact Nat.lt_of_le_of_lt (priority_le_length_select hs) hfew
    refine ⟨v, hrank, by rw [hv.periods, List.length_map], ?_, ?_⟩
    · rw [hv.periods, List.flatMap_map, List.pairwise_flatMap]
      constructor
      · intro stub _
        exact labelled_sorted chart.years _ stub
      · apply (select_pairwise hfew).imp_of_mem
        intro s t hs ht hlt y hy z hz
        exact mayPrecede_of_priority_lt hlt (labelled_keyed (hpriority s hs) hy)
          (labelled_keyed (hpriority t ht) hz)
    · intro p hp y hy
      rw [hv.periods] at hp
      obtain ⟨stub, hs, rfl⟩ := List.mem_map.mp hp
      exact labelled_keyed (hpriority stub hs) hy

theorem rank_isOrdered_twoPeriods :
    ∃ v, rank twoPeriods ⟨1990, 5, 15, by decide⟩ ⟨2010, 1, 1, by decide⟩ ⟨2, 3⟩ = .ok v ∧
      v.periods.length = 2 ∧ v.IsOrdered := by
  have hfew : min (max (Shape.mk 2 3).periodCount.toNat 1) twoPeriods.periods.length
      < maxPeriods := by decide
  apply (rank_isOrdered ⟨1990, 5, 15, by decide⟩ ⟨2010, 1, 1, by decide⟩ hfew).resolve_right
  rintro ⟨hnone, -⟩
  contradiction

end Ranking

end Almanac
