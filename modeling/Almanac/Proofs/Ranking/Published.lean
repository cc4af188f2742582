import Mathlib
import Almanac.Proofs.Ranking.Accounts

/-!
# The published policy

A view carries the policy by which it was made, as two tables and two numbers that are
written out apart from the functions that label and score.  Whoever reads a view by its
policy finds every label and every priority in it: `Ranking.rank_isDescribed`.
-/

namespace Almanac

open Ranking

def TierBand.admits (b : TierBand) (priority : UInt32) : Bool :=
  decide (b.minPriority ≤ priority) && b.maxPriority.all fun most => decide (priority ≤ most)

/-- Exactly one band admits the priority of the period, and it has the tier of the period and
of its years. -/
def RankedPeriod.IsTiered (policy : Policy) (p : RankedPeriod) : Prop :=
  ∃ band, policy.tiers.filter (·.admits p.priority) = [band] ∧ band.tier = p.tier ∧
    ∀ y ∈ p.years, band.tier = y.tier

/-- Exactly one row names the relation of a year, and it has the priority of its type. -/
def RankedYear.IsTyped (policy : Policy) (y : RankedYear) : Prop :=
  ∃ row,
    policy.typePriorities.filter (fun row => decide (row.relation = y.summary.relation)) = [row] ∧
      row.priority = y.typePriority

/-- The policy of a view is true of the view. -/
structure View.IsDescribed (v : View) : Prop where
  count : v.periods.length ≤ max 1 v.policy.periodCount.toNat
  cap : ∀ p ∈ v.periods, p.years.length ≤ v.policy.yearsPerPeriod.toNat
  typed : ∀ p ∈ v.periods, ∀ y ∈ p.years, y.IsTyped v.policy
  /-- No band admits the number zero, which the numbers come to when they overflow. -/
  tiered : v.periods.length < 2 ^ 32 → ∀ p ∈ v.periods, p.IsTiered v.policy

/-! ## The tables -/

namespace Policy

/-- A band admits the priorities that have its tier, from priority one on. -/
theorem admits_iff {band : TierBand} (hband : band ∈ bands) {priority : UInt32}
    (h : priority ≠ 0) : band.admits priority = true ↔ band.tier = Tier.ofPriority priority := by
  have hpos : priority.toNat ≠ 0 := fun h0 => h (UInt32.toNat_inj.mp h0)
  simp only [bands, List.mem_cons, List.not_mem_nil, or_false] at hband
  simp only [TierBand.admits, Tier.ofPriority, Bool.and_eq_true, decide_eq_true_eq,
    UInt32.le_iff_toNat_le]
  rcases hband with rfl | rfl | rfl | rfl
  -- Each band against the four ways a priority gets its tier.
  all_goals simp only [Option.all, decide_eq_true_eq, UInt32.reduceToNat]
  all_goals split_ifs <;> simp <;> omega

theorem bands_of_tier (t : Tier) : ∃ band, bands.filter (fun b => decide (b.tier = t)) = [band] := by
  cases t <;> exact ⟨_, rfl⟩

theorem bands_of_pos {priority : UInt32} (h : priority ≠ 0) :
    ∃ band, bands.filter (·.admits priority) = [band] ∧ band.tier = Tier.ofPriority priority := by
  have hfilter : bands.filter (·.admits priority)
      = bands.filter fun b => decide (b.tier = Tier.ofPriority priority) := by
    apply List.filter_congr
    intro b hb
    rw [Bool.eq_iff_iff, decide_eq_true_iff, admits_iff hb h]
  obtain ⟨band, hband⟩ := bands_of_tier (Tier.ofPriority priority)
  have hmem : band ∈ bands.filter fun b => decide (b.tier = Tier.ofPriority priority) := by
    rw [hband]
    exact List.mem_singleton_self band
  exact ⟨band, hfilter.trans hband, of_decide_eq_true (List.mem_filter.mp hmem).2⟩

theorem typePriorities_of_relation (r : Relation) :
    ∃ row, (Relation.all.map fun r => TypePriority.mk r r.priority).filter
      (fun row => decide (row.relation = r)) = [row] ∧ row.priority = r.priority := by
  cases r <;> exact ⟨_, rfl, rfl⟩

end Policy

namespace Ranking

theorem relation_score (p : UInt32) (y : SpecialYear) :
    (score p y).summary.relation = Relation.ofTag y.relation := by
  simp only [score, summary]

theorem labelled_isTyped {years : List SpecialYear} {stub : Stub} {shape : Shape}
    {placement : Placement} {y : RankedYear}
    (hy : y ∈ (attach years shape.yearsPerPeriod.toNat stub).labelled.years) :
    y.IsTyped (Policy.of shape placement) := by
  rw [labelled_years] at hy
  obtain ⟨e, -, rfl⟩ := List.mem_map.mp hy
  simp only [RankedYear.IsTyped, ScoredYear.labelled, typePriority_score, relation_score]
  exact Policy.typePriorities_of_relation _

theorem labelled_isTiered (years : List SpecialYear) {stub : Stub} (h : stub.priority ≠ 0)
    (shape : Shape) (placement : Placement) :
    (attach years shape.yearsPerPeriod.toNat stub).labelled.IsTiered
      (Policy.of shape placement) := by
  obtain ⟨band, hband, htier⟩ := Policy.bands_of_pos h
  refine ⟨band, hband, htier, ?_⟩
  intro y hy
  rw [labelled_years] at hy
  obtain ⟨e, -, rfl⟩ := List.mem_map.mp hy
  exact htier

/-- **The published policy describes the view.**  The view keeps to both numbers of its policy;
exactly one row names the relation of a year, and it has the priority of its type; and as long
as the numbers of the periods do not overflow, exactly one band admits the priority of a ranked
period, and it has the tier of the period and of its years. -/
theorem rank_isDescribed {chart : Chart} {birth reference : Date} {shape : Shape} {v : View}
    (hrank : rank chart birth reference shape = .ok v) : v.IsDescribed := by
  obtain ⟨location, hv⟩ := exists_isOf hrank
  constructor
  all_goals rw [hv.policy, hv.periods]
  case count =>
    rw [List.length_map, length_select hv.position_lt, max_comm]
    exact Nat.min_le_left _ _
  case cap =>
    intro p hp
    obtain ⟨stub, -, rfl⟩ := List.mem_map.mp hp
    rw [labelled_years, List.length_map, length_kept]
    exact Nat.min_le_left _ _
  case typed =>
    intro p hp y hy
    obtain ⟨stub, -, rfl⟩ := List.mem_map.mp hp
    exact labelled_isTyped hy
  case tiered =>
    intro hfew p hp
    rw [List.length_map] at hfew
    obtain ⟨stub, hs, rfl⟩ := List.mem_map.mp hp
    exact labelled_isTiered chart.years (select_priority_ne_zero hfew hs) shape _

/-- A shape of no periods still has the current one. -/
theorem rank_isDescribed_twoPeriods :
    ∃ v, rank twoPeriods ⟨1990, 5, 15, by decide⟩ ⟨2010, 1, 1, by decide⟩ ⟨0, 1⟩ = .ok v ∧
      v.periods.length < 2 ^ 32 ∧ v.IsDescribed ∧ ∀ p ∈ v.periods, p.IsTiered v.policy := by
  have hperiods : twoPeriods.periods ≠ [] := by decide
  obtain ⟨location, v, hrank, hv⟩ :=
    rank_eq_ok hperiods ⟨1990, 5, 15, by decide⟩ ⟨2010, 1, 1, by decide⟩ ⟨0, 1⟩
  have hfew : v.periods.length < 2 ^ 32 := by
    rw [hv.periods, List.length_map, length_select hv.position_lt]
    exact Nat.lt_of_le_of_lt (Nat.min_le_right _ _) (by decide)
  have hdescribed := rank_isDescribed hrank
  exact ⟨v, hrank, hfew, hdescribed, hdescribed.tiered hfew⟩

end Ranking

end Almanac
