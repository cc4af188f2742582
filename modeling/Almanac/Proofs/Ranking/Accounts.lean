import Mathlib
import Almanac.Proofs.Ranking.Retention
import Almanac.Proofs.Ranking.Views

/-!
# The accounts of a view

A view of a chart loses nothing without need and shows nothing twice.  `View.Accounts`
says which entries of the chart each of its periods keeps, and `Ranking.rank_accounts`
that every view has such accounts, if the chart's periods differ in their index.
-/

namespace Almanac

open Ranking

/-- The years of a ranked period are those of the kept entries. -/
structure RankedPeriod.Accounts (years : List SpecialYear) (cap : Nat) (p : RankedPeriod)
    (kept : List Entry) : Prop where
  years_eq : p.years = kept.map fun e => (score p.priority e.1).labelled p.tier
  /-- Kept entries are the chart's, and they belong to the period. -/
  entries : ∀ e ∈ kept, e ∈ years.zipIdx ∧ e.1.periodIndex = p.period.index
  /-- An entry of the period is missing only if the cap is reached by years that are at
  least as important. -/
  missing : ∀ e ∈ years.zipIdx, e.1.periodIndex = p.period.index → e ∉ kept →
    p.years.length = cap ∧ ∀ y ∈ p.years, y.typePriority ≤ (Relation.ofTag e.1.relation).priority
  length : p.years.length = min cap (years.countP fun y => y.periodIndex == p.period.index)

/-- What the periods of a view show of a chart. -/
structure View.Accounts (chart : Chart) (shape : Shape) (v : View)
    (kept : RankedPeriod → List Entry) : Prop where
  count : v.periods.length = min (max shape.periodCount.toNat 1) chart.periods.length
  source : ∀ p ∈ v.periods, p.period ∈ chart.periods
  distinct : (v.periods.map (·.period.index)).Nodup
  period : ∀ p ∈ v.periods, p.Accounts chart.years shape.yearsPerPeriod.toNat (kept p)
  /-- No position of the chart is shown twice, be it in one period or in two. -/
  once : ((v.periods.flatMap kept).map (·.2)).Nodup
  total : v.totalYears = (v.periods.map fun p => min shape.yearsPerPeriod.toNat
    (chart.years.countP fun y => y.periodIndex == p.period.index)).foldr (· + ·) 0
  found : ∀ p ∈ v.periods, v.periodByIndex? p.period.index = some p
  /-- Every year in the view leads back to its period. -/
  owner : ∀ p ∈ v.periods, ∀ y ∈ p.years, v.periodByIndex? y.summary.periodIndex = some p

namespace Ranking

variable {years : List SpecialYear} {cap : Nat} {stub : Stub}

def keptBy (years : List SpecialYear) (cap : Nat) (p : RankedPeriod) : List Entry :=
  kept years cap ⟨p.period, p.priority⟩

theorem labelled_years (years : List SpecialYear) (cap : Nat) (stub : Stub) :
    (attach years cap stub).labelled.years = (kept years cap stub).map fun e =>
      (score stub.priority e.1).labelled (Tier.ofPriority stub.priority) := by
  rw [Populated.labelled, attach_years, List.map_map]
  rfl

theorem labelled_accounts (hpriority : stub.priority.toNat < maxPeriods) :
    (attach years cap stub).labelled.Accounts years cap
      (keptBy years cap (attach years cap stub).labelled) where
  years_eq := labelled_years years cap stub
  entries := fun e he => mem_owned.mp (mem_owned_of_mem_kept he)
  missing := by
    intro e he hindex hout
    obtain ⟨hcap, hbest⟩ := kept_of_not_mem hpriority (mem_owned.mpr ⟨he, hindex⟩) hout
    constructor
    · rw [labelled_years, List.length_map]
      exact hcap
    · intro y hy
      rw [labelled_years] at hy
      obtain ⟨k, hk, rfl⟩ := List.mem_map.mp hy
      have hle := hbest k hk
      rw [typePriority_score stub.priority e.1] at hle
      exact hle
  length := by
    rw [labelled_years, List.length_map]
    exact length_kept years cap stub

theorem find?_eq_some_of_nodup {α κ : Type} [DecidableEq κ] {key : α → κ} {as : List α} {a : α}
    (hkeys : (as.map key).Nodup) (ha : a ∈ as) :
    as.find? (fun b => key b == key a) = some a := by
  induction as with
  | nil => contradiction
  | cons b bs ih =>
      obtain ⟨hb, hbs⟩ := List.nodup_cons.mp hkeys
      rcases List.mem_cons.mp ha with rfl | ha
      · exact List.find?_cons_of_pos (beq_self_eq_true (key a))
      · have hne : key b ≠ key a := by
          intro he
          exact hb (he ▸ List.mem_map_of_mem ha)
        rw [List.find?_cons_of_neg (by simpa using hne), ih hbs ha]

/-- Entries of different periods stand at different positions. -/
theorem flatMap_kept_nodup {periods : List RankedPeriod}
    (hdistinct : (periods.map (·.period.index)).Nodup) :
    ((periods.flatMap (keptBy years cap)).map (·.2)).Nodup := by
  rw [List.map_flatMap, List.Nodup, List.pairwise_flatMap]
  refine ⟨fun p _ => kept_nodup years cap _, ?_⟩
  have hpairs : periods.Pairwise fun p q => p.period.index ≠ q.period.index :=
    List.pairwise_map.mp hdistinct
  -- An entry that both periods keep belongs to both.
  apply hpairs.imp
  intro p q hne i hi j hj he
  obtain ⟨⟨y, i⟩, hy, rfl⟩ := List.mem_map.mp hi
  obtain ⟨⟨z, j⟩, hz, rfl⟩ := List.mem_map.mp hj
  obtain rfl : i = j := he
  obtain ⟨hy, hyp⟩ := mem_owned.mp (mem_owned_of_mem_kept hy)
  obtain ⟨hz, hzq⟩ := mem_owned.mp (mem_owned_of_mem_kept hz)
  have hyz : some y = some z := by
    rw [← List.mk_mem_zipIdx_iff_getElem?.mp hy, List.mk_mem_zipIdx_iff_getElem?.mp hz]
  exact hne (by rw [← hyp, ← hzq, Option.some.inj hyz])

/-! ## Every view accounts for its chart -/

/-- **Every view has accounts**: no year of a selected period is lost before the cap is
reached, none is shown twice, and every year leads back to its period. -/
theorem rank_accounts {chart : Chart} (birth reference : Date) (shape : Shape)
    (hperiods : chart.periods ≠ []) (hmax : chart.periods.length < maxPeriods)
    (hindex : (chart.periods.map (·.index)).Nodup) :
    ∃ v kept, rank chart birth reference shape = .ok v ∧ v.Accounts chart shape kept := by
  obtain ⟨⟨position, placement⟩, v, hrank, hmade⟩ := rank_eq_ok hperiods birth reference shape
  have hposition := hmade.position_lt
  have hv := hmade.periods
  have hstub : ∀ p ∈ v.periods, ∃ stub ∈ select chart.periods position
      (max shape.periodCount.toNat 1),
        (attach chart.years shape.yearsPerPeriod.toNat stub).labelled = p := by
    rw [hv]
    exact fun p hp => List.mem_map.mp hp
  have hdistinct : (v.periods.map (·.period.index)).Nodup := by
    rw [hv, List.map_map]
    exact select_nodup hposition hindex _
  have hperiod : ∀ p ∈ v.periods, p.Accounts chart.years shape.yearsPerPeriod.toNat
      (keptBy chart.years shape.yearsPerPeriod.toNat p) := by
    intro p hp
    obtain ⟨stub, hs, rfl⟩ := hstub p hp
    exact labelled_accounts (Nat.lt_of_le_of_lt (select_priority_le hposition hs) hmax)
  have hfound : ∀ p ∈ v.periods, v.periodByIndex? p.period.index = some p :=
    fun p hp => find?_eq_some_of_nodup hdistinct hp
  refine ⟨v, keptBy chart.years shape.yearsPerPeriod.toNat, hrank, ?_, ?_, hdistinct, hperiod,
    flatMap_kept_nodup hdistinct, ?_, hfound, ?_⟩
  · rw [hv, List.length_map, length_select hposition]
  · intro p hp
    obtain ⟨stub, hs, rfl⟩ := hstub p hp
    exact mem_of_mem_select hposition hs
  -- The number of years, and then the period that a year leads back to.
  · rw [View.totalYears, List.length_flatMap, List.sum_eq_foldr]
    congr 1
    exact List.map_congr_left fun p hp => (hperiod p hp).length
  · intro p hp y hy
    rw [(hperiod p hp).years_eq] at hy
    obtain ⟨e, he, rfl⟩ := List.mem_map.mp hy
    have howner : ((score p.priority e.1).labelled p.tier).summary.periodIndex = p.period.index :=
      ((hperiod p hp).entries e he).2
    rw [howner]
    exact hfound p hp

theorem rank_accounts_twoPeriods :
    ∃ v kept, rank twoPeriods ⟨1990, 5, 15, by decide⟩ ⟨2010, 1, 1, by decide⟩ ⟨0, 1⟩ = .ok v ∧
      v.Accounts twoPeriods ⟨0, 1⟩ kept :=
  rank_accounts _ _ _ (by decide) (by decide) (by decide)

end Ranking

end Almanac
