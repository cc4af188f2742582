import Mathlib
import Almanac.Proofs.Ranking.Views

/-!
# What the two numbers of a shape do

A larger shape has nothing to say about what a smaller one shows: the periods of the
smaller view are the first ones of the larger view, each with the first of its years.
-/

namespace Almanac

open Ranking

def RankedPeriod.cut (cap : Nat) (p : RankedPeriod) : RankedPeriod :=
  { p with years := p.years.take cap }

/-- A view of a shape is what the shape leaves of another view of the chart. -/
structure View.IsCutOf (chart : Chart) (shape : Shape) (v v' : View) : Prop where
  referenceDate : v.referenceDate = v'.referenceDate
  nominalAge : v.nominalAge = v'.nominalAge
  periods : v.periods = (v'.periods.take (min (max shape.periodCount.toNat 1)
    chart.periods.length)).map (·.cut shape.yearsPerPeriod.toNat)
  policy : v.policy = { v'.policy with
    periodCount := shape.periodCount, yearsPerPeriod := shape.yearsPerPeriod }

namespace Ranking

theorem numbered_take (first : Nat) (ps : List Period) (n : Nat) :
    numbered first (ps.take n) = (numbered first ps).take n := by
  induction ps generalizing first n with
  | nil => rw [List.take_nil, numbered, List.take_nil]
  | cons p ps ih =>
      cases n with
      | zero => rfl
      | succ n => rw [List.take_succ_cons, numbered, numbered, List.take_succ_cons, ih]

theorem select_take {periods : List Period} {current count count' : Nat}
    (h : current < periods.length) (hcount : count ≤ count') :
    (select periods current count').take (min count periods.length)
      = select periods current count := by
  rw [select_eq, select_eq, ← numbered_take, List.take_take]
  congr 1
  rw [List.take_eq_take_iff, (nearestFirst_perm h).length_eq]
  omega

theorem attach_cut (years : List SpecialYear) {cap cap' : Nat} (hcap : cap ≤ cap')
    (stub : Stub) :
    (attach years cap' stub).labelled.cut cap = (attach years cap stub).labelled := by
  have hyears : ((attach years cap' stub).labelled.years).take cap
      = (attach years cap stub).labelled.years := by
    simp only [Populated.labelled, attach]
    rw [← List.map_take, List.take_take, Nat.min_eq_left hcap]
  rw [RankedPeriod.cut, hyears]
  rfl

variable {chart : Chart} {birth reference : Date} {shape shape' : Shape} {location : Location}

theorem isCutOf_of_isOf {v v' : View} (hcount : shape.periodCount ≤ shape'.periodCount)
    (hcap : shape.yearsPerPeriod ≤ shape'.yearsPerPeriod)
    (hv : v.IsOf chart birth reference shape location)
    (hv' : v'.IsOf chart birth reference shape' location) : v.IsCutOf chart shape v' where
  referenceDate := hv.referenceDate.trans hv'.referenceDate.symm
  nominalAge := hv.nominalAge.trans hv'.nominalAge.symm
  periods := by
    rw [UInt64.le_iff_toNat_le] at hcount hcap
    rw [hv.periods, hv'.periods, ← List.map_take, select_take hv.position_lt (by omega),
      List.map_map]
    apply List.map_congr_left
    intro stub _
    exact (attach_cut chart.years hcap stub).symm
  policy := by
    rw [hv.policy, hv'.policy]
    rfl

/-- **The numbers of a shape only truncate**: a smaller shape shows the first periods of a
larger one with the first of their years, and all else in the view is the same.  Where one
of them has no view, the other has none for the same reason. -/
theorem rank_truncates (chart : Chart) (birth reference : Date)
    (hcount : shape.periodCount ≤ shape'.periodCount)
    (hcap : shape.yearsPerPeriod ≤ shape'.yearsPerPeriod) :
    (∃ v v', rank chart birth reference shape = .ok v ∧
      rank chart birth reference shape' = .ok v' ∧ v.IsCutOf chart shape v') ∨
    ∃ e, rank chart birth reference shape = .error e ∧
      rank chart birth reference shape' = .error e := by
  by_cases hperiods : chart.periods = []
  · right
    exact ⟨_, rank_eq_error hperiods birth reference shape,
      rank_eq_error hperiods birth reference shape'⟩
  · left
    obtain ⟨location, v, hrank, hv⟩ := rank_eq_ok hperiods birth reference shape
    obtain ⟨location', v', hrank', hv'⟩ := rank_eq_ok hperiods birth reference shape'
    -- The current period does not depend on the shape.
    obtain rfl : location = location' := Option.some.inj (hv.located.symm.trans hv'.located)
    exact ⟨v, v', hrank, hrank', isCutOf_of_isOf hcount hcap hv hv'⟩

theorem rank_truncates_twoPeriods :
    ∃ v v', rank twoPeriods ⟨1990, 5, 15, by decide⟩ ⟨2010, 1, 1, by decide⟩ ⟨0, 1⟩ = .ok v ∧
      rank twoPeriods ⟨1990, 5, 15, by decide⟩ ⟨2010, 1, 1, by decide⟩ ⟨2, 3⟩ = .ok v' ∧
      v.IsCutOf twoPeriods ⟨0, 1⟩ v' := by
  apply (rank_truncates twoPeriods _ _ (by decide) (by decide)).resolve_right
  rintro ⟨e, he, -⟩
  have hperiods : twoPeriods.periods ≠ [] := by decide
  obtain ⟨-, v, hv, -⟩ :=
    rank_eq_ok hperiods ⟨1990, 5, 15, by decide⟩ ⟨2010, 1, 1, by decide⟩ ⟨0, 1⟩
  rw [hv] at he
  contradiction

end Ranking

end Almanac
