import Mathlib
import Almanac.Proofs.Ranking.Location
import Almanac.Proofs.Ranking.Selection
import Almanac.Ranking.View

/-!
# When there is a view, and what it is made of

A chart has a view on every date and of every shape, unless it has no periods.  The view
is determined by four parts, and each of them is said here in terms of the chart.
-/

namespace Almanac

open Ranking

/-- The parts of the view of a chart whose current period is at a location. -/
structure View.IsOf (chart : Chart) (birth reference : Date) (shape : Shape)
    (location : Location) (v : View) : Prop where
  located : locate? chart.periods (Ranking.nominalAge birth reference) = some location
  position_lt : location.position < chart.periods.length
  referenceDate : v.referenceDate = reference
  nominalAge : v.nominalAge = Ranking.nominalAge birth reference
  periods : v.periods = (select chart.periods location.position
    (max shape.periodCount.toNat 1)).map fun stub =>
      (attach chart.years shape.yearsPerPeriod.toNat stub).labelled
  policy : v.policy = Policy.of shape location.placement

theorem View.eq_of_periods {v v' : View} (hdate : v.referenceDate = v'.referenceDate)
    (hage : v.nominalAge = v'.nominalAge) (hperiods : v.periods = v'.periods)
    (hpolicy : v.policy = v'.policy) : v = v' := by
  cases v
  cases v'
  cases hperiods
  cases hdate
  cases hage
  cases hpolicy
  rfl

namespace Ranking

theorem rank_eq_error {chart : Chart} (hperiods : chart.periods = []) (birth reference : Date)
    (shape : Shape) : rank chart birth reference shape = .error .noPeriods := by
  have hlocate : locate? chart.periods (nominalAge birth reference) = none := by
    rw [hperiods]
    rfl
  simp only [rank, hlocate]

/-- **A chart with periods has a view.** -/
theorem rank_eq_ok {chart : Chart} (hperiods : chart.periods ≠ []) (birth reference : Date)
    (shape : Shape) :
    ∃ location v, rank chart birth reference shape = .ok v ∧
      v.IsOf chart birth reference shape location := by
  obtain ⟨location, hlocate, hlocated⟩ := exists_located hperiods (nominalAge birth reference)
  have hposition := hlocated.lt
  have hlen := length_select hposition (max shape.periodCount.toNat 1)
  refine ⟨location, ?_⟩
  simp only [rank, hlocate]
  rcases hstubs : select chart.periods location.position (max shape.periodCount.toNat 1) with
    _ | ⟨first, more⟩
  -- A position lies in the list, so something is selected.
  · rw [hstubs, List.length_nil] at hlen
    omega
  · refine ⟨_, rfl, hlocate, hposition, rfl, rfl, ?_, rfl⟩
    rw [hstubs, View.periods, assemble, List.map_map, List.map_cons]
    rfl

theorem exists_isOf {chart : Chart} {birth reference : Date} {shape : Shape} {v : View}
    (h : rank chart birth reference shape = .ok v) :
    ∃ location, v.IsOf chart birth reference shape location := by
  have hperiods : chart.periods ≠ [] := by
    intro hnone
    rw [rank_eq_error hnone] at h
    contradiction
  obtain ⟨location, w, hw, hof⟩ := rank_eq_ok hperiods birth reference shape
  obtain rfl : w = v := Except.ok.inj (hw.symm.trans h)
  exact ⟨location, hof⟩

/-- Two periods; one year belongs to none of them. -/
def twoPeriods : Chart where
  pillars := ⟨"庚午", "辛巳", "甲子", "辛未"⟩
  dayMaster := "甲"
  periods := [⟨7, "壬午", 1995, 2004, 6, 15, "正官"⟩, ⟨3, "癸未", 2005, 2014, 16, 25, "正印"⟩]
  years := [⟨2006, "丙戌", 17, "clash", 3, {}⟩, ⟨2006, "丙戌", 17, "clash", 3, {}⟩,
    ⟨1999, "己卯", 10, "combination", 7, {}⟩, ⟨2020, "庚子", 31, "clash", 8, {}⟩]

end Ranking

end Almanac
