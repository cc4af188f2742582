import Mathlib
import Almanac.Proofs.Ranking.Retention
import Almanac.Proofs.Ranking.StableSort
import Almanac.Proofs.Ranking.Views

/-!
# What a view does not depend on

A view shows summaries of the years of its own periods.  So it stays the same if months
and days are exchanged, if years of other periods come and go, if years change places
that are not of equal standing, and if the pillars are others.
-/

namespace Almanac

open Ranking StableSort

def SpecialYear.plain (y : SpecialYear) : SpecialYear :=
  { y with detail := { notes := y.detail.notes } }

/-- Years whose period, priority of relation and calendar year are equal are shown in the
order of the chart. -/
def SpecialYear.standing (y : SpecialYear) : UInt32 × UInt32 × Int32 :=
  (y.periodIndex, (Relation.ofTag y.relation).priority, y.year)

/-- Charts that differ in nothing that a view of the periods with the given indexes shows. -/
inductive Chart.Alike (shown : List UInt32) : Chart → Chart → Prop where
  | pillars (c : Chart) (pillars : FourPillars) (dayMaster : String) :
      Alike shown c { c with pillars, dayMaster }
  /-- Months and days are replaced by any others. -/
  | details (c : Chart) (years : List SpecialYear)
      (same : years.map SpecialYear.plain = c.years.map SpecialYear.plain) :
      Alike shown c { c with years }
  /-- Years of other periods are added, removed or altered. -/
  | others (c : Chart) (years : List SpecialYear)
      (same : years.filter (fun y => decide (y.periodIndex ∈ shown))
        = c.years.filter fun y => decide (y.periodIndex ∈ shown)) :
      Alike shown c { c with years }
  /-- Years are reordered, but those of equal standing keep their order. -/
  | order (c : Chart) (years : List SpecialYear)
      (same : ∀ standing, years.filter (fun y => decide (y.standing = standing))
        = c.years.filter fun y => decide (y.standing = standing)) :
      Alike shown c { c with years }
  | trans {c c' c'' : Chart} (first : Alike shown c c') (second : Alike shown c' c'') :
      Alike shown c c''

namespace Ranking

variable {years years' : List SpecialYear} {stub : Stub}

def shownIndexes (periods : List Period) (age : UInt32) (shape : Shape) : List UInt32 :=
  match locate? periods age with
  | none => []
  | some location =>
    (select periods location.position (max shape.periodCount.toNat 1)).map (·.period.index)

/-! ## The years of a period -/

theorem ranked_plain (stub : Stub) (years : List SpecialYear) :
    ranked stub (years.map SpecialYear.plain) = ranked stub years := by
  rw [ranked, List.filter_map, List.map_map]
  rfl

theorem ranked_filter {shown : List UInt32} (hshown : stub.period.index ∈ shown)
    (years : List SpecialYear) :
    ranked stub (years.filter fun y => decide (y.periodIndex ∈ shown)) = ranked stub years := by
  have howned : (years.filter fun y => decide (y.periodIndex ∈ shown)).filter
      (fun y => y.periodIndex == stub.period.index)
        = years.filter fun y => y.periodIndex == stub.period.index := by
    rw [List.filter_filter]
    apply List.filter_congr
    intro y _
    by_cases hy : y.periodIndex = stub.period.index
    · simp [hy, hshown]
    · simp [hy]
  rw [ranked, howned, ranked]

theorem ties_before_iff {a b : ScoredYear} : ties ScoredYear.before a b = true ↔
    a.compositePriority = b.compositePriority ∧ a.summary.year = b.summary.year := by
  rw [ties_iff, ScoredYear.before_iff, ScoredYear.before_iff, ← UInt32.toNat_inj,
    ← Int32.toInt_inj]
  omega

/-- The years of a period that tie with a score are the years of one standing. -/
theorem ties_score_iff {a : ScoredYear} {y : SpecialYear} :
    y.periodIndex = stub.period.index ∧ ties ScoredYear.before a (score stub.priority y) = true ↔
      y.standing = (stub.period.index, a.compositePriority - stub.priority * periodWeight,
        a.summary.year) := by
  rw [ties_before_iff, compositePriority_score, compositePriority]
  constructor
  · rintro ⟨hindex, hcomposite, hyear⟩
    rw [SpecialYear.standing, hindex, hcomposite, add_sub_cancel_left, hyear]
    rfl
  · intro hstanding
    rw [SpecialYear.standing, Prod.mk.injEq, Prod.mk.injEq] at hstanding
    obtain ⟨hindex, htype, hyear⟩ := hstanding
    refine ⟨hindex, ?_, hyear.symm⟩
    rw [htype, add_sub_cancel]

theorem filter_ties_scores (stub : Stub) (years : List SpecialYear) (a : ScoredYear) :
    ((years.filter fun y => y.periodIndex == stub.period.index).map (score stub.priority)).filter
      (ties ScoredYear.before a)
      = (years.filter fun y => decide (y.standing = (stub.period.index,
        a.compositePriority - stub.priority * periodWeight, a.summary.year))).map
          (score stub.priority) := by
  rw [List.filter_map, List.filter_filter]
  apply congrArg (List.map (score stub.priority))
  apply List.filter_congr
  intro y _
  rw [Bool.eq_iff_iff, decide_eq_true_iff, ← ties_score_iff, Bool.and_eq_true, beq_iff_eq,
    and_comm, Function.comp_apply]

/-- The order of a period's years is a matter of their standings, and of their places only
where these are equal. -/
theorem ranked_of_standing (h : ∀ standing, years'.filter (fun y => decide (y.standing = standing))
    = years.filter fun y => decide (y.standing = standing)) (stub : Stub) :
    ranked stub years' = ranked stub years := by
  apply mergeSort_eq_of_filter_ties ScoredYear.before_total ScoredYear.before_trans
  intro a
  rw [filter_ties_scores, filter_ties_scores, h]

/-! ## The view -/

variable {shown : List UInt32} {chart chart' : Chart}

theorem periods_of_alike (h : chart.Alike shown chart') : chart'.periods = chart.periods := by
  induction h with
  | pillars => rfl
  | details => rfl
  | others => rfl
  | order => rfl
  | trans first second ih ih' => exact ih'.trans ih

theorem ranked_of_alike (h : chart.Alike shown chart') (hshown : stub.period.index ∈ shown) :
    ranked stub chart'.years = ranked stub chart.years := by
  induction h with
  | pillars => rfl
  | details c years same => rw [← ranked_plain stub years, same, ranked_plain]
  | others c years same => rw [← ranked_filter hshown years, same, ranked_filter hshown]
  | order c years same => exact ranked_of_standing same stub
  | trans first second ih ih' => exact ih'.trans ih

/-- **A view depends on nothing but what it shows**: charts that are alike for its periods
have the same view, or none for the same reason. -/
theorem rank_of_alike {birth reference : Date} {shape : Shape}
    (h : chart.Alike (shownIndexes chart.periods (nominalAge birth reference) shape) chart') :
    rank chart' birth reference shape = rank chart birth reference shape := by
  have hsame := periods_of_alike h
  by_cases hperiods : chart.periods = []
  · rw [rank_eq_error hperiods, rank_eq_error (hsame.trans hperiods)]
  · obtain ⟨location, v, hrank, hv⟩ := rank_eq_ok hperiods birth reference shape
    obtain ⟨location', v', hrank', hv'⟩ :=
      rank_eq_ok (hsame.symm ▸ hperiods) birth reference shape
    have hlocated := hv'.located
    rw [hsame, hv.located] at hlocated
    obtain rfl : location = location' := Option.some.inj hlocated
    have hview : v' = v := by
      apply View.eq_of_periods
      · rw [hv.referenceDate, hv'.referenceDate]
      · rw [hv.nominalAge, hv'.nominalAge]
      · rw [hv.periods, hv'.periods, hsame]
        apply List.map_congr_left
        intro stub hs
        rw [attach, attach, ranked_of_alike h]
        rw [shownIndexes, hv.located]
        exact List.mem_map_of_mem hs
      · rw [hv.policy, hv'.policy]
    rw [hrank, hrank', hview]

def clashOf2006 : SpecialYear := ⟨2006, "丙戌", 17, "clash", 3, {}⟩

def combinationOf1999 : SpecialYear := ⟨1999, "己卯", 10, "combination", 7, {}⟩

/-- The chart with two periods, changed in all the ways that no view notices. -/
def disguised : Chart where
  pillars := ⟨"辛未", "壬午", "乙丑", "壬申"⟩
  dayMaster := "乙"
  periods := twoPeriods.periods
  years := [combinationOf1999, clashOf2006,
    { clashOf2006 with detail := { monthly := [⟨1, "正月", ""⟩] } }]

theorem disguised_alike : twoPeriods.Alike [3, 7] disguised := by
  have hne : clashOf2006.standing ≠ combinationOf1999.standing := by decide +kernel
  refine .trans (.pillars _ disguised.pillars "乙") ?_
  -- The year that belongs to none of the periods goes, the others change places.
  refine .trans (.others _ [clashOf2006, clashOf2006, combinationOf1999] rfl) ?_
  refine .trans (.order _ [combinationOf1999, clashOf2006, clashOf2006] ?_) ?_
  · intro standing
    by_cases h : clashOf2006.standing = standing
    · have h' : combinationOf1999.standing ≠ standing := fun he => hne (h.trans he.symm)
      simp only [List.filter_cons, h, h', decide_true, decide_false]
      rfl
    · simp only [List.filter_cons, h, decide_false]
      rfl
  · exact .details _ disguised.years rfl

theorem rank_of_alike_disguised :
    rank disguised ⟨1990, 5, 15, by decide⟩ ⟨2010, 1, 1, by decide⟩ ⟨2, 1⟩
      = rank twoPeriods ⟨1990, 5, 15, by decide⟩ ⟨2010, 1, 1, by decide⟩ ⟨2, 1⟩ := by
  apply rank_of_alike
  have hshown : shownIndexes twoPeriods.periods
      (nominalAge ⟨1990, 5, 15, by decide⟩ ⟨2010, 1, 1, by decide⟩) ⟨2, 1⟩ = [3, 7] := by
    decide +kernel
  rw [hshown]
  exact disguised_alike

end Ranking

end Almanac
