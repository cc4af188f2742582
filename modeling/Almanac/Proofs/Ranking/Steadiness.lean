import Mathlib
import Almanac.Proofs.Ranking.Accounts
import Almanac.Proofs.Ranking.Importance
import Almanac.Proofs.Ranking.Nearness

/-!
# The same period on two dates

On another date another period is the current one, and all priorities change.  A period that
is shown on both dates keeps the same years in the same order all the same: a new priority
of the period shifts all its composite priorities by one amount.
-/

namespace Almanac

open Ranking

/-- The list positions of the periods that a view shows, in its order. -/
def View.positions (v : View) (periods : List Period) : List Nat :=
  match locate? periods v.nominalAge with
  | none => []
  | some location =>
    (byDistance periods.length location.position).take (max v.policy.periodCount.toNat 1)

def View.periodAt? (v : View) (periods : List Period) (position : Nat) : Option RankedPeriod :=
  ((v.positions periods).idxOf? position).bind (v.periods[·]?)

def RankedPeriod.stub (p : RankedPeriod) : Stub := ⟨p.period, p.priority⟩

/-- A year is shown as another one whose period has a priority that is less by `shift`. -/
structure RankedYear.IsShiftOf (shift : Int) (y y' : RankedYear) : Prop where
  summary : y.summary = y'.summary
  typePriority : y.typePriority = y'.typePriority
  compositePriority :
    (y.compositePriority.toNat : Int) - y'.compositePriority.toNat = 100 * shift

/-- The same years are shown of a period as in another view, whatever its priorities. -/
def RankedPeriod.IsShiftOf (p p' : RankedPeriod) : Prop :=
  List.Forall₂ (RankedYear.IsShiftOf (p.priority.toNat - p'.priority.toNat)) p.years p'.years

namespace Ranking

/-! ## Years under two priorities -/

section

variable {years : List SpecialYear} {stub stub' : Stub}

theorem Entry.precedes_asymm {a b : Entry} (hab : a.Precedes b) : ¬ b.Precedes a := by
  unfold Entry.Precedes at *
  rw [UInt32.lt_iff_toNat_lt, ← UInt32.toNat_inj, Int32.lt_iff_toInt_lt, ← Int32.toInt_inj] at *
  omega

theorem rankedEntries_eq_of_fits (hindex : stub.period.index = stub'.period.index)
    (h : stub.Fits years) (h' : stub'.Fits years) :
    rankedEntries years stub = rankedEntries years stub' := by
  have hperm : (rankedEntries years stub).Perm (rankedEntries years stub') := by
    have hleft := rankedEntries_perm years stub
    rw [hindex] at hleft
    exact hleft.trans (rankedEntries_perm years stub').symm
  refine List.Perm.eq_of_pairwise ?_ (rankedEntries_precedes h) (rankedEntries_precedes h') hperm
  intro a b _ _ hab hba
  exact absurd hba (Entry.precedes_asymm hab)

theorem labelled_isShiftOf {e : Entry} {priority priority' : UInt32}
    (h : (score priority e.1).Carries priority e.1)
    (h' : (score priority' e.1).Carries priority' e.1) (tier tier' : Tier) :
    RankedYear.IsShiftOf (priority.toNat - priority'.toNat)
      ((score priority e.1).labelled tier) ((score priority' e.1).labelled tier') where
  summary := rfl
  typePriority := by simp only [ScoredYear.labelled, h.typePriority, h'.typePriority]
  compositePriority := by
    simp only [ScoredYear.labelled]
    rw [h.compositePriority, h'.compositePriority]
    omega

theorem attach_isShiftOf (hperiod : stub.period = stub'.period) (h : stub.Fits years)
    (h' : stub'.Fits years) (cap : Nat) :
    (attach years cap stub).labelled.IsShiftOf (attach years cap stub').labelled := by
  have hkept : kept years cap stub = kept years cap stub' := by
    rw [kept, kept, rankedEntries_eq_of_fits (congrArg Period.index hperiod) h h']
  rw [RankedPeriod.IsShiftOf, labelled_years, labelled_years, ← hkept, List.forall₂_map_left_iff,
    List.forall₂_map_right_iff, List.forall₂_same]
  intro e he
  have howned := mem_owned_of_mem_kept he
  refine labelled_isShiftOf (carries_score h howned) (carries_score h' ?_) _ _
  rw [← hperiod]
  exact howned

end

/-! ## Positions of a view -/

section

variable {chart : Chart} {birth reference : Date} {shape : Shape} {location : Location}
  {v : View}

theorem positions_eq (h : v.IsOf chart birth reference shape location) :
    v.positions chart.periods = (byDistance chart.periods.length location.position).take
      (max shape.periodCount.toNat 1) := by
  have hcount : v.policy.periodCount = shape.periodCount := by
    rw [h.policy]
    rfl
  have hlocated := h.located
  rw [← h.nominalAge] at hlocated
  simp only [View.positions, hlocated, hcount]

theorem periods_positions (h : v.IsOf chart birth reference shape location) :
    v.periods.map (fun p => some p.period)
      = (v.positions chart.periods).map (chart.periods[·]?) := by
  have hselected : (select chart.periods location.position (max shape.periodCount.toNat 1)).map
      (·.period) = (nearestFirst chart.periods location.position).take
        (max shape.periodCount.toNat 1) := by
    rw [select_eq, numbered_periods]
  rw [positions_eq h, List.map_take, ← nearestFirst_getElem? h.position_lt, ← List.map_take,
    ← hselected, h.periods, List.map_map, List.map_map]
  rfl

theorem eq_labelled_of_mem (h : v.IsOf chart birth reference shape location) {p : RankedPeriod}
    (hp : p ∈ v.periods) : p = (attach chart.years shape.yearsPerPeriod.toNat p.stub).labelled := by
  rw [h.periods] at hp
  obtain ⟨stub, -, rfl⟩ := List.mem_map.mp hp
  rfl

theorem mem_positions (h : v.IsOf chart birth reference shape location)
    (hroom : chart.periods.length ≤ shape.periodCount.toNat) {position : Nat}
    (hposition : position < chart.periods.length) : position ∈ v.positions chart.periods := by
  have hperm := byDistance_perm chart.periods.length location.position
  have hlen : (byDistance chart.periods.length location.position).length
      ≤ max shape.periodCount.toNat 1 := by
    rw [hperm.length_eq, List.length_range]
    omega
  rw [positions_eq h, List.take_of_length_le hlen, hperm.mem_iff, List.mem_range]
  exact hposition

theorem fits_of_mem (h : v.IsOf chart birth reference shape location)
    (hmax : chart.periods.length < maxPeriods) {p : RankedPeriod} (hp : p ∈ v.periods) :
    p.stub.Fits chart.years := by
  rw [h.periods] at hp
  obtain ⟨stub, hs, rfl⟩ := List.mem_map.mp hp
  intro y _ _
  have hpriority := select_priority_le h.position_lt hs
  have htype := priority_le (Relation.ofTag y.relation)
  have hmost : maxPeriods = 42949672 := rfl
  simp only [RankedPeriod.stub, Populated.labelled, attach]
  omega

theorem exists_periodAt? (h : v.IsOf chart birth reference shape location) {position : Nat}
    (hposition : position ∈ v.positions chart.periods) :
    ∃ p ∈ v.periods, v.periodAt? chart.periods position = some p ∧
      chart.periods[position]? = some p.period := by
  obtain ⟨k, hk⟩ := Option.isSome_iff_exists.mp (List.isSome_idxOf?.mpr hposition)
  obtain ⟨hlt, hat, -⟩ := List.idxOf?_eq_some_iff.mp hk
  have hlen := congrArg List.length (periods_positions h)
  rw [List.length_map, List.length_map] at hlen
  obtain ⟨p, hp⟩ : ∃ p, v.periods[k]? = some p := ⟨_, List.getElem?_eq_getElem (hlen ▸ hlt)⟩
  refine ⟨p, List.mem_of_getElem? hp, by rw [View.periodAt?, hk, Option.bind_some, hp], ?_⟩
  have hboth := congrArg (·[k]?) (periods_positions h)
  simp only [List.getElem?_map, hp, List.getElem?_eq_getElem hlt, hat, Option.map_some,
    Option.some.injEq] at hboth
  exact hboth.symm

end

/-! ## Two dates -/

/-- **The years that a period keeps do not depend on the date.**  A period at a list position
that two views of a chart show has the same years with the same relations in both, and the
composite priorities differ by the weight of the difference of its priorities, as long as
they do not overflow.  Where one date has no view, no date has. -/
theorem rank_keeps_years (chart : Chart) (birth reference birth' reference' : Date)
    (count count' cap : UInt64) :
    (∃ v v', rank chart birth reference ⟨count, cap⟩ = .ok v ∧
      rank chart birth' reference' ⟨count', cap⟩ = .ok v' ∧
      ∀ position ∈ v.positions chart.periods, position ∈ v'.positions chart.periods →
        ∃ p ∈ v.periods, ∃ p' ∈ v'.periods,
          v.periodAt? chart.periods position = some p ∧
          v'.periodAt? chart.periods position = some p' ∧
          chart.periods[position]? = some p.period ∧
          chart.periods[position]? = some p'.period ∧
          (p.stub.Fits chart.years → p'.stub.Fits chart.years → p.IsShiftOf p')) ∨
    ∃ e, rank chart birth reference ⟨count, cap⟩ = .error e ∧
      rank chart birth' reference' ⟨count', cap⟩ = .error e := by
  by_cases hperiods : chart.periods = []
  · right
    exact ⟨_, rank_eq_error hperiods birth reference _, rank_eq_error hperiods birth' reference' _⟩
  · left
    obtain ⟨location, v, hrank, hv⟩ := rank_eq_ok hperiods birth reference ⟨count, cap⟩
    obtain ⟨location', v', hrank', hv'⟩ := rank_eq_ok hperiods birth' reference' ⟨count', cap⟩
    refine ⟨v, v', hrank, hrank', ?_⟩
    intro position hposition hposition'
    obtain ⟨p, hmem, hat, hperiod⟩ := exists_periodAt? hv hposition
    obtain ⟨p', hmem', hat', hperiod'⟩ := exists_periodAt? hv' hposition'
    have hsame : p.period = p'.period := Option.some.inj (hperiod.symm.trans hperiod')
    refine ⟨p, hmem, p', hmem', hat, hat', hperiod, hperiod', ?_⟩
    intro hfits hfits'
    rw [eq_labelled_of_mem hv hmem, eq_labelled_of_mem hv' hmem']
    exact attach_isShiftOf hsame hfits hfits' cap.toNat

/-- The second of two periods, shown as the next one and later as the current one. -/
theorem rank_keeps_years_twoPeriods :
    ∃ v v', rank twoPeriods ⟨1990, 5, 15, by decide⟩ ⟨2000, 1, 1, by decide⟩ ⟨2, 1⟩ = .ok v ∧
      rank twoPeriods ⟨1990, 5, 15, by decide⟩ ⟨2010, 1, 1, by decide⟩ ⟨9, 1⟩ = .ok v' ∧
      ∃ p p', v.periodAt? twoPeriods.periods 1 = some p ∧
        v'.periodAt? twoPeriods.periods 1 = some p' ∧ p.IsShiftOf p' := by
  have hmax : twoPeriods.periods.length < maxPeriods := by decide
  have hperiods : twoPeriods.periods ≠ [] := by decide
  obtain ⟨-, w, hw, -⟩ :=
    rank_eq_ok hperiods ⟨1990, 5, 15, by decide⟩ ⟨2000, 1, 1, by decide⟩ ⟨2, 1⟩
  obtain ⟨v, v', hv, hv', hsame⟩ | ⟨e, he, -⟩ :=
    rank_keeps_years twoPeriods ⟨1990, 5, 15, by decide⟩ ⟨2000, 1, 1, by decide⟩
      ⟨1990, 5, 15, by decide⟩ ⟨2010, 1, 1, by decide⟩ 2 9 1
  · obtain ⟨location, hof⟩ := exists_isOf hv
    obtain ⟨location', hof'⟩ := exists_isOf hv'
    obtain ⟨p, hp, p', hp', hat, hat', -, -, hshift⟩ := hsame 1
      (mem_positions hof (by decide) (by decide)) (mem_positions hof' (by decide) (by decide))
    exact ⟨v, v', hv, hv', p, p', hat, hat', hshift (fits_of_mem hof hmax hp)
      (fits_of_mem hof' hmax hp')⟩
  · rw [hw] at he
    contradiction

end Ranking

end Almanac
