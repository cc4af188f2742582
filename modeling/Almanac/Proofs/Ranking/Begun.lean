import Mathlib
import Almanac.Proofs.Ranking.Location

/-!
# The current period by counting

Among periods that follow one another, with or without gaps, the current one is found by
counting: it is the last of those that have begun.  In any other list it is still the first
that covers the age, if there is one.
-/

namespace Almanac.Ranking

/-- Periods that hold an age each and follow one another; there may be gaps between them. -/
structure Spaced (periods : List Period) : Prop where
  holds : ∀ p ∈ periods, p.startAge ≤ p.endAge
  follows : periods.IsChain fun p q => p.endAge < q.startAge

instance (periods : List Period) : Decidable (Spaced periods) :=
  decidable_of_iff ((∀ p ∈ periods, p.startAge ≤ p.endAge) ∧
    periods.IsChain fun p q => p.endAge < q.startAge) ⟨fun h => ⟨h.1, h.2⟩, fun h => ⟨h.1, h.2⟩⟩

def begun (periods : List Period) (age : UInt32) : Nat :=
  periods.countP fun p => decide (p.startAge ≤ age)

/-- The location of an age among periods by counting. -/
structure Location.IsCounted (periods : List Period) (hne : periods ≠ []) (age : UInt32)
    (location : Location) : Prop where
  position : location.position = begun periods age - 1
  beforeFirst : location.placement = .beforeFirst ↔ age < (periods.head hne).startAge
  afterLast : location.placement = .afterLast ↔ (periods.getLast hne).endAge < age
  within : location.placement = .within ↔
    (periods.head hne).startAge ≤ age ∧ age ≤ (periods.getLast hne).endAge

section

variable {periods : List Period} {age : UInt32}

/-! ## Counting -/

/-- If the first `n` periods have begun and no others, then `n` is their number. -/
theorem begun_eq {n : Nat} (hn : n ≤ periods.length)
    (hbegun : ∀ i (h : i < periods.length), i < n → periods[i].startAge ≤ age)
    (hlater : ∀ i (h : i < periods.length), n ≤ i → age < periods[i].startAge) :
    begun periods age = n := by
  have hfront : (periods.take n).countP (fun p => decide (p.startAge ≤ age)) = n := by
    rw [List.countP_eq_length.mpr, List.length_take, Nat.min_eq_left hn]
    intro p hp
    obtain ⟨i, hi, rfl⟩ := List.mem_take_iff_getElem.mp hp
    exact decide_eq_true (hbegun i (by omega) (by omega))
  have hback : (periods.drop n).countP (fun p => decide (p.startAge ≤ age)) = 0 := by
    rw [List.countP_eq_zero]
    intro p hp
    obtain ⟨i, hi, rfl⟩ := List.mem_drop_iff_getElem.mp hp
    rw [decide_eq_true_iff, UInt32.not_le]
    exact hlater (n + i) (by omega) (Nat.le_add_right n i)
  rw [begun, ← List.take_append_drop n periods, List.countP_append, hfront, hback, Nat.add_zero]

/-! ## Periods that follow one another -/

theorem Spaced.pairwise (h : Spaced periods) :
    periods.Pairwise fun p q => p.endAge < q.startAge ∧ q.startAge ≤ q.endAge := by
  -- A later period is over no sooner than it begins, which makes the relation transitive.
  have : Trans (fun p q : Period => p.endAge < q.startAge ∧ q.startAge ≤ q.endAge)
      (fun p q : Period => p.endAge < q.startAge ∧ q.startAge ≤ q.endAge)
      (fun p q : Period => p.endAge < q.startAge ∧ q.startAge ≤ q.endAge) :=
    ⟨fun hpq hqr =>
      ⟨UInt32.lt_trans (UInt32.lt_of_lt_of_le hpq.1 hpq.2) hqr.1, hqr.2⟩⟩
  apply List.IsChain.pairwise
  exact h.follows.imp_of_mem_imp fun p q _ hq hpq => ⟨hpq, h.holds q hq⟩

theorem Spaced.ascending (h : Spaced periods) : Ascending periods where
  starts := h.pairwise.imp_of_mem fun hp _ hpq =>
    UInt32.le_of_lt (UInt32.lt_of_le_of_lt (h.holds _ hp) hpq.1)
  ends := h.pairwise.imp fun hpq => UInt32.le_of_lt (UInt32.lt_of_lt_of_le hpq.1 hpq.2)

theorem Spaced.lt_startAge (h : Spaced periods) {i j : Nat} (hij : i < j)
    (hj : j < periods.length) (hopen : age ≤ periods[i].endAge) : age < periods[j].startAge :=
  UInt32.lt_of_le_of_lt hopen
    (List.pairwise_iff_getElem.mp h.pairwise i j (Nat.lt_trans hij hj) hj hij).1

theorem Spaced.first_le_last (h : Spaced periods) (hne : periods ≠ []) :
    (periods.head hne).startAge ≤ (periods.getLast hne).endAge := by
  have hlast := Nat.sub_lt (List.length_pos_iff.mpr hne) Nat.one_pos
  rw [List.head_eq_getElem, List.getLast_eq_getElem]
  exact UInt32.le_trans (h.ascending.startAge_le (Nat.zero_le _) hlast)
    (h.holds _ (List.getElem_mem hlast))

/-- The periods that have begun end with the one at a position, if it has begun and the
next has not. -/
theorem Spaced.begun_eq_succ (h : Spaced periods) {position : Nat}
    (hlt : position < periods.length) (hbegun : periods[position].startAge ≤ age)
    (hnext : ∀ j (h : j < periods.length), position < j → age < periods[j].startAge) :
    begun periods age = position + 1 := by
  apply begun_eq hlt
  · intro i _ hle
    exact UInt32.le_trans (h.ascending.startAge_le (Nat.le_of_lt_succ hle) hlt) hbegun
  · exact hnext

theorem Spaced.begun_eq_length (h : Spaced periods) (hne : periods ≠ [])
    (hpast : (periods.getLast hne).endAge < age) : begun periods age = periods.length := by
  rw [List.getLast_eq_getElem] at hpast
  apply begun_eq (Nat.le_refl _)
  · intro i hi _
    have hlast := h.ascending.endAge_le (Nat.le_sub_one_of_lt hi)
      (Nat.sub_lt (List.length_pos_iff.mpr hne) Nat.one_pos)
    exact UInt32.le_trans (h.holds _ (List.getElem_mem hi))
      (UInt32.le_trans hlast (UInt32.le_of_lt hpast))
  · intro i hi hle
    omega

theorem Spaced.begun_eq_zero (h : Spaced periods) (hne : periods ≠ [])
    (hbefore : age < (periods.head hne).startAge) : begun periods age = 0 := by
  rw [List.head_eq_getElem] at hbefore
  apply begun_eq (Nat.zero_le _)
  · intro i _ hi
    omega
  · intro i hi _
    exact UInt32.lt_of_lt_of_le hbefore (h.ascending.startAge_le (Nat.zero_le i) hi)

/-! ## Locations -/

theorem isCounted_within (hne : periods ≠ []) {position : Nat}
    (hposition : begun periods age = position + 1)
    (hfirst : (periods.head hne).startAge ≤ age) (hlast : age ≤ (periods.getLast hne).endAge) :
    Location.IsCounted periods hne age ⟨position, .within⟩ where
  position := by rw [hposition, Nat.add_sub_cancel]
  beforeFirst := by simpa using hfirst
  afterLast := by simpa using hlast
  within := ⟨fun _ => ⟨hfirst, hlast⟩, fun _ => rfl⟩

/-- Among periods that follow one another, all four ways of locating an age count. -/
theorem Located.isCounted {location : Location} (h : Located periods age location)
    (hspaced : Spaced periods) (hne : periods ≠ []) :
    location.IsCounted periods hne age := by
  cases h with
  | @covering position hlt covers first =>
      obtain ⟨hbegun, hopen⟩ := covers_eq_true.mp covers
      apply isCounted_within hne
      · exact hspaced.begun_eq_succ hlt hbegun fun j hj hlater =>
          hspaced.lt_startAge hlater hj hopen
      · rw [List.head_eq_getElem]
        exact UInt32.le_trans (hspaced.ascending.startAge_le (Nat.zero_le _) hlt) hbegun
      · rw [List.getLast_eq_getElem]
        exact UInt32.le_trans hopen
          (hspaced.ascending.endAge_le (Nat.le_sub_one_of_lt hlt) (by omega))
  | early hlt uncovered before =>
      rw [← List.head_eq_getElem hne] at before
      have hlast := UInt32.lt_of_lt_of_le before (hspaced.first_le_last hne)
      constructor
      · rw [hspaced.begun_eq_zero hne before]
      · simpa using before
      · simpa using UInt32.le_of_lt hlast
      · simpa using fun hbegun => absurd before (UInt32.not_lt.mpr hbegun)
  | late hlt uncovered hbegun past =>
      rw [← List.head_eq_getElem hne] at hbegun
      rw [← List.getLast_eq_getElem hne] at past
      constructor
      · rw [hspaced.begun_eq_length hne past]
      · simpa using hbegun
      · simpa using past
      · simpa using fun _ => past
  | @between position hlt uncovered hbegun next last =>
      apply isCounted_within hne
      · exact hspaced.begun_eq_succ hlt hbegun next
      · rw [List.head_eq_getElem]
        exact UInt32.le_trans (hspaced.ascending.startAge_le (Nat.zero_le _) hlt) hbegun
      · rw [List.getLast_eq_getElem]
        exact last

theorem Located.eq_of_first {location : Location} (h : Located periods age location)
    {i : Nat} (hi : i < periods.length) (hcovers : periods[i].covers age = true)
    (hfirst : ∀ j (h : j < periods.length), j < i → periods[j].covers age = false) :
    location = ⟨i, .within⟩ := by
  have hnone (huncovered : ∀ p ∈ periods, p.covers age = false) : False := by
    rw [huncovered _ (List.getElem_mem hi)] at hcovers
    contradiction
  cases h with
  | @covering position hlt covers first =>
      -- Each of the two positions is the first one, so neither is before the other.
      rcases Nat.lt_trichotomy position i with hbefore | rfl | hafter
      · rw [hfirst position hlt hbefore] at covers
        contradiction
      · rfl
      · rw [first i hafter] at hcovers
        contradiction
  | early _ uncovered _ => exact (hnone uncovered).elim
  | late _ uncovered _ _ => exact (hnone uncovered).elim
  | between _ uncovered _ _ _ => exact (hnone uncovered).elim

end

/-- **Periods that follow one another are located by counting.**  The current one is the
last that has begun, or the first if none has, and the age is before, after or within the
periods as it is compared with the first start and the last end.  Any list that is not
empty has a current period, and if some period covers the age, it is the first such one. -/
theorem locate?_counts (periods : List Period) (age : UInt32) :
    (∀ hne : periods ≠ [], Spaced periods → ∃ location,
      locate? periods age = some location ∧ location.IsCounted periods hne age) ∧
    (locate? periods age = none ↔ periods = []) ∧
    ∀ location, locate? periods age = some location →
      location.position < periods.length ∧
      ∀ i (h : i < periods.length), periods[i].covers age = true →
        (∀ j (h : j < periods.length), j < i → periods[j].covers age = false) →
          location = ⟨i, .within⟩ := by
  refine ⟨?_, ?_, ?_⟩
  · intro hne hspaced
    obtain ⟨location, hlocate, hlocated⟩ := exists_located hne age
    exact ⟨location, hlocate, hlocated.isCounted hspaced hne⟩
  · constructor
    · intro hnone
      by_contra hne
      obtain ⟨location, hlocate, -⟩ := exists_located hne age
      rw [hnone] at hlocate
      contradiction
    · rintro rfl
      rfl
  · intro location hlocate
    have hne : periods ≠ [] := by
      rintro rfl
      contradiction
    obtain ⟨located, hsome, hlocated⟩ := exists_located hne age
    obtain rfl : located = location := Option.some.inj (hsome.symm.trans hlocate)
    exact ⟨hlocated.lt, fun i hi hcovers hfirst => hlocated.eq_of_first hi hcovers hfirst⟩

/-- A gap before the second period, none before the third. -/
def gappedPeriods : List Period :=
  [⟨1, "壬午", 1995, 2004, 6, 15, ""⟩, ⟨2, "癸未", 2009, 2018, 20, 29, ""⟩,
    ⟨3, "甲申", 2019, 2028, 30, 39, ""⟩]

/-- An age in the gap, and one that only the second of two overlapping periods covers. -/
theorem locate?_counts_gappedPeriods :
    Spaced gappedPeriods ∧
      (∃ location, locate? gappedPeriods 17 = some location ∧
        location.IsCounted gappedPeriods (List.cons_ne_nil _ _) 17) ∧
      unevenPeriods[1].covers 22 = true ∧
      ∃ location, locate? unevenPeriods 22 = some location ∧ location = ⟨1, .within⟩ := by
  have hspaced : Spaced gappedPeriods := by decide
  have hcovers : unevenPeriods[1].covers 22 = true := by decide
  have hfirst : ∀ j (h : j < unevenPeriods.length), j < 1 →
      unevenPeriods[j].covers 22 = false := by
    decide
  obtain ⟨-, hnone, hsome⟩ := locate?_counts unevenPeriods 22
  obtain ⟨location, hlocate⟩ := Option.ne_none_iff_exists'.mp fun h =>
    List.cons_ne_nil _ _ (hnone.mp h)
  exact ⟨hspaced, (locate?_counts gappedPeriods 17).1 _ hspaced, hcovers, location, hlocate,
    (hsome location hlocate).2 1 (by decide) hcovers hfirst⟩

end Almanac.Ranking
