import Mathlib
import Almanac.Ranking.Placement

/-!
# Where the current period is

The four ways in which a list of periods answers an age, and what follows when the ages
of the list ascend: as time passes the current period stays or moves forward.  The ranges
may overlap, touch, leave gaps or hold no age at all.
-/

namespace Almanac.Ranking

/-- What a current period has to do with the age: it is the first that covers it, or none
does and it is the first, the last, or the last that has begun. -/
inductive Located (periods : List Period) (age : UInt32) : Location → Prop where
  | covering {position : Nat} (hlt : position < periods.length)
      (covers : periods[position].covers age = true)
      (first : ∀ j (h : j < position), periods[j].covers age = false) :
      Located periods age ⟨position, .within⟩
  | early (hlt : 0 < periods.length)
      (uncovered : ∀ p ∈ periods, p.covers age = false)
      (before : age < periods[0].startAge) :
      Located periods age ⟨0, .beforeFirst⟩
  | late (hlt : 0 < periods.length)
      (uncovered : ∀ p ∈ periods, p.covers age = false)
      (begun : periods[0].startAge ≤ age)
      (past : periods[periods.length - 1].endAge < age) :
      Located periods age ⟨periods.length - 1, .afterLast⟩
  | between {position : Nat} (hlt : position < periods.length)
      (uncovered : ∀ p ∈ periods, p.covers age = false)
      (begun : periods[position].startAge ≤ age)
      (next : ∀ j (h : j < periods.length), position < j → age < periods[j].startAge)
      (last : age ≤ periods[periods.length - 1].endAge) :
      Located periods age ⟨position, .within⟩

theorem covers_eq_true {p : Period} {age : UInt32} :
    p.covers age = true ↔ p.startAge ≤ age ∧ age ≤ p.endAge := by
  rw [Period.covers, Bool.and_eq_true, decide_eq_true_eq, decide_eq_true_eq]

theorem endAge_lt_of_covers_eq_false {p : Period} {age : UInt32} (h : p.covers age = false)
    (hbegun : p.startAge ≤ age) : p.endAge < age := by
  by_contra hopen
  have hcovers : p.covers age = true := covers_eq_true.mpr ⟨hbegun, UInt32.not_lt.mp hopen⟩
  rw [h] at hcovers
  contradiction

/-! ## The search -/

section

variable {periods : List Period} {age : UInt32}

/-- If the first period has begun, one is found that has begun and whose successors have
not. -/
theorem lastBegun?_eq_some (hlt : 0 < periods.length) (hbegun : periods[0].startAge ≤ age) :
    ∃ (position : Nat) (h : position < periods.length),
      lastBegun? periods age = some position ∧ periods[position].startAge ≤ age ∧
      ∀ j (h : j < periods.length), position < j → age < periods[j].startAge := by
  have hsome : (periods.reverse.findIdx? fun p => decide (p.startAge ≤ age)).isSome := by
    rw [List.findIdx?_isSome, List.any_eq_true]
    exact ⟨periods[0], List.mem_reverse.mpr (List.getElem_mem hlt), decide_eq_true hbegun⟩
  obtain ⟨i, hi⟩ := Option.isSome_iff_exists.mp hsome
  obtain ⟨hil, hat, hbefore⟩ := List.findIdx?_eq_some_iff_getElem.mp hi
  rw [List.getElem_reverse, decide_eq_true_eq] at hat
  rw [List.length_reverse] at hil
  refine ⟨periods.length - 1 - i, by omega, ?_, hat, ?_⟩
  · rw [lastBegun?, hi]
    rfl
  -- The search runs from the end, so what lies behind the position was seen before.
  · intro j hj hlater
    have hseen := hbefore (periods.length - 1 - j) (by omega)
    simp only [List.getElem_reverse, decide_eq_true_eq, UInt32.not_le] at hseen
    have hindex : periods.length - 1 - (periods.length - 1 - j) = j := by omega
    simpa only [hindex] using hseen

theorem exists_located (h : periods ≠ []) (age : UInt32) :
    ∃ location, locate? periods age = some location ∧ Located periods age location := by
  have hlt : 0 < periods.length := List.length_pos_iff.mpr h
  rw [locate?, List.head?_eq_some_head h, List.getLast?_eq_some_getLast h]
  simp only [List.head_eq_getElem, List.getLast_eq_getElem]
  refine ⟨_, rfl, ?_⟩
  split
  · rename_i position hfound
    obtain ⟨hposition, hat, hfirst⟩ := List.findIdx?_eq_some_iff_getElem.mp hfound
    apply Located.covering hposition hat
    intro j hj
    exact Bool.eq_false_iff.mpr (hfirst j hj)
  · rename_i hfound
    have huncovered : ∀ p ∈ periods, p.covers age = false := List.findIdx?_eq_none_iff.mp hfound
    by_cases hbefore : age < periods[0].startAge
    · rw [if_pos hbefore]
      exact .early hlt huncovered hbefore
    · have hbegun := UInt32.not_lt.mp hbefore
      rw [if_neg hbefore]
      by_cases hpast : periods[periods.length - 1].endAge < age
      · rw [if_pos hpast]
        exact .late hlt huncovered hbegun hpast
      · rw [if_neg hpast]
        obtain ⟨position, hposition, hsearch, hat, hnext⟩ := lastBegun?_eq_some hlt hbegun
        rw [hsearch, Option.getD_some]
        exact .between hposition huncovered hat hnext (UInt32.not_lt.mp hpast)

theorem Located.lt {location : Location} (h : Located periods age location) :
    location.position < periods.length := by
  cases h with
  | covering hlt _ _ => exact hlt
  | early hlt _ _ => exact hlt
  | late hlt _ _ _ => exact Nat.sub_lt hlt Nat.one_pos
  | between hlt _ _ _ _ => exact hlt

end

/-! ## Periods whose ages ascend -/

/-- Neither the start ages nor the end ages go back along the list. -/
structure Ascending (periods : List Period) : Prop where
  starts : periods.Pairwise fun p q => p.startAge ≤ q.startAge
  ends : periods.Pairwise fun p q => p.endAge ≤ q.endAge

instance (periods : List Period) : Decidable (Ascending periods) :=
  decidable_of_iff (periods.Pairwise (fun p q => p.startAge ≤ q.startAge) ∧
    periods.Pairwise fun p q => p.endAge ≤ q.endAge) ⟨fun h => ⟨h.1, h.2⟩, fun h => ⟨h.1, h.2⟩⟩

section

variable {periods : List Period} (hasc : Ascending periods)

include hasc

theorem Ascending.startAge_le {i j : Nat} (hij : i ≤ j) (hj : j < periods.length) :
    periods[i].startAge ≤ periods[j].startAge := by
  rcases Nat.eq_or_lt_of_le hij with rfl | hlt
  · exact UInt32.le_refl _
  · exact List.pairwise_iff_getElem.mp hasc.starts i j (Nat.lt_of_le_of_lt hij hj) hj hlt

theorem Ascending.endAge_le {i j : Nat} (hij : i ≤ j) (hj : j < periods.length) :
    periods[i].endAge ≤ periods[j].endAge := by
  rcases Nat.eq_or_lt_of_le hij with rfl | hlt
  · exact UInt32.le_refl _
  · exact List.pairwise_iff_getElem.mp hasc.ends i j (Nat.lt_of_le_of_lt hij hj) hj hlt

theorem Located.endAge_lt {age : UInt32} {location : Location}
    (h : Located periods age location) {j : Nat} (hj : j < location.position)
    (hlt : j < periods.length) : periods[j].endAge < age := by
  cases h with
  | covering hposition covers first =>
      apply endAge_lt_of_covers_eq_false (first j hj)
      exact UInt32.le_trans (hasc.startAge_le (Nat.le_of_lt hj) hposition)
        (covers_eq_true.mp covers).1
  | early _ _ _ => exact absurd hj (Nat.not_lt_zero j)
  | late _ _ _ past =>
      have hle : j ≤ periods.length - 1 := Nat.le_of_lt hj
      exact UInt32.lt_of_le_of_lt (hasc.endAge_le hle (by omega)) past
  | between hposition uncovered begun _ _ =>
      apply endAge_lt_of_covers_eq_false (uncovered _ (List.getElem_mem hlt))
      exact UInt32.le_trans (hasc.startAge_le (Nat.le_of_lt hj) hposition) begun

theorem Located.first_begun {age : UInt32} {location : Location}
    (h : Located periods age location) (hpos : 0 < location.position)
    (hlt : 0 < periods.length) : periods[0].startAge ≤ age := by
  cases h with
  | covering hposition covers _ =>
      exact UInt32.le_trans (hasc.startAge_le (Nat.zero_le _) hposition)
        (covers_eq_true.mp covers).1
  | early _ _ _ => exact absurd hpos (Nat.lt_irrefl 0)
  | late _ _ begun _ => exact begun
  | between hposition _ begun _ _ =>
      exact UInt32.le_trans (hasc.startAge_le (Nat.zero_le _) hposition) begun

omit hasc in
theorem Located.begun_or_past {age : UInt32} {location : Location}
    (h : Located periods age location) (hpos : 0 < location.position)
    (hlt : location.position < periods.length) :
    periods[location.position].startAge ≤ age ∨ periods[periods.length - 1].endAge < age := by
  cases h with
  | covering _ covers _ => exact .inl (covers_eq_true.mp covers).1
  | early _ _ _ => exact absurd hpos (Nat.lt_irrefl 0)
  | late _ _ _ past => exact .inr past
  | between _ _ begun _ _ => exact .inl begun

/-- At a greater age the current period is not an earlier one. -/
theorem Located.position_le {age age' : UInt32} {location location' : Location}
    (h : Located periods age location) (h' : Located periods age' location')
    (hage : age ≤ age') : location.position ≤ location'.position := by
  by_contra hback
  rw [Nat.not_le] at hback
  have hpos : 0 < location.position := Nat.zero_lt_of_lt hback
  have hpast := h.endAge_lt hasc hback h'.lt
  cases h' with
  | covering hlt covers _ =>
      have hopen := (covers_eq_true.mp covers).2
      exact UInt32.lt_irrefl _
        (UInt32.lt_of_lt_of_le hpast (UInt32.le_trans hage hopen))
  | early hlt _ before =>
      have hfirst := h.first_begun hasc hpos hlt
      exact UInt32.lt_irrefl _
        (UInt32.lt_of_le_of_lt (UInt32.le_trans hfirst hage) before)
  | late _ _ _ _ =>
      have hlt := h.lt
      simp only at hback
      omega
  | between hlt _ _ next last =>
      rcases h.begun_or_past hpos h.lt with hstart | hdone
      · have hnot := next _ h.lt hback
        exact UInt32.lt_irrefl _
          (UInt32.lt_of_le_of_lt (UInt32.le_trans hstart hage) hnot)
      · exact UInt32.lt_irrefl _
          (UInt32.lt_of_lt_of_le hdone (UInt32.le_trans hage last))

end

/-! ## Time -/

theorem toNat_nominalAge (birth reference : Date) :
    (nominalAge birth reference).toNat = (reference.year - birth.year + 1).toNat := by
  have hreference : reference.year ≤ 262142 := reference.isDate.1.2
  have hbirth : (-262143 : Int) ≤ birth.year := birth.isDate.1.1
  rw [nominalAge, UInt32.toNat_ofNat']
  omega

theorem nominalAge_mono (birth : Date) {earlier later : Date}
    (h : later.isBefore earlier = false) :
    nominalAge birth earlier ≤ nominalAge birth later := by
  have hyear : earlier.year ≤ later.year := by
    rw [Date.isBefore, decide_eq_false_iff_not, not_or] at h
    exact Int.not_lt.mp h.1
  rw [UInt32.le_iff_toNat_le, toNat_nominalAge, toNat_nominalAge]
  omega

/-- **The current period never moves backward in time.** -/
theorem locate?_mono {periods : List Period} (hne : periods ≠ []) (hasc : Ascending periods)
    (birth : Date) {earlier later : Date} (h : later.isBefore earlier = false) :
    ∃ location location', locate? periods (nominalAge birth earlier) = some location ∧
      locate? periods (nominalAge birth later) = some location' ∧
      location.position ≤ location'.position := by
  obtain ⟨location, hlocate, hlocated⟩ := exists_located hne (nominalAge birth earlier)
  obtain ⟨location', hlocate', hlocated'⟩ := exists_located hne (nominalAge birth later)
  refine ⟨location, location', hlocate, hlocate', ?_⟩
  exact hlocated.position_le hasc hlocated' (nominalAge_mono birth h)

/-- Ranges that overlap, one that holds no age, and a gap before the last. -/
def unevenPeriods : List Period :=
  [⟨1, "壬午", 1995, 2010, 6, 21, ""⟩, ⟨2, "癸未", 2005, 2014, 16, 25, ""⟩,
    ⟨3, "甲申", 2019, 2014, 30, 25, ""⟩, ⟨4, "乙酉", 2030, 2039, 41, 50, ""⟩]

/-- From an overlap, where the first period counts, into the gap behind the empty range. -/
theorem locate?_mono_unevenPeriods :
    ∃ location location',
      locate? unevenPeriods (nominalAge ⟨1990, 5, 15, by decide⟩ ⟨2007, 1, 1, by decide⟩)
        = some location ∧
      locate? unevenPeriods (nominalAge ⟨1990, 5, 15, by decide⟩ ⟨2022, 1, 1, by decide⟩)
        = some location' ∧ location.position ≤ location'.position :=
  locate?_mono (List.cons_ne_nil _ _) (by decide) ⟨1990, 5, 15, by decide⟩ (by decide)

end Almanac.Ranking
