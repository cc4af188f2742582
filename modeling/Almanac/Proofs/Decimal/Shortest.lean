import Mathlib
import Almanac.Decimal.Shortest
import Almanac.Proofs.Text.Digits

/-!
# Shortest decimals of positive numbers

No grid offers zero for a number that is not zero.  So either the search ends with
digits other than zero, or it has come to its last grid.
-/

namespace Almanac.Decimal.Shortest

theorem onGrid?_ne_zero {m d : Nat} {e k : Int} (hm : 0 < m) (h : onGrid? m e k = some d) :
    d ≠ 0 := by
  unfold onGrid? at h
  extract_lets a b value upper below lower inside q left right at h
  have hlower : 0 < lower := by
    have ha : 0 < a := Nat.mul_pos (Nat.pow_pos (by decide)) (Nat.pow_pos (by decide))
    have hbelow : below ≤ 2 := by
      unfold below
      split <;> decide
    exact Nat.mul_pos (by omega) ha
  -- Zero lies below the interval.
  have hzero : inside 0 = false := by
    simp only [inside, Nat.zero_mul]
    split
    · rw [decide_eq_false (Nat.not_le.mpr hlower), Bool.false_and]
    · rw [decide_eq_false (Nat.not_lt_zero lower), Bool.false_and]
  have hq : inside q = true → q ≠ 0 := by
    rintro hin h0
    rw [h0, hzero] at hin
    contradiction
  split at h
  · rename_i hin _
    split at h
    · exact Option.some.inj h ▸ hq hin
    · exact Option.some.inj h ▸ Nat.succ_ne_zero q
  · rename_i hin _
    exact Option.some.inj h ▸ hq hin
  · exact Option.some.inj h ▸ Nat.succ_ne_zero q
  · contradiction

theorem search_eq_zero {m : Nat} {e : Int} (hm : 0 < m) {steps : Nat} {k : Int}
    (h : (search m e steps k).1 = 0) : (search m e steps k).2 = k - steps := by
  induction steps generalizing k with
  | zero => simp [search]
  | succ steps ih =>
      rcases hgrid : onGrid? m e k with _ | d
      · simp only [search, hgrid] at h ⊢
        rw [ih h]
        omega
      · simp only [search, hgrid] at h
        exact absurd h (onGrid?_ne_zero hm hgrid)

theorem digits_eq_zero {m : Nat} {e : Int} (hm : 0 < m) (h : (digits m e).1 = 0) :
    (digits m e).2 = -391 := search_eq_zero hm h

end Almanac.Decimal.Shortest
