import Mathlib
import Almanac.Text.Digits

/-!
# Written numbers

What the digits of a number look like, and that they stand for the number again.
-/

namespace Almanac.Text

/-! ## Digits -/

theorem isDigit_of_mem_digits {n : Nat} {c : Char} (h : c ∈ digits n) : c.isDigit = true :=
  Nat.isDigit_of_mem_toDigits (by decide) (by decide) h

theorem digits_ne_nil (n : Nat) : digits n ≠ [] := Nat.toDigits_ne_nil

theorem valueOf_digits (n : Nat) : valueOf (digits n) = n := Nat.ofDigitChars_ten_toDigits

theorem digits_injective : Function.Injective digits :=
  Function.LeftInverse.injective valueOf_digits

theorem toList_decimal (n : Nat) : (decimal n).toList = digits n := by
  simp [decimal, signed]

theorem length_digits_le_two {n : Nat} (h : n < 100) : (digits n).length ≤ 2 :=
  (Nat.length_toDigits_le_iff (by decide) (by decide)).mpr h

theorem length_digits_le_four {n : Nat} (h : n < 10000) : (digits n).length ≤ 4 :=
  (Nat.length_toDigits_le_iff (by decide) (by decide)).mpr h

theorem eq_zero_of_digits_eq {n : Nat} {cs : List Char} (h : digits n = '0' :: cs) : n = 0 := by
  have small : ∀ m < 10, m.digitChar = '0' → m = 0 := by decide
  induction n using Nat.strongRecOn generalizing cs with
  | _ n ih =>
      rw [digits, Nat.toDigits_eq_if (by decide)] at h
      split at h
      · rename_i hlt
        injection h with hc
        exact small n hlt hc
      · rename_i hge
        rcases hd : Nat.toDigits 10 (n / 10) with _ | ⟨d, ds⟩
        · exact absurd hd Nat.toDigits_ne_nil
        · rw [hd] at h
          injection h with hc
          have htens : digits (n / 10) = '0' :: ds := by rw [digits, hd, hc]
          have := ih (n / 10) (by omega) htens
          omega

theorem digits_ne_zero_cons (n : Nat) (c : Char) (cs : List Char) :
    digits n ≠ '0' :: c :: cs := by
  intro h
  have hn : n = 0 := eq_zero_of_digits_eq h
  subst hn
  rw [digits, Nat.toDigits_zero] at h
  simp at h

/-! ## Padding -/

theorem isDigit_of_mem_padded {w n : Nat} {c : Char} (h : c ∈ padded w n) :
    c.isDigit = true := by
  rcases List.mem_append.mp h with h | h
  · rw [List.eq_of_mem_replicate h]
    decide
  · exact isDigit_of_mem_digits h

theorem padded_ne_nil (w n : Nat) : padded w n ≠ [] := by
  intro h
  exact digits_ne_nil n (List.append_eq_nil_iff.mp h).2

theorem valueOf_padded (w n : Nat) : valueOf (padded w n) = n := by
  rw [valueOf, padded, Nat.ofDigitChars_append, Nat.ofDigitChars_replicate_zero, Nat.mul_zero]
  exact valueOf_digits n

theorem padded_injective (w : Nat) : Function.Injective (padded w) :=
  Function.LeftInverse.injective (valueOf_padded w)

theorem length_padded {w n : Nat} (h : (digits n).length ≤ w) : (padded w n).length = w := by
  simp only [padded, List.length_append, List.length_replicate]
  omega

theorem le_length_padded (w n : Nat) : w ≤ (padded w n).length := by
  simp only [padded, List.length_append, List.length_replicate]
  omega

theorem head?_padded {w n : Nat} (hw : 0 < w) (h : w < (padded w n).length) :
    (padded w n).head? ≠ some '0' := by
  have hlong : w < (digits n).length := by
    by_contra hshort
    exact absurd (length_padded (Nat.not_lt.mp hshort)) (Nat.ne_of_gt h)
  have hdigits : padded w n = digits n := by
    rw [padded, Nat.sub_eq_zero_of_le (Nat.le_of_lt hlong), List.replicate_zero,
      List.nil_append]
  rw [hdigits]
  match hcs : digits n with
  | [] => simp
  | [c] =>
      rw [hcs] at hlong
      exact absurd hlong (by simp; omega)
  | c :: c' :: cs =>
      rintro ⟨⟩
      exact digits_ne_zero_cons n c' cs hcs

/-! ## Rows of digits at the front of a text -/

def NoDigit (rest : List Char) : Prop := ∀ c ∈ rest.head?, c.isDigit = false

theorem noDigit_nil : NoDigit [] := by
  intro c hc
  simp at hc

theorem noDigit_cons {c : Char} {cs : List Char} (h : c.isDigit = false) : NoDigit (c :: cs) := by
  intro d hd
  simp only [List.head?_cons, Option.mem_def, Option.some.injEq] at hd
  rw [← hd, h]

theorem takeWhile_digits {ds rest : List Char} (hd : ∀ c ∈ ds, c.isDigit = true)
    (hr : NoDigit rest) : (ds ++ rest).takeWhile Char.isDigit = ds := by
  rw [List.takeWhile_append_of_pos hd]
  cases rest with
  | nil => simp
  | cons c cs => simp [hr c rfl]

theorem dropWhile_digits {ds rest : List Char} (hd : ∀ c ∈ ds, c.isDigit = true)
    (hr : NoDigit rest) : (ds ++ rest).dropWhile Char.isDigit = rest := by
  rw [List.dropWhile_append_of_pos hd]
  cases rest with
  | nil => rfl
  | cons c cs => simp [hr c rfl]

theorem le_ofDigitChars (acc : Nat) (cs : List Char) : acc ≤ Nat.ofDigitChars 10 cs acc := by
  induction cs generalizing acc with
  | nil => simp
  | cons c cs ih =>
      rw [Nat.ofDigitChars_cons]
      have := ih (10 * acc + (c.toNat - '0'.toNat))
      omega

theorem valueOf_le_append (ds more : List Char) : valueOf ds ≤ valueOf (ds ++ more) := by
  rw [valueOf, valueOf, Nat.ofDigitChars_append]
  exact le_ofDigitChars _ more

theorem valueOf_pos {c : Char} (hd : c.isDigit = true) (hc : c ≠ '0') (cs : List Char) :
    0 < valueOf (c :: cs) := by
  have hval : c.toNat ≠ '0'.toNat := fun he => hc (Char.toNat_inj.mp he)
  have hfirst := le_ofDigitChars (10 * 0 + (c.toNat - '0'.toNat)) cs
  simp only [Char.isDigit, Bool.and_eq_true, decide_eq_true_eq, ge_iff_le,
    UInt32.le_iff_toNat_le] at hd
  change '0'.toNat ≤ c.toNat ∧ _ at hd
  rw [valueOf, Nat.ofDigitChars_cons]
  omega

end Almanac.Text
