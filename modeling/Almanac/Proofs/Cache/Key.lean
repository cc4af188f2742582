import Mathlib
import Almanac.Cache.Key

/-!
# Whose key it is

As long as no two of the texts that are digested have one digest, a key belongs to one
normalized profile.
-/

namespace Almanac

namespace Sha256

theorem digitChar_inj {m n : Nat} (hm : m < 16) (hn : n < 16)
    (h : m.digitChar = n.digitChar) : m = n := by
  have : ∀ m < 16, ∀ n < 16, m.digitChar = n.digitChar → m = n := by decide
  exact this m hm n hn h

theorem hex_injective {xs ys : List UInt8} (h : hex xs = hex ys) : xs = ys := by
  induction xs generalizing ys with
  | nil =>
      cases ys with
      | nil => rfl
      | cons y ys => cases h
  | cons x xs ih =>
      cases ys with
      | nil => cases h
      | cons y ys =>
          simp only [hex, List.flatMap_cons, List.cons_append, List.nil_append,
            List.cons.injEq] at h
          obtain ⟨hhigh, hlow, hrest⟩ := h
          have hx := x.toNat_lt
          have hy := y.toNat_lt
          have hdiv : x.toNat / 16 = y.toNat / 16 := digitChar_inj (by omega) (by omega) hhigh
          have hmod : x.toNat % 16 = y.toNat % 16 := digitChar_inj (by omega) (by omega) hlow
          have heq : x = y := UInt8.toNat_inj.mp (by omega)
          rw [heq, ih hrest]

end Sha256

namespace Cache

/-- No two key texts of some profiles have one digest. -/
def NoCollision (profiles : List Profile) (shape : Ranking.Shape) : Prop :=
  ∀ p ∈ profiles, ∀ q ∈ profiles,
    Sha256.digest (keyText p shape).toUTF8.toList = Sha256.digest (keyText q shape).toUTF8.toList →
      keyText p shape = keyText q shape

theorem digest_eq_of_keyOf_eq {s t : String} (h : keyOf s = keyOf t) :
    Sha256.digest s.toUTF8.toList = Sha256.digest t.toUTF8.toList := by
  rw [keyOf, keyOf, String.append_right_inj] at h
  exact Sha256.hex_injective (String.ofList_injective h)

theorem normalized_eq_of_keyText_eq {p q : Profile} {shape : Ranking.Shape}
    (h : keyText p shape = keyText q shape) : p.normalized = q.normalized := by
  rw [keyText, keyText] at h
  iterate 4 rw [String.append_left_inj] at h
  exact h

theorem NoCollision.normalized_eq {profiles : List Profile} {shape : Ranking.Shape}
    (h : NoCollision profiles shape) {p q : Profile} (hp : p ∈ profiles) (hq : q ∈ profiles)
    (hkey : key p shape = key q shape) : p.normalized = q.normalized :=
  normalized_eq_of_keyText_eq (h p hp q hq (digest_eq_of_keyOf_eq hkey))

end Cache

end Almanac
