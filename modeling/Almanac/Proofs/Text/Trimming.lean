import Mathlib
import Almanac.Text.Blank

/-!
# Trimming

What trimming leaves of a text: nothing is lost between two characters that are no blanks,
and blanks around a text make no difference.
-/

namespace Almanac.Text

def IsGap (cs : List Char) : Prop := ∀ c ∈ cs, isBlank c = true

theorem isGap_nil : IsGap [] := by simp [IsGap]

theorem IsGap.append {cs ds : List Char} (h : IsGap cs) (h' : IsGap ds) : IsGap (cs ++ ds) := by
  intro c hc
  exact (List.mem_append.mp hc).elim (h c) (h' c)

theorem trim_eq_self {cs : List Char} (hfirst : ∀ c ∈ cs.head?, isBlank c = false)
    (hlast : ∀ c ∈ cs.getLast?, isBlank c = false) : trim cs = cs := by
  have keep : ∀ ds : List Char, (∀ c ∈ ds.head?, isBlank c = false) → ds.dropWhile isBlank = ds := by
    intro ds h
    cases ds with
    | nil => rfl
    | cons d ds => rw [List.dropWhile_cons, h d rfl, if_neg Bool.false_ne_true]
  have hback : cs.reverse.dropWhile isBlank = cs.reverse := by
    apply keep
    rwa [List.head?_reverse]
  rw [trim, trimStart, keep cs hfirst, trimEnd, hback, List.reverse_reverse]

theorem trim_of_noBlank {cs : List Char} (h : ∀ c ∈ cs, isBlank c = false) : trim cs = cs := by
  apply trim_eq_self
  · intro c hc
    exact h c (List.mem_of_mem_head? hc)
  · intro c hc
    exact h c (List.mem_of_mem_getLast? hc)

theorem trimStart_gap {front : List Char} (h : IsGap front) (cs : List Char) :
    trimStart (front ++ cs) = trimStart cs := List.dropWhile_append_of_pos h

theorem trimEnd_gap {back : List Char} (h : IsGap back) (cs : List Char) :
    trimEnd (cs ++ back) = trimEnd cs := by
  have hback : ∀ c ∈ back.reverse, isBlank c = true := fun c hc => h c (List.mem_reverse.mp hc)
  rw [trimEnd, trimEnd, List.reverse_append, List.dropWhile_append_of_pos hback]

theorem exists_gap (cs : List Char) : ∃ gap, IsGap gap ∧ cs = gap ++ trimStart cs :=
  ⟨cs.takeWhile isBlank, fun _ => List.mem_takeWhile_imp, List.takeWhile_append_dropWhile.symm⟩

/-- What trimming takes away are blanks on either side. -/
theorem exists_gaps (cs : List Char) :
    ∃ front back, IsGap front ∧ IsGap back ∧ cs = front ++ (trim cs ++ back) := by
  obtain ⟨front, hfront, hcs⟩ := exists_gap cs
  obtain ⟨gap, hgap, hrest⟩ := exists_gap (trimStart cs).reverse
  have hback : trimStart cs = trim cs ++ gap.reverse := by
    rw [trim, trimEnd, ← trimStart, ← List.reverse_append, ← hrest, List.reverse_reverse]
  refine ⟨front, gap.reverse, hfront, ?_, ?_⟩
  · intro c hc
    exact hgap c (List.mem_reverse.mp hc)
  · rw [← hback, ← hcs]

/-- **Blanks around a text make no difference.** -/
theorem trim_surround {front back : List Char} (hfront : IsGap front) (hback : IsGap back)
    (cs : List Char) : trim (front ++ (cs ++ back)) = trim cs := by
  rw [trim, trim, trimStart_gap hfront]
  by_cases hblank : cs.dropWhile isBlank = []
  -- Nothing but blanks stands there, so the front reaches into the back.
  · have hall : trimStart (cs ++ back) = [] := by
      rw [trimStart, List.dropWhile_append, hblank]
      exact List.dropWhile_eq_nil_iff.mpr hback
    rw [hall, trimStart, hblank]
  · have hsome : trimStart (cs ++ back) = trimStart cs ++ back := by
      rw [trimStart, List.dropWhile_append, if_neg (by simpa using hblank)]
      rfl
    rw [hsome, trimEnd_gap hback]

end Almanac.Text
