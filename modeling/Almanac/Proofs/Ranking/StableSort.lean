import Mathlib

/-!
# A stable sort is determined by its ties

Members of a list tie if each of them may stand before the other.  Sorting keeps the
order of tied members, and a sorted list is determined by the order of its tied members.
Hence two lists that agree on the order of all ties are sorted to the same list.
-/

namespace Almanac.StableSort

section

variable {α : Type} {le : α → α → Bool}

/-- Whether each of two members may stand before the other. -/
def ties (le : α → α → Bool) (a b : α) : Bool := le a b && le b a

theorem ties_iff {a b : α} : ties le a b = true ↔ le a b = true ∧ le b a = true := by
  rw [ties, Bool.and_eq_true]

variable (htotal : ∀ a b, (le a b || le b a) = true)

include htotal

theorem ties_self (a : α) : ties le a a = true := by
  have h := htotal a a
  rw [Bool.or_self] at h
  rw [ties, h, Bool.and_self]

/-- Sorting leaves the members that tie with a given one as they stand. -/
theorem filter_mergeSort_ties (htrans : ∀ a b c, le a b = true → le b c = true → le a c = true)
    (as : List α) (a : α) :
    (as.mergeSort le).filter (ties le a) = as.filter (ties le a) := by
  have hsorted : (as.filter (ties le a)).Pairwise fun b c => le b c = true := by
    apply List.pairwise_of_forall_mem_list
    intro b hb c hc
    have hab := ties_iff.mp (List.mem_filter.mp hb).2
    have hac := ties_iff.mp (List.mem_filter.mp hc).2
    exact htrans b a c hab.2 hac.1
  have hsub : (as.filter (ties le a)).Sublist ((as.mergeSort le).filter (ties le a)) := by
    have h := (List.sublist_mergeSort htrans htotal hsorted List.filter_sublist).filter (ties le a)
    simp only [List.filter_filter, Bool.and_self] at h
    exact h
  symm
  apply hsub.eq_of_length
  exact ((List.mergeSort_perm as le).filter (ties le a)).length_eq.symm

theorem mem_of_filter_ties {as bs : List α}
    (h : ∀ a, as.filter (ties le a) = bs.filter (ties le a)) {a : α} (ha : a ∈ as) : a ∈ bs := by
  have hmem : a ∈ as.filter (ties le a) := List.mem_filter.mpr ⟨ha, ties_self htotal a⟩
  rw [h a] at hmem
  exact (List.mem_filter.mp hmem).1

theorem head_le {a b : α} {as : List α} (h : (a :: as).Pairwise fun a b => le a b = true)
    (hb : b ∈ a :: as) : le a b = true := by
  rcases List.mem_cons.mp hb with rfl | hb
  · exact (ties_iff.mp (ties_self htotal b)).1
  · exact (List.pairwise_cons.mp h).1 b hb

theorem eq_of_filter_ties {as bs : List α} (has : as.Pairwise fun a b => le a b = true)
    (hbs : bs.Pairwise fun a b => le a b = true)
    (h : ∀ a, as.filter (ties le a) = bs.filter (ties le a)) : as = bs := by
  induction as generalizing bs with
  | nil =>
      cases bs with
      | nil => rfl
      | cons b bs =>
          have hb := mem_of_filter_ties htotal (fun a => (h a).symm) (List.mem_cons_self (a := b))
          contradiction
  | cons a as ih =>
      cases bs with
      | nil =>
          have ha := mem_of_filter_ties htotal h (List.mem_cons_self (a := a))
          contradiction
      | cons b bs =>
          -- The heads stand before all others, so they tie, and the first ties agree.
          have hb := mem_of_filter_ties htotal (fun a => (h a).symm) (List.mem_cons_self (a := b))
          have ha := mem_of_filter_ties htotal h (List.mem_cons_self (a := a))
          have hab : ties le a b = true :=
            ties_iff.mpr ⟨head_le htotal has hb, head_le htotal hbs ha⟩
          have heads := h a
          rw [List.filter_cons_of_pos (ties_self htotal a), List.filter_cons_of_pos hab] at heads
          obtain ⟨rfl, -⟩ := List.cons.inj heads
          congr 1
          apply ih has.of_cons hbs.of_cons
          intro c
          have hc := h c
          by_cases hca : ties le c a = true
          · rw [List.filter_cons_of_pos hca, List.filter_cons_of_pos hca] at hc
            exact (List.cons.inj hc).2
          · rw [List.filter_cons_of_neg hca, List.filter_cons_of_neg hca] at hc
            exact hc

theorem pairwise_of_filter_ties {R : α → α → Prop} {as : List α}
    (h : ∀ a, (as.filter (ties le a)).Pairwise R) :
    as.Pairwise fun a b => ties le a b = true → R a b := by
  induction as with
  | nil => exact .nil
  | cons a as ih =>
      have hhead := h a
      rw [List.filter_cons_of_pos (ties_self htotal a), List.pairwise_cons] at hhead
      refine .cons (fun b hb hties => hhead.1 b (List.mem_filter.mpr ⟨hb, hties⟩)) ?_
      exact ih fun c => (h c).sublist ((List.sublist_cons_self a as).filter _)

/-- **Lists whose ties agree are sorted to the same list.** -/
theorem mergeSort_eq_of_filter_ties
    (htrans : ∀ a b c, le a b = true → le b c = true → le a c = true) {as bs : List α}
    (h : ∀ a, as.filter (ties le a) = bs.filter (ties le a)) :
    as.mergeSort le = bs.mergeSort le := by
  apply eq_of_filter_ties htotal (List.pairwise_mergeSort htrans htotal as)
    (List.pairwise_mergeSort htrans htotal bs)
  intro a
  rw [filter_mergeSort_ties htotal htrans, filter_mergeSort_ties htotal htrans, h a]

end

end Almanac.StableSort
