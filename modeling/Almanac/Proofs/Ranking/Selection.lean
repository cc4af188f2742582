import Mathlib
import Almanac.Ranking.Selection

/-!
# Which periods are selected

Going outward from the current position takes in turn from what follows it and from what
precedes it, and stops where the selection is full: `select_eq`.  The order by distance
has every period once, so a selection has as many different periods as it can.
-/

namespace Almanac.Ranking

/-! ## The order by distance -/

/-- Takes from two lists in turn, the first list first; what is left of the longer
one follows. -/
def alternate {α : Type} : List α → List α → List α
  | [], bs => bs
  | a :: as, bs => a :: alternate bs as
termination_by as bs => as.length + bs.length

/-- All members of a list, the one at a position first and the others by their
distance from it, later ones before earlier ones at equal distance. -/
def nearestFirst {α : Type} (as : List α) (current : Nat) : List α :=
  match as.drop current with
  | [] => []
  | a :: after => a :: alternate after (as.take current).reverse

example : nearestFirst [0, 1, 2, 3, 4, 5] 1 = [1, 2, 0, 3, 4, 5] := by decide +kernel

theorem alternate_nil {α : Type} (as : List α) : alternate as [] = as := by
  cases as with
  | nil => rw [alternate]
  | cons a as => rw [alternate, alternate]

theorem alternate_perm {α : Type} (as bs : List α) : (alternate as bs).Perm (as ++ bs) := by
  fun_induction alternate as bs with
  | case1 bs => exact .refl _
  | case2 a as bs ih =>
      rw [List.cons_append]
      exact (ih.trans List.perm_append_comm).cons a

theorem nearestFirst_perm {α : Type} {as : List α} {current : Nat} (h : current < as.length) :
    (nearestFirst as current).Perm as := by
  have hdrop : as.drop current = as[current] :: as.drop (current + 1) :=
    List.drop_eq_getElem_cons h
  rw [nearestFirst, hdrop]
  have hswap : (alternate (as.drop (current + 1)) (as.take current).reverse).Perm
      (as.take current ++ as.drop (current + 1)) :=
    (alternate_perm _ _).trans
      (List.perm_append_comm.trans (List.Perm.append_right _ (List.reverse_perm _)))
  have hmiddle : (as[current] :: (as.take current ++ as.drop (current + 1))).Perm
      (as.take current ++ as.drop current) := by
    rw [hdrop]
    exact List.perm_middle.symm
  exact (hswap.cons _).trans (hmiddle.trans (.of_eq (List.take_append_drop current as)))

/-! ## Numbered periods -/

def numbered (priority : Nat) : List Period → List Stub
  | [] => []
  | p :: ps => ⟨p, UInt32.ofNat priority⟩ :: numbered (priority + 1) ps

theorem numbered_periods (first : Nat) (ps : List Period) :
    (numbered first ps).map (·.period) = ps := by
  induction ps generalizing first with
  | nil => rfl
  | cons p ps ih => rw [numbered, List.map_cons, ih]

theorem length_numbered (first : Nat) (ps : List Period) :
    (numbered first ps).length = ps.length := by
  rw [← List.length_map (·.period), numbered_periods]

theorem numbered_priority {first : Nat} {ps : List Period} {stub : Stub}
    (h : stub ∈ numbered first ps) :
    ∃ n, first ≤ n ∧ n < first + ps.length ∧ stub.priority = UInt32.ofNat n := by
  induction ps generalizing first with
  | nil => contradiction
  | cons p ps ih =>
      rcases List.mem_cons.mp h with rfl | h
      · exact ⟨first, Nat.le_refl _, by simp, rfl⟩
      · obtain ⟨n, hlo, hhi, hn⟩ := ih h
        rw [List.length_cons]
        exact ⟨n, by omega, by omega, hn⟩

/-! ## Going outward -/

section

variable {periods : List Period} {current : Nat}

theorem push_eq {i : Nat} (h : i < periods.length) (stubs : List Stub) :
    push periods stubs i = stubs ++ [⟨periods[i], UInt32.ofNat (stubs.length + 1)⟩] := by
  rw [push, List.getElem?_eq_getElem h]
  rfl

/-- The position that is reached next goes in front of what is selected after it. -/
theorem push_append_numbered {i n : Nat} (h : i < periods.length) {stubs : List Stub}
    (hn : stubs.length < n) (rest : List Period) :
    push periods stubs i ++ numbered ((push periods stubs i).length + 1)
        (rest.take (n - (push periods stubs i).length))
      = stubs ++ numbered (stubs.length + 1) ((periods[i] :: rest).take (n - stubs.length)) := by
  obtain ⟨k, hk⟩ := Nat.exists_eq_add_of_lt hn
  have hleft : n - (stubs.length + 1) = k := by omega
  have hleft' : n - stubs.length = k + 1 := by omega
  rw [push_eq h, List.length_append, List.length_singleton, hleft, hleft', List.take_succ_cons,
    numbered, List.append_assoc, List.singleton_append]

theorem length_push {i : Nat} (h : i < periods.length) (stubs : List Stub) :
    (push periods stubs i).length = stubs.length + 1 := by
  rw [push_eq h, List.length_append, List.length_singleton]

theorem reverse_take {backward : Nat} (hpos : 0 < backward) (h : backward ≤ periods.length) :
    (periods.take backward).reverse
      = periods[backward - 1] :: (periods.take (backward - 1)).reverse := by
  have hlt : backward - 1 < periods.length := by omega
  have htake := List.take_concat_get' periods (backward - 1) hlt
  rw [Nat.sub_add_cancel hpos] at htake
  rw [← htake, List.reverse_append, List.reverse_singleton, List.singleton_append]

/-- **Going outward takes in turn from both sides.**  What is still to come is the beginning
of the two sides taken in turn, in every round and wherever the search breaks off. -/
theorem outward_eq {target forward backward : Nat} {stubs : List Stub}
    (hbackward : backward ≤ periods.length) :
    outward periods target forward backward stubs
      = stubs ++ numbered (stubs.length + 1)
          ((alternate (periods.drop (forward + 1)) (periods.take backward).reverse).take
            (target - stubs.length)) := by
  fun_induction outward periods target forward backward stubs with
  | case1 forward backward stubs hroom hforward next hfull =>
      rw [List.drop_eq_getElem_cons hforward, alternate, ← push_append_numbered hforward hroom,
        show push periods stubs (forward + 1) = next from rfl, hfull, Nat.sub_self, List.take_zero,
        numbered, List.append_nil]
  | case2 forward backward stubs hroom hforward next hfull hpos ih =>
      have hnext : next.length = stubs.length + 1 := length_push hforward stubs
      have hroom' : next.length < target := by omega
      rw [ih (by omega), push_append_numbered (by omega) hroom',
        List.drop_eq_getElem_cons hforward, alternate, reverse_take hpos hbackward, alternate]
      exact push_append_numbered hforward hroom _
  | case3 forward backward stubs hroom hforward next hfull hpos ih =>
      obtain rfl : backward = 0 := by omega
      rw [ih hbackward, List.drop_eq_getElem_cons hforward, alternate, List.take_zero,
        List.reverse_nil, alternate, alternate_nil]
      exact push_append_numbered hforward hroom _
  | case4 forward backward stubs hroom hforward hpos ih =>
      rw [List.drop_eq_nil_of_le (by omega), alternate] at ih ⊢
      rw [ih (by omega), push_append_numbered (by omega) hroom, ← reverse_take hpos hbackward]
  | case5 forward backward stubs hroom hforward hpos =>
      obtain rfl : backward = 0 := by omega
      rw [List.drop_eq_nil_of_le (by omega), alternate, List.take_zero, List.reverse_nil,
        List.take_nil, numbered, List.append_nil]
  | case6 forward backward stubs hfull =>
      rw [Nat.sub_eq_zero_of_le (by omega), List.take_zero, numbered, List.append_nil]

theorem nearestFirst_eq_cons (h : current < periods.length) :
    nearestFirst periods current = periods[current] ::
      alternate (periods.drop (current + 1)) (periods.take current).reverse := by
  rw [nearestFirst, List.drop_eq_getElem_cons h]

theorem take_nearestFirst (h : current < periods.length) (count : Nat) :
    (nearestFirst periods current).take count
      = (nearestFirst periods current).take (min count periods.length) := by
  rw [List.take_eq_take_iff, (nearestFirst_perm h).length_eq]
  omega

/-- A selection is the beginning of the order by distance, numbered from one. -/
theorem select_eq (periods : List Period) (current count : Nat) :
    select periods current count = numbered 1 ((nearestFirst periods current).take count) := by
  by_cases h : current < periods.length
  · rw [select, take_nearestFirst h]
    split
    · have hnone : min count periods.length = 0 := by omega
      rw [hnone, List.take_zero, numbered]
    · have hroom : ([] : List Stub).length < min count periods.length := by
        rw [List.length_nil]
        omega
      rw [outward_eq (Nat.le_of_lt h), push_append_numbered h hroom, nearestFirst_eq_cons h]
      rfl
  · have hle : periods.length ≤ current := Nat.le_of_not_lt h
    rw [select, if_pos (.inr hle), nearestFirst, List.drop_eq_nil_of_le hle, List.take_nil,
      numbered]

end

/-! ## The selection -/

section

variable {periods : List Period} {current : Nat}

theorem select_periods_sublist (count : Nat) :
    ((select periods current count).map (·.period)).Sublist (nearestFirst periods current) := by
  rw [select_eq, numbered_periods]
  exact List.take_sublist _ _

theorem mem_of_mem_select (h : current < periods.length) {count : Nat} {stub : Stub}
    (hs : stub ∈ select periods current count) : stub.period ∈ periods :=
  (nearestFirst_perm h).mem_iff.mp
    ((select_periods_sublist count).subset (List.mem_map_of_mem (f := (·.period)) hs))

theorem select_nodup (h : current < periods.length)
    (hindex : (periods.map (·.index)).Nodup) (count : Nat) :
    ((select periods current count).map (·.period.index)).Nodup := by
  have hperm := (nearestFirst_perm h).map (·.index)
  have hsub : (((select periods current count).map (·.period)).map (·.index)).Sublist
      ((nearestFirst periods current).map (·.index)) := (select_periods_sublist count).map _
  rw [List.map_map] at hsub
  exact hsub.nodup (hperm.nodup_iff.mpr hindex)

theorem length_select (h : current < periods.length) (count : Nat) :
    (select periods current count).length = min count periods.length := by
  rw [select_eq, length_numbered, List.length_take, (nearestFirst_perm h).length_eq]

theorem priority_of_mem_select {count : Nat} {stub : Stub}
    (hs : stub ∈ select periods current count) :
    ∃ n, 1 ≤ n ∧ n ≤ (select periods current count).length ∧
      stub.priority = UInt32.ofNat n := by
  rw [select_eq] at hs ⊢
  obtain ⟨n, hlo, hhi, hn⟩ := numbered_priority hs
  rw [length_numbered]
  exact ⟨n, hlo, by omega, hn⟩

theorem priority_le_length_select {count : Nat} {stub : Stub}
    (hs : stub ∈ select periods current count) :
    stub.priority.toNat ≤ (select periods current count).length := by
  obtain ⟨n, -, hle, hn⟩ := priority_of_mem_select hs
  rw [hn, UInt32.toNat_ofNat']
  exact Nat.le_trans (Nat.mod_le _ _) hle

theorem select_priority_ne_zero {count : Nat}
    (hfew : (select periods current count).length < 2 ^ 32) {stub : Stub}
    (hs : stub ∈ select periods current count) : stub.priority ≠ 0 := by
  obtain ⟨n, hlo, hle, hn⟩ := priority_of_mem_select hs
  have hnat : stub.priority.toNat = n := by
    rw [hn, UInt32.toNat_ofNat_of_lt' (Nat.lt_of_le_of_lt hle hfew)]
  intro hzero
  rw [hzero, UInt32.toNat_zero] at hnat
  omega

theorem select_priority_le (h : current < periods.length) {count : Nat} {stub : Stub}
    (hs : stub ∈ select periods current count) : stub.priority.toNat ≤ periods.length := by
  have hlen := priority_le_length_select hs
  rw [length_select h] at hlen
  exact Nat.le_trans hlen (Nat.min_le_right _ _)

end

end Almanac.Ranking
