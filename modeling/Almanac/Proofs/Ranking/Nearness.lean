import Mathlib
import Almanac.Proofs.Ranking.Location
import Almanac.Proofs.Ranking.Selection

/-!
# The nearest periods

All positions of a list are sorted by their distance from the current one, the later of
two equally distant ones first.  Taking in turn from what follows the current position and
from what precedes it gives the same order, however long the two sides are, so a selection
has the nearest periods, numbered from one: `Ranking.select_isNearestFirst`.
-/

namespace Almanac.Ranking

def distance (current i : Nat) : Nat := (i - current) + (current - i)

def nearer (current i j : Nat) : Bool :=
  decide (distance current i < distance current j)
    || distance current i == distance current j && decide (j ≤ i)

def byDistance (length current : Nat) : List Nat := (List.range length).mergeSort (nearer current)

/-! ## The order of positions -/

/-- The place of a position among all whole numbers: odd behind the current one. -/
def turn (current i : Nat) : Nat :=
  if current < i then 2 * (i - current) - 1 else 2 * (current - i)

theorem nearer_iff {current i j : Nat} :
    nearer current i j = true ↔ turn current i ≤ turn current j := by
  simp only [nearer, Bool.or_eq_true, Bool.and_eq_true, decide_eq_true_eq, beq_iff_eq]
  unfold distance turn
  split <;> split <;> omega

theorem eq_of_turn_eq {current i j : Nat} (h : turn current i = turn current j) : i = j := by
  unfold turn at h
  split at h <;> split at h <;> omega

theorem byDistance_perm (length current : Nat) :
    (byDistance length current).Perm (List.range length) := List.mergeSort_perm _ _

theorem byDistance_sorted (length current : Nat) :
    (byDistance length current).Pairwise fun i j => turn current i ≤ turn current j := by
  have hsorted : (byDistance length current).Pairwise fun i j => nearer current i j = true := by
    apply List.pairwise_mergeSort
    · intro i j k
      simp only [nearer_iff]
      exact Nat.le_trans
    · intro i j
      simp only [Bool.or_eq_true, nearer_iff]
      exact Nat.le_total _ _
  exact hsorted.imp nearer_iff.mp

theorem byDistance_nodup (length current : Nat) : (byDistance length current).Nodup :=
  (byDistance_perm length current).nodup_iff.mpr List.nodup_range

/-! ## Taking in turn -/

/-- If the turns of one list are every other number from `m` on, and those of the other the
numbers between, then taking in turn gives them in order. -/
theorem alternate_sorted {current m : Nat} {as bs : List Nat}
    (has : as.map (turn current) = List.range' m as.length 2)
    (hbs : bs.map (turn current) = List.range' (m + 1) bs.length 2) :
    (alternate as bs).Pairwise (fun i j => turn current i ≤ turn current j) ∧
      ∀ i ∈ alternate as bs, m ≤ turn current i := by
  fun_induction alternate as bs generalizing m with
  | case1 bs =>
      have hsorted : (bs.map (turn current)).Pairwise (· ≤ ·) := by
        rw [hbs]
        exact (List.pairwise_lt_range' 2 Nat.two_pos).imp Nat.le_of_lt
      refine ⟨List.pairwise_map.mp hsorted, ?_⟩
      intro i hi
      have hturn := List.mem_map_of_mem (f := turn current) hi
      rw [hbs, List.mem_range'] at hturn
      omega
  | case2 a as bs ih =>
      rw [List.map_cons, List.length_cons, List.range'_succ, List.cons.injEq] at has
      obtain ⟨hsorted, hleast⟩ := ih hbs has.2
      refine ⟨hsorted.cons ?_, ?_⟩
      · intro i hi
        have := hleast i hi
        omega
      · intro i hi
        rcases List.mem_cons.mp hi with rfl | hi
        · exact Nat.le_of_eq has.1.symm
        · exact Nat.le_of_succ_le (hleast i hi)

theorem alternate_take {α : Type} {as bs : List α} {m : Nat} (hm : m ≤ as.length + bs.length) :
    ∃ p q, p + q = m ∧ p ≤ as.length ∧ q ≤ bs.length ∧
      ((alternate as bs).take m).Perm (as.take p ++ bs.take q) := by
  fun_induction alternate as bs generalizing m with
  | case1 bs => exact ⟨0, m, Nat.zero_add m, Nat.le_refl 0, by simpa using hm, .refl _⟩
  | case2 a as bs ih =>
      rw [List.length_cons] at hm
      cases m with
      | zero => exact ⟨0, 0, rfl, Nat.zero_le _, Nat.zero_le _, .refl _⟩
      | succ m =>
          obtain ⟨q, p, hsum, hq, hp, hperm⟩ := ih (by omega : m ≤ bs.length + as.length)
          refine ⟨p + 1, q, by omega, Nat.succ_le_succ hp, hq, ?_⟩
          rw [List.take_succ_cons, List.take_succ_cons, List.cons_append]
          exact (hperm.trans List.perm_append_comm).cons a

theorem map_alternate {α β : Type} (f : α → β) (as bs : List α) :
    (alternate as bs).map f = alternate (as.map f) (bs.map f) := by
  fun_induction alternate as bs with
  | case1 bs => rw [List.map_nil, alternate]
  | case2 a as bs ih => rw [List.map_cons, List.map_cons, alternate, ih]

/-! ## Positions -/

theorem nearestFirst_range {length current : Nat} (h : current < length) :
    nearestFirst (List.range length) current
      = current :: alternate (List.range' (current + 1) (length - (current + 1)))
          (List.range current).reverse := by
  have hdrop : (List.range length).drop current
      = current :: List.range' (current + 1) (length - (current + 1)) := by
    rw [List.range_eq_range', List.drop_range', ← List.range'_succ]
    congr 1 <;> omega
  rw [nearestFirst, hdrop, List.take_range, Nat.min_eq_left (Nat.le_of_lt h)]

theorem turn_range' (current length : Nat) :
    (List.range' (current + 1) length).map (turn current)
      = List.range' 1 (List.range' (current + 1) length).length 2 := by
  apply List.ext_getElem
  · simp
  · intro i _ _
    simp only [List.getElem_map, List.getElem_range', turn]
    split <;> omega

theorem turn_reverse_range (current : Nat) :
    (List.range current).reverse.map (turn current)
      = List.range' 2 (List.range current).reverse.length 2 := by
  apply List.ext_getElem
  · simp
  · intro i hi _
    simp only [List.length_map, List.length_reverse, List.length_range] at hi
    simp only [List.getElem_map, List.getElem_reverse, List.length_range, List.getElem_range,
      List.getElem_range', turn]
    split <;> omega

/-- **Taking in turn sorts the positions by distance.** -/
theorem nearestFirst_range_eq {length current : Nat} (h : current < length) :
    nearestFirst (List.range length) current = byDistance length current := by
  have hperm : (nearestFirst (List.range length) current).Perm (List.range length) :=
    nearestFirst_perm (by rwa [List.length_range])
  have hsorted : (nearestFirst (List.range length) current).Pairwise
      fun i j => turn current i ≤ turn current j := by
    rw [nearestFirst_range h]
    -- Behind the current position every second turn is taken, before it the ones between.
    have hrest := alternate_sorted (turn_range' current (length - (current + 1)))
      (turn_reverse_range current)
    exact hrest.1.cons fun i _ => by simp [turn]
  refine List.Perm.eq_of_pairwise ?_ hsorted (byDistance_sorted length current)
    (hperm.trans (byDistance_perm length current).symm)
  intro i j _ _ hij hji
  exact eq_of_turn_eq (Nat.le_antisymm hij hji)

theorem byDistance_take_perm {length current m : Nat} (h : current < length) (hpos : 0 < m)
    (hm : m ≤ length) : ∃ low, low ≤ current ∧ current < low + m ∧ low + m ≤ length ∧
      ((byDistance length current).take m).Perm (List.range' low m) := by
  obtain ⟨m, rfl⟩ := Nat.exists_eq_add_one.mpr hpos
  have hlen : m ≤ (List.range' (current + 1) (length - (current + 1))).length
      + (List.range current).reverse.length := by
    rw [List.length_range', List.length_reverse, List.length_range]
    omega
  obtain ⟨p, q, hsum, hp, hq, hperm⟩ := alternate_take hlen
  simp only [List.length_range', List.length_reverse, List.length_range] at hp hq
  refine ⟨current - q, by omega, by omega, by omega, ?_⟩
  rw [← nearestFirst_range_eq h, nearestFirst_range h, List.take_succ_cons]
  have hafter : (List.range' (current + 1) (length - (current + 1))).take p
      = List.range' (current + 1) p :=
    List.take_range'_of_length_ge hp
  have hbefore : (List.range current).reverse.take q = (List.range' (current - q) q).reverse := by
    rw [List.take_reverse, List.length_range, List.range_eq_range', List.drop_range']
    congr 2 <;> omega
  rw [hafter, hbefore] at hperm
  have hrun : List.range' (current - q) (m + 1)
      = List.range' (current - q) q ++ current :: List.range' (current + 1) p := by
    have hcurrent : current - q + q = current := by omega
    have happend := List.range'_append_1 (s := current - q) (m := q) (n := p + 1)
    rw [hcurrent, List.range'_succ] at happend
    rw [happend]
    congr 1
    omega
  rw [hrun]
  have hswap : (List.range' (current + 1) p ++ (List.range' (current - q) q).reverse).Perm
      (List.range' (current - q) q ++ List.range' (current + 1) p) :=
    List.perm_append_comm.trans ((List.reverse_perm _).append_right _)
  exact ((hperm.trans hswap).cons current).trans List.perm_middle.symm

/-! ## Periods -/

theorem map_nearestFirst {α β : Type} (f : α → β) (as : List α) (current : Nat) :
    (nearestFirst as current).map f = nearestFirst (as.map f) current := by
  rw [nearestFirst, nearestFirst, ← List.map_drop, ← List.map_take]
  cases as.drop current with
  | nil => rfl
  | cons a after => rw [List.map_cons, List.map_cons, map_alternate, List.map_reverse]

theorem nearestFirst_getElem? {α : Type} {as : List α} {current : Nat}
    (h : current < as.length) :
    (nearestFirst as current).map some = (byDistance as.length current).map (as[·]?) := by
  have hsome : as.map some = (List.range as.length).map (as[·]?) := by
    apply List.ext_getElem
    · simp
    · intro i hi _
      simp only [List.length_map] at hi
      simp [hi]
  rw [map_nearestFirst, hsome, ← map_nearestFirst, nearestFirst_range_eq h]

/-- Numbers do not wrap around as long as they are below `2 ^ 32`. -/
theorem numbered_zipIdx {first : Nat} {ps : List Period} (h : first + ps.length ≤ 2 ^ 32) :
    (numbered first ps).map (fun s => (s.period, s.priority.toNat)) = ps.zipIdx first := by
  induction ps generalizing first with
  | nil => rfl
  | cons p ps ih =>
      rw [List.length_cons] at h
      rw [numbered, List.map_cons, List.zipIdx_cons, ih (by omega),
        UInt32.toNat_ofNat_of_lt' (by rw [UInt32.size]; omega)]

/-- **A selection has the nearest periods, numbered from one.**  No position comes twice, and
the first of them are always a run around the current one.  Without a current position
nothing is selected. -/
theorem select_isNearestFirst {periods : List Period} (hsize : periods.length < 2 ^ 32)
    (current count : Nat) :
    (current < periods.length →
      let positions := (byDistance periods.length current).take (min count periods.length)
      (select periods current count).map (fun s => (some s.period, s.priority.toNat))
          = (positions.map (periods[·]?)).zipIdx 1 ∧
        positions.length = min count periods.length ∧ positions.Nodup ∧
        ∀ m, 0 < m → m ≤ positions.length → ∃ low, low ≤ current ∧ current < low + m ∧
          low + m ≤ periods.length ∧ (positions.take m).Perm (List.range' low m)) ∧
    (periods.length ≤ current → select periods current count = []) := by
  constructor
  · intro h positions
    have hall : (byDistance periods.length current).length = periods.length := by
      rw [(byDistance_perm periods.length current).length_eq, List.length_range]
    have hlen : positions.length = min count periods.length := by
      rw [List.length_take, hall]
      omega
    refine ⟨?_, hlen, (byDistance_nodup _ _).sublist (List.take_sublist _ _), ?_⟩
    · have hsome : ((nearestFirst periods current).take count).map some
          = positions.map (periods[·]?) := by
        rw [take_nearestFirst h, List.map_take, nearestFirst_getElem? h, ← List.map_take]
      have hfew : 1 + ((nearestFirst periods current).take count).length ≤ 2 ^ 32 := by
        rw [List.length_take, (nearestFirst_perm h).length_eq]
        omega
      rw [← hsome, List.zipIdx_map, ← numbered_zipIdx hfew, List.map_map, select_eq]
      rfl
    · intro m hpos hm
      rw [hlen] at hm
      rw [List.take_take, Nat.min_eq_left hm]
      exact byDistance_take_perm h hpos (Nat.le_trans hm (Nat.min_le_right _ _))
  · intro h
    have hnone : nearestFirst periods current = [] := by
      simp only [nearestFirst, List.drop_eq_nil_of_le h]
    rw [select_eq, hnone, List.take_nil, numbered]

/-- The third of four periods is the current one, so what follows is used up first. -/
theorem select_isNearestFirst_unevenPeriods :
    unevenPeriods.length < 2 ^ 32 ∧ 2 < unevenPeriods.length ∧
      (select unevenPeriods 2 9).map (fun s => (some s.period, s.priority.toNat))
        = ((byDistance 4 2).map (unevenPeriods[·]?)).zipIdx 1 ∧
      ∃ low, low ≤ 2 ∧ 2 < low + 3 ∧ low + 3 ≤ 4 ∧
        ((byDistance 4 2).take 3).Perm (List.range' low 3) := by
  have hsize : unevenPeriods.length < 2 ^ 32 := by decide
  have hcurrent : 2 < unevenPeriods.length := by decide
  have hall : (byDistance 4 2).take 4 = byDistance 4 2 := by
    rw [List.take_eq_self_iff, (byDistance_perm 4 2).length_eq, List.length_range]
  obtain ⟨hselect, hlen, -, hrun⟩ := (select_isNearestFirst hsize 2 9).1 hcurrent
  obtain ⟨low, hlow, hhigh, hmax, hperm⟩ := hrun 3 (by decide) (by rw [hlen]; decide)
  rw [show min 9 unevenPeriods.length = 4 from rfl, show unevenPeriods.length = 4 from rfl, hall]
    at hselect hperm
  exact ⟨hsize, hcurrent, hselect, low, hlow, hhigh, hmax, hperm⟩

end Almanac.Ranking
