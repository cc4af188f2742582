import Mathlib
import Almanac.Proofs.Ranking.Retention
import Almanac.Proofs.Ranking.StableSort

/-!
# A period keeps its most important years

Among the years of a period the relation decides first, then the calendar year, and at last
the place in the chart.  No two entries are equal in this order, so it determines what is
kept and what is dropped: `Ranking.attach_keeps_best`.  The priority of the period plays no
part in it, as long as no composite priority overflows.
-/

namespace Almanac.Ranking

/-- An entry is more important than another of its period. -/
def Entry.Precedes (a b : Entry) : Prop :=
  (Relation.ofTag a.1.relation).priority < (Relation.ofTag b.1.relation).priority ∨
    (Relation.ofTag a.1.relation).priority = (Relation.ofTag b.1.relation).priority ∧
      (a.1.year < b.1.year ∨ a.1.year = b.1.year ∧ a.2 < b.2)

/-- What a scored year takes from a year of the chart, and its priorities. -/
structure ScoredYear.Carries (priority : UInt32) (s : ScoredYear) (y : SpecialYear) : Prop where
  year : s.summary.year = y.year
  label : s.summary.label = y.label
  age : s.summary.age = y.age
  periodIndex : s.summary.periodIndex = y.periodIndex
  relation : s.summary.relation = Relation.ofTag y.relation
  relationTag : s.summary.relationTag = y.relation
  notes : s.summary.notes = y.detail.notes
  typePriority : s.typePriority = (Relation.ofTag y.relation).priority
  compositePriority : s.compositePriority.toNat
    = priority.toNat * 100 + (Relation.ofTag y.relation).priority.toNat

def Stub.Fits (stub : Stub) (years : List SpecialYear) : Prop :=
  ∀ y ∈ years, y.periodIndex = stub.period.index →
    stub.priority.toNat * 100 + (Relation.ofTag y.relation).priority.toNat < 2 ^ 32

section

variable {years : List SpecialYear} {cap : Nat} {stub : Stub} {e : Entry}

theorem Stub.Fits.toNat_compositePriority (h : stub.Fits years)
    (he : e ∈ owned years stub.period.index) :
    (score stub.priority e.1).compositePriority.toNat
      = stub.priority.toNat * 100 + (Relation.ofTag e.1.relation).priority.toNat := by
  obtain ⟨hmem, hindex⟩ := mem_owned.mp he
  rw [compositePriority_score]
  exact toNat_compositePriority_of_lt (h e.1 (List.fst_mem_of_mem_zipIdx hmem) hindex)

theorem carries_score (h : stub.Fits years) (he : e ∈ owned years stub.period.index) :
    (score stub.priority e.1).Carries stub.priority e.1 where
  year := rfl
  label := rfl
  age := rfl
  periodIndex := rfl
  relation := by simp only [score, summary]
  relationTag := rfl
  notes := rfl
  typePriority := typePriority_score stub.priority e.1
  compositePriority := h.toNat_compositePriority he

/-! ## Ties -/

theorem owned_ascending (years : List SpecialYear) (index : UInt32) :
    (owned years index).Pairwise fun a b => a.2 < b.2 := by
  have hall : (years.zipIdx.map (·.2)).Pairwise (· < ·) := by
    rw [List.zipIdx_map_snd]
    exact List.pairwise_lt_range'
  exact (List.pairwise_map.mp hall).sublist List.filter_sublist

theorem rankedEntries_ties (years : List SpecialYear) (stub : Stub) :
    (rankedEntries years stub).Pairwise fun a b =>
      (score stub.priority a.1).before (score stub.priority b.1) = true →
        (score stub.priority b.1).before (score stub.priority a.1) = true → a.2 < b.2 := by
  have htotal : ∀ a b : Entry, ((score stub.priority a.1).before (score stub.priority b.1)
      || (score stub.priority b.1).before (score stub.priority a.1)) = true :=
    fun a b => ScoredYear.before_total _ _
  have hfilter : ∀ a, ((rankedEntries years stub).filter (StableSort.ties (fun a b : Entry =>
      (score stub.priority a.1).before (score stub.priority b.1)) a)).Pairwise
        fun a b => a.2 < b.2 := by
    intro a
    rw [rankedEntries, StableSort.filter_mergeSort_ties htotal
      fun a b c => ScoredYear.before_trans _ _ _]
    exact (owned_ascending years _).sublist List.filter_sublist
  apply (StableSort.pairwise_of_filter_ties htotal hfilter).imp
  exact fun h hab hba => h (StableSort.ties_iff.mpr ⟨hab, hba⟩)

/-- **The entries of a period are ranked by importance.** -/
theorem rankedEntries_precedes (h : stub.Fits years) :
    (rankedEntries years stub).Pairwise Entry.Precedes := by
  have hboth := (rankedEntries_sorted years stub).and (rankedEntries_ties years stub)
  apply hboth.imp_of_mem
  rintro a b ha hb ⟨hbefore, hties⟩
  have hka := h.toNat_compositePriority ((rankedEntries_perm years stub).mem_iff.mp ha)
  have hkb := h.toNat_compositePriority ((rankedEntries_perm years stub).mem_iff.mp hb)
  simp only [ScoredYear.before_iff, hka, hkb] at hbefore hties
  unfold Entry.Precedes
  rw [UInt32.lt_iff_toNat_lt, ← UInt32.toNat_inj, Int32.lt_iff_toInt_lt, ← Int32.toInt_inj]
  have hyear : ∀ y : SpecialYear, (score stub.priority y).summary.year = y.year := fun _ => rfl
  simp only [hyear] at hbefore hties
  omega

end

/-- **A period keeps exactly the best of its years.**  What it keeps and what it drops are
together the years of the period, each once, in the order of importance; it drops nothing
before the cap is reached, and says of every kept year what the chart says. -/
theorem attach_keeps_best {years : List SpecialYear} {stub : Stub} (h : stub.Fits years)
    (cap : Nat) :
    (attach years cap stub).stub = stub ∧
      (attach years cap stub).years.length = min cap (owned years stub.period.index).length ∧
      ∃ kept dropped : List Entry,
        (kept ++ dropped).Perm (owned years stub.period.index) ∧
        (kept ++ dropped).Pairwise Entry.Precedes ∧
        List.Forall₂ (fun s e => s.Carries stub.priority e.1)
          (attach years cap stub).years kept := by
  refine ⟨rfl, ?_, kept years cap stub, (rankedEntries years stub).drop cap, ?_, ?_, ?_⟩
  · rw [attach_years, List.length_map, length_kept, length_owned]
  · rw [kept, List.take_append_drop]
    exact rankedEntries_perm years stub
  · rw [kept, List.take_append_drop]
    exact rankedEntries_precedes h
  · rw [attach_years, List.forall₂_map_left_iff, List.forall₂_same]
    intro e he
    exact carries_score h (mem_owned_of_mem_kept he)

/-- Years that tie, one of them of another period, and years before the first. -/
def tiedYears : List SpecialYear :=
  [⟨7, "丁卯", 12, "combination", 3, {}⟩, ⟨-5, "乙卯", 1, "Clash", 3, { notes := ["冲月柱"] }⟩,
    ⟨-6, "甲寅", 0, "clash", 8, {}⟩, ⟨-5, "乙卯", 1, " clash", 3, {}⟩,
    ⟨-9, "辛亥", 0, "combination", 3, {}⟩]

/-- A period of the greatest priority that does not make composite priorities overflow. -/
def farStub : Stub := ⟨⟨3, "癸未", 2005, 2014, 16, 25, "正印"⟩, 42949672⟩

theorem attach_keeps_best_tiedYears :
    farStub.Fits tiedYears ∧ (attach tiedYears 1 farStub).stub = farStub ∧
      (attach tiedYears 1 farStub).years.length = min 1 (owned tiedYears 3).length ∧
      ∃ kept dropped : List Entry, (kept ++ dropped).Perm (owned tiedYears 3) ∧
        (kept ++ dropped).Pairwise Entry.Precedes ∧
        List.Forall₂ (fun s e => s.Carries farStub.priority e.1)
          (attach tiedYears 1 farStub).years kept := by
  have hfits : farStub.Fits tiedYears := by
    unfold Stub.Fits
    decide +kernel
  exact ⟨hfits, attach_keeps_best hfits 1⟩

end Almanac.Ranking
