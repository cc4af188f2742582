import Mathlib
import Almanac.Proofs.Ranking.Views
import Almanac.Proofs.Text.Trimming

/-!
# How a tag is spelled

A tag may be written in capital or small letters, with hyphens, spaces or underscores
between its words, and with blanks around it.  Its relation is the same in every spelling,
so a chart with its tags spelled otherwise has the same view but for the tags in it:
`Ranking.rank_of_retagged`.
-/

namespace Almanac

open Ranking

/-! ## Spellings -/

namespace Relation

/-- The characters that may stand between the words of a tag. -/
def IsMark (c : Char) : Prop := c = '-' ∨ c = ' ' ∨ c = '_'

/-- A letter as a capital, as a small letter, or as it stands; only ASCII letters have both
forms. -/
def Recased (c d : Char) : Prop := d = c ∨ d = c.toLower ∨ d = c.toUpper

/-- A character as it stands, or one mark in the place of another. -/
def Remarked (c d : Char) : Prop := d = c ∨ IsMark c ∧ IsMark d

/-- Spellings of one tag. -/
inductive Respelled : List Char → List Char → Prop where
  | letters {tag tag' : List Char} (recased : List.Forall₂ Recased tag tag') :
      Respelled tag tag'
  /-- Marks are exchanged between the first and the last character that is no blank. -/
  | marks {front back middle middle' : List Char} {first last : Char}
      (hfront : Text.IsGap front) (hback : Text.IsGap back)
      (hfirst : Text.isBlank first = false) (hlast : Text.isBlank last = false)
      (remarked : List.Forall₂ Remarked middle middle') :
      Respelled (front ++ (first :: (middle ++ [last]) ++ back))
        (front ++ (first :: (middle' ++ [last]) ++ back))
  | padded {front back : List Char} (hfront : Text.IsGap front) (hback : Text.IsGap back)
      (tag : List Char) : Respelled tag (front ++ (tag ++ back))
  | stripped {front back : List Char} (hfront : Text.IsGap front) (hback : Text.IsGap back)
      (tag : List Char) : Respelled (front ++ (tag ++ back)) tag
  | trans {tag tag' tag'' : List Char} (first : Respelled tag tag')
      (second : Respelled tag' tag'') : Respelled tag tag''

theorem Respelled.refl (tag : List Char) : Respelled tag tag :=
  .letters (List.forall₂_same.mpr fun _ _ => .inl rfl)

/-! ## What the spellings have in common -/

/-- Characters that trimming and evening out do not tell apart. -/
structure LooksLike (c d : Char) : Prop where
  isBlank : Text.isBlank d = Text.isBlank c
  evened : evened d = evened c

theorem toLower_eq_or_capital (c : Char) :
    c.toLower = c ∨ ∃ n < 26, c = Char.ofNat ('A'.toNat + n) := by
  have hA : 'A'.toNat = 65 := rfl
  by_cases h : 65 ≤ c.toNat ∧ c.toNat ≤ 90
  · right
    refine ⟨c.toNat - 65, by omega, ?_⟩
    rw [hA, Nat.add_sub_cancel' h.1, Char.ofNat_toNat]
  · left
    exact dif_neg h

theorem toUpper_eq_or_small (c : Char) :
    c.toUpper = c ∨ ∃ n < 26, c = Char.ofNat ('a'.toNat + n) := by
  have ha : 'a'.toNat = 97 := rfl
  by_cases h : 97 ≤ c.toNat ∧ c.toNat ≤ 122
  · right
    refine ⟨c.toNat - 97, by omega, ?_⟩
    rw [ha, Nat.add_sub_cancel' h.1, Char.ofNat_toNat]
  · left
    exact dif_neg h

theorem looksLike_refl (c : Char) : LooksLike c c := ⟨rfl, rfl⟩

theorem Recased.looksLike {c d : Char} (h : Recased c d) : LooksLike c d := by
  have hcapital : ∀ n < 26, Text.isBlank (Char.ofNat ('A'.toNat + n)).toLower
      = Text.isBlank (Char.ofNat ('A'.toNat + n)) ∧
      Relation.evened (Char.ofNat ('A'.toNat + n)).toLower
        = Relation.evened (Char.ofNat ('A'.toNat + n)) := by
    decide
  have hsmall : ∀ n < 26, Text.isBlank (Char.ofNat ('a'.toNat + n)).toUpper
      = Text.isBlank (Char.ofNat ('a'.toNat + n)) ∧
      Relation.evened (Char.ofNat ('a'.toNat + n)).toUpper
        = Relation.evened (Char.ofNat ('a'.toNat + n)) := by
    decide
  rcases h with rfl | rfl | rfl
  · exact looksLike_refl d
  · rcases toLower_eq_or_capital c with hsame | ⟨n, hn, rfl⟩
    · rw [hsame]
      exact looksLike_refl c
    · exact ⟨(hcapital n hn).1, (hcapital n hn).2⟩
  · rcases toUpper_eq_or_small c with hsame | ⟨n, hn, rfl⟩
    · rw [hsame]
      exact looksLike_refl c
    · exact ⟨(hsmall n hn).1, (hsmall n hn).2⟩

theorem Remarked.evened_eq {c d : Char} (h : Remarked c d) : evened d = evened c := by
  have hmark : ∀ m, IsMark m → evened m = '_' := by
    rintro m (rfl | rfl | rfl) <;> rfl
  rcases h with rfl | ⟨hc, hd⟩
  · rfl
  · rw [hmark c hc, hmark d hd]

theorem map_evened {cs ds : List Char} (h : List.Forall₂ (fun c d => evened d = evened c) cs ds) :
    ds.map evened = cs.map evened := by
  induction h with
  | nil => rfl
  | cons hhead _ ih => rw [List.map_cons, List.map_cons, hhead, ih]

theorem dropWhile_looksLike {cs ds : List Char} (h : List.Forall₂ LooksLike cs ds) :
    List.Forall₂ LooksLike (cs.dropWhile Text.isBlank) (ds.dropWhile Text.isBlank) := by
  induction h with
  | nil => exact .nil
  | @cons c d cs ds hhead htail ih =>
      rw [List.dropWhile_cons, List.dropWhile_cons, hhead.isBlank]
      split
      · exact ih
      · exact .cons hhead htail

theorem trim_looksLike {cs ds : List Char} (h : List.Forall₂ LooksLike cs ds) :
    List.Forall₂ LooksLike (Text.trim cs) (Text.trim ds) := by
  have hstart := List.forall₂_reverse_iff.mpr (dropWhile_looksLike h)
  exact List.forall₂_reverse_iff.mpr (dropWhile_looksLike hstart)

theorem trim_between {front back middle : List Char} {first last : Char}
    (hfront : Text.IsGap front) (hback : Text.IsGap back) (hfirst : Text.isBlank first = false)
    (hlast : Text.isBlank last = false) :
    Text.trim (front ++ (first :: (middle ++ [last]) ++ back)) = first :: (middle ++ [last]) := by
  rw [Text.trim_surround hfront hback]
  apply Text.trim_eq_self
  · intro c hc
    cases hc
    exact hfirst
  · intro c hc
    rw [← List.cons_append, List.getLast?_concat] at hc
    cases hc
    exact hlast

/-- **All spellings of a tag have one form** in which tags are compared. -/
theorem Respelled.canonical {tag tag' : List Char} (h : Respelled tag tag') :
    (Text.trim tag').map evened = (Text.trim tag).map evened := by
  induction h with
  | letters recased =>
      have hlook := trim_looksLike (recased.imp fun _ _ h => h.looksLike)
      exact map_evened (hlook.imp fun _ _ h => h.evened)
  | marks hfront hback hfirst hlast remarked =>
      have hmiddle := map_evened (remarked.imp fun _ _ h => h.evened_eq)
      rw [trim_between hfront hback hfirst hlast, trim_between hfront hback hfirst hlast]
      simp only [List.map_cons, List.map_append, hmiddle]
  | padded hfront hback tag => rw [Text.trim_surround hfront hback]
  | stripped hfront hback tag => rw [Text.trim_surround hfront hback]
  | trans first second ih ih' => exact ih'.trans ih

theorem ofTag_of_respelled {tag tag' : String} (h : Respelled tag.toList tag'.toList) :
    ofTag tag' = ofTag tag := by
  have hcanonical : canonicalTag tag' = canonicalTag tag := by
    rw [canonicalTag, canonicalTag, h.canonical]
  rw [ofTag, ofTag, hcanonical]

end Relation

/-! ## Charts and views -/

/-- Years that differ in the spelling of the tag only. -/
structure SpecialYear.Retagged (y z : SpecialYear) : Prop where
  tag : Relation.Respelled y.relation.toList z.relation.toList
  rest : z = { y with relation := z.relation }

structure Chart.Retagged (chart chart' : Chart) : Prop where
  years : List.Forall₂ SpecialYear.Retagged chart.years chart'.years
  rest : chart' = { chart with years := chart'.years }

structure Ranking.ScoredYear.Retagged (a b : ScoredYear) : Prop where
  tag : Relation.Respelled a.summary.relationTag.toList b.summary.relationTag.toList
  rest : b = { a with summary := { a.summary with relationTag := b.summary.relationTag } }

structure RankedYear.Retagged (y z : RankedYear) : Prop where
  tag : Relation.Respelled y.summary.relationTag.toList z.summary.relationTag.toList
  rest : z = { y with summary := { y.summary with relationTag := z.summary.relationTag } }

structure RankedPeriod.Retagged (p q : RankedPeriod) : Prop where
  years : List.Forall₂ RankedYear.Retagged p.years q.years
  rest : q = { p with years := q.years }

structure View.Retagged (v w : View) : Prop where
  current : v.current.Retagged w.current
  keyPeriods : List.Forall₂ RankedPeriod.Retagged v.keyPeriods w.keyPeriods
  rest : w = { v with current := w.current, keyPeriods := w.keyPeriods }

theorem View.retagged_of_periods {v w : View}
    (hperiods : List.Forall₂ RankedPeriod.Retagged v.periods w.periods)
    (hdate : w.referenceDate = v.referenceDate) (hage : w.nominalAge = v.nominalAge)
    (hpolicy : w.policy = v.policy) : v.Retagged w := by
  obtain ⟨hcurrent, hkey⟩ := List.forall₂_cons.mp hperiods
  refine ⟨hcurrent, hkey, ?_⟩
  rw [← hdate, ← hage, ← hpolicy]

namespace Ranking

/-! ## Through the ranking -/

/-- Lists whose members correspond, and go before each other alike, correspond when they are
sorted. -/
theorem forall₂_mergeSort {α β : Type} {R : α → β → Prop} {le : α → α → Bool} {le' : β → β → Bool}
    (hle : ∀ a a' b b', R a a' → R b b' → le a b = le' a' b') {as : List α} {bs : List β}
    (h : List.Forall₂ R as bs) : List.Forall₂ R (as.mergeSort le) (bs.mergeSort le') := by
  -- The list of pairs is sorted by either of its sides.
  obtain ⟨hlength, hmem⟩ := List.forall₂_iff_zip.mp h
  have hleft : ((as.zip bs).mergeSort fun p q => le p.1 q.1).map Prod.fst = as.mergeSort le := by
    rw [List.map_mergeSort (s := le) fun _ _ _ _ => rfl, List.map_fst_zip hlength.le]
  have hright : ((as.zip bs).mergeSort fun p q => le p.1 q.1).map Prod.snd = bs.mergeSort le' := by
    rw [List.map_mergeSort (s := le'), List.map_snd_zip hlength.ge]
    intro p hp q hq
    exact hle _ _ _ _ (hmem hp) (hmem hq)
  rw [← hleft, ← hright, List.forall₂_map_left_iff, List.forall₂_map_right_iff,
    List.forall₂_same]
  intro p hp
  exact hmem ((List.mergeSort_perm _ _).mem_iff.mp hp)

theorem score_retagged {y z : SpecialYear} (h : y.Retagged z) (priority : UInt32) :
    (score priority y).Retagged (score priority z) where
  tag := h.tag
  rest := by
    have hrelation := Relation.ofTag_of_respelled h.tag
    rw [h.rest] at hrelation ⊢
    simp only [score, summary, hrelation]

theorem before_of_retagged {a a' b b' : ScoredYear} (ha : a.Retagged a') (hb : b.Retagged b') :
    a.before b = a'.before b' := by
  rw [ha.rest, hb.rest]
  rfl

/-- A period keeps the same years in the same order, however their tags are spelled. -/
theorem attach_retagged {years years' : List SpecialYear}
    (h : List.Forall₂ SpecialYear.Retagged years years') (cap : Nat) (stub : Stub) :
    List.Forall₂ ScoredYear.Retagged (attach years cap stub).years
      (attach years' cap stub).years := by
  have howned : List.Forall₂ SpecialYear.Retagged
      (years.filter fun y => y.periodIndex == stub.period.index)
      (years'.filter fun y => y.periodIndex == stub.period.index) := by
    apply List.rel_filter _ h
    intro y z hyz
    rw [hyz.rest]
  have hscored : List.Forall₂ ScoredYear.Retagged
      ((years.filter fun y => y.periodIndex == stub.period.index).map (score stub.priority))
      ((years'.filter fun y => y.periodIndex == stub.period.index).map (score stub.priority)) := by
    refine List.rel_map ?_ howned
    intro y z hyz
    exact score_retagged hyz stub.priority
  apply List.forall₂_take cap
  apply forall₂_mergeSort _ hscored
  intro a a' b b'
  exact before_of_retagged

theorem labelled_retagged {years years' : List SpecialYear}
    (h : List.Forall₂ SpecialYear.Retagged years years') (cap : Nat) (stub : Stub) :
    (attach years cap stub).labelled.Retagged (attach years' cap stub).labelled where
  years := by
    refine List.rel_map ?_ (attach_retagged h cap stub)
    intro a b hab
    refine ⟨hab.tag, ?_⟩
    rw [hab.rest]
    rfl
  rest := rfl

/-- **The spelling of a tag is immaterial**: its relation is the same in every spelling, and a
chart with some of its tags spelled otherwise has the same view but for these tags, or none
for the same reason. -/
theorem rank_of_retagged :
    (∀ tag tag' : String, Relation.Respelled tag.toList tag'.toList →
      Relation.ofTag tag' = Relation.ofTag tag) ∧
    ∀ (chart chart' : Chart) (birth reference : Date) (shape : Shape), chart.Retagged chart' →
      (∃ v v', rank chart birth reference shape = .ok v ∧
        rank chart' birth reference shape = .ok v' ∧ v.Retagged v') ∨
      ∃ e, rank chart birth reference shape = .error e ∧
        rank chart' birth reference shape = .error e := by
  refine ⟨fun _ _ => Relation.ofTag_of_respelled, ?_⟩
  intro chart chart' birth reference shape h
  have hsame : chart'.periods = chart.periods := by rw [h.rest]
  by_cases hperiods : chart.periods = []
  · right
    exact ⟨_, rank_eq_error hperiods birth reference shape,
      rank_eq_error (hsame.trans hperiods) birth reference shape⟩
  · left
    obtain ⟨location, v, hrank, hv⟩ := rank_eq_ok hperiods birth reference shape
    obtain ⟨location', v', hrank', hv'⟩ :=
      rank_eq_ok (hsame.symm ▸ hperiods) birth reference shape
    have hlocated := hv'.located
    rw [hsame, hv.located] at hlocated
    obtain rfl : location = location' := Option.some.inj hlocated
    refine ⟨v, v', hrank, hrank', View.retagged_of_periods ?_ ?_ ?_ ?_⟩
    · rw [hv.periods, hv'.periods, hsame, List.forall₂_map_left_iff, List.forall₂_map_right_iff,
        List.forall₂_same]
      intro stub _
      exact labelled_retagged h.years _ stub
    · rw [hv.referenceDate, hv'.referenceDate]
    · rw [hv.nominalAge, hv'.nominalAge]
    · rw [hv.policy, hv'.policy]

/-- A tag in capitals, with a hyphen and a space in it, between a full-width and a common
space. -/
def looseTag : String := "\u3000TIAN-KE di_chong "

theorem looseTag_respelled :
    Relation.Respelled "tian_ke_di_chong".toList looseTag.toList := by
  have hmarks := @Relation.Respelled.marks [] [] "ian_ke_di_chon".toList "ian-ke di_chon".toList
    't' 'g' (by simp [Text.IsGap]) (by simp [Text.IsGap]) rfl rfl
    (by simp [Relation.Remarked, Relation.IsMark])
  have hletters : Relation.Respelled "tian-ke di_chong".toList "TIAN-KE di_chong".toList :=
    .letters (by simp [Relation.Recased])
  have hpadded := @Relation.Respelled.padded ['\u3000'] [' '] (by simp [Text.IsGap, Text.isBlank])
    (by simp [Text.IsGap, Text.isBlank]) "TIAN-KE di_chong".toList
  exact (hmarks.trans hletters).trans hpadded

/-- The chart with two periods, with a plain tag for the first of its years. -/
def plainlyTagged : Chart :=
  { twoPeriods with years := twoPeriods.years.set 0 ⟨2006, "丙戌", 17, "tian_ke_di_chong", 3, {}⟩ }

def looselyTagged : Chart :=
  { twoPeriods with years := twoPeriods.years.set 0 ⟨2006, "丙戌", 17, looseTag, 3, {}⟩ }

theorem rank_of_retagged_looselyTagged :
    Relation.ofTag looseTag = Relation.ofTag "tian_ke_di_chong" ∧
      ∃ v v', rank plainlyTagged ⟨1990, 5, 15, by decide⟩ ⟨2010, 1, 1, by decide⟩ ⟨2, 2⟩ = .ok v ∧
        rank looselyTagged ⟨1990, 5, 15, by decide⟩ ⟨2010, 1, 1, by decide⟩ ⟨2, 2⟩ = .ok v' ∧
        v.Retagged v' := by
  have hyears : List.Forall₂ SpecialYear.Retagged plainlyTagged.years looselyTagged.years := by
    refine .cons ⟨looseTag_respelled, rfl⟩ (List.forall₂_same.mpr ?_)
    intro y _
    exact ⟨.refl _, rfl⟩
  refine ⟨rank_of_retagged.1 _ _ looseTag_respelled, ?_⟩
  rcases rank_of_retagged.2 plainlyTagged looselyTagged ⟨1990, 5, 15, by decide⟩
    ⟨2010, 1, 1, by decide⟩ ⟨2, 2⟩ ⟨hyears, rfl⟩ with hview | ⟨e, he, -⟩
  · exact hview
  · have hperiods : plainlyTagged.periods ≠ [] := List.cons_ne_nil _ _
    obtain ⟨_, _, hrank, -⟩ := rank_eq_ok hperiods
      ⟨1990, 5, 15, by decide⟩ ⟨2010, 1, 1, by decide⟩ ⟨2, 2⟩
    rw [hrank] at he
    contradiction

end Ranking

end Almanac
