import Mathlib
import Almanac.Proofs.Calendar.DateText

/-!
# The texts that are read as dates

A text that a person types is read as a date exactly if it spells one that is in the
calendar, with blanks around it or without.  The calendar is that of the standard library,
cut to the years that can be stored.  So whatever text a date was read from, the text
written for it has the form of written dates and is read as the same date by both readers:
`Date.text_readsBack`.
-/

namespace Almanac

open Text (NoDigit IsGap)

namespace Calendar

theorem bind_eq_ok_iff {α β : Type} {x : Except Fault α} {f : α → Except Fault β} {b : β} :
    x >>= f = .ok b ↔ ∃ a, x = .ok a ∧ f a = .ok b := by
  cases x with
  | error e => simp [bind, Except.bind]
  | ok a => simp [bind, Except.bind]

theorem map_eq_ok_iff {α β : Type} {x : Except Fault α} {f : α → β} {b : β} :
    x.map f = .ok b ↔ ∃ a, x = .ok a ∧ f a = b := by
  cases x with
  | error e => simp [Except.map]
  | ok a => simp [Except.map]

namespace Scan

/-! ## What was read of a field -/

/-- The digits that were taken.  None is left that could have been taken too. -/
theorem digits_sound {width : Option Nat} {acc n : Nat} {cs rest : List Char}
    (h : digits width acc cs = .ok (n, rest)) :
    ∃ ds, (∀ c ∈ ds, c.isDigit = true) ∧ (∀ w, width = some w → ds.length ≤ w) ∧
      Nat.ofDigitChars 10 ds acc = n ∧ cs = ds ++ rest ∧
      (width = some ds.length ∨ NoDigit rest) := by
  fun_induction digits width acc cs with
  | case1 acc cs =>
      cases h
      exact ⟨[], by simp, by simp, by simp, rfl, .inl rfl⟩
  | case2 width acc =>
      cases h
      exact ⟨[], by simp, by simp, by simp, rfl, .inr Text.noDigit_nil⟩
  | case3 width acc c cs hwidth hc next hnext ih =>
      obtain ⟨ds, hdigits, hlength, hvalue, rfl, hend⟩ := ih h
      have hpos : ∀ w, width = some w → 0 < w := by
        rintro w rfl
        exact Nat.pos_of_ne_zero fun hw => hwidth (congrArg some hw)
      refine ⟨c :: ds, List.forall_mem_cons.mpr ⟨hc, hdigits⟩, ?_, ?_, rfl, ?_⟩
      · rintro w rfl
        have hroom := hlength (w - 1) rfl
        have := hpos w rfl
        rw [List.length_cons]
        omega
      · rwa [Nat.ofDigitChars_cons]
      · refine hend.imp_left fun hfull => ?_
        obtain ⟨w, rfl, hw⟩ := Option.map_eq_some_iff.mp hfull
        have := hpos w rfl
        rw [List.length_cons, ← hw]
        congr 1
        omega
  | case4 width acc c cs hwidth hc next hnext => contradiction
  | case5 width acc c cs hwidth hc =>
      cases h
      exact ⟨[], by simp, by simp, by simp, rfl,
        .inr (Text.noDigit_cons (Bool.not_eq_true _ ▸ hc))⟩

theorem number_sound {width : Option Nat} {n : Nat} {cs rest : List Char}
    (hwidth : width ≠ some 0) (h : number width cs = .ok (n, rest)) :
    ∃ ds, SpellsNumber width n ds ∧ cs = ds ++ rest := by
  cases cs with
  | nil => contradiction
  | cons c cs =>
      by_cases hc : c.isDigit = true
      · rw [number, if_pos hc] at h
        obtain ⟨ds, hdigits, hlength, hvalue, hcs, hend⟩ := digits_sound h
        refine ⟨ds, ⟨hdigits, ?_, hlength, hvalue⟩, hcs⟩
        -- The first digit was there to be taken.
        rintro rfl
        rcases hend with hfull | hnone
        · exact hwidth hfull
        · rw [List.nil_append] at hcs
          rw [← hcs] at hnone
          exact absurd hc (by rw [hnone c rfl]; decide)
      · rw [number, if_neg hc] at h
        contradiction

theorem map_number_sound {width : Option Nat} (f : Nat → Int) {y : Int} {cs rest : List Char}
    (hwidth : width ≠ some 0)
    (h : ((number width cs).map fun (n, r) => (f n, r)) = .ok (y, rest)) :
    ∃ n ds, SpellsNumber width n ds ∧ y = f n ∧ cs = ds ++ rest := by
  obtain ⟨⟨n, r⟩, hnumber, hpair⟩ := map_eq_ok_iff.mp h
  cases hpair
  obtain ⟨ds, hds, hcs⟩ := number_sound hwidth hnumber
  exact ⟨n, ds, hds, rfl, hcs⟩

theorem twoDigits_sound {n : Nat} {cs rest : List Char} (h : twoDigits cs = .ok (n, rest)) :
    ∃ gap ds, IsGap gap ∧ SpellsNumber (some 2) n ds ∧ cs = gap ++ (ds ++ rest) := by
  obtain ⟨gap, hgap, hcs⟩ := Text.exists_gap cs
  obtain ⟨ds, hds, hrest⟩ := number_sound (by simp) h
  exact ⟨gap, ds, hgap, hds, by rw [← hrest, ← hcs]⟩

theorem year_sound {y : Int} {cs rest : List Char} (h : Scan.year cs = .ok (y, rest)) :
    ∃ gap ys, IsGap gap ∧ SpellsYear y ys ∧ cs = gap ++ (ys ++ rest) := by
  obtain ⟨gap, hgap, hcs⟩ := Text.exists_gap cs
  rw [Scan.year] at h
  split at h
  · rename_i htrim
    obtain ⟨n, ds, hds, rfl, rfl⟩ := map_number_sound (fun n => -(n : Int)) (by simp) h
    exact ⟨gap, _, hgap, .minus hds, by rw [hcs, htrim, List.cons_append]⟩
  · rename_i htrim
    obtain ⟨n, ds, hds, rfl, rfl⟩ := map_number_sound Nat.cast (by simp) h
    exact ⟨gap, _, hgap, .plus hds, by rw [hcs, htrim, List.cons_append]⟩
  · obtain ⟨n, ds, hds, rfl, hrest⟩ := map_number_sound Nat.cast (by simp) h
    exact ⟨gap, _, hgap, .plain hds, by rw [← hrest, ← hcs]⟩

theorem mark_sound {c : Char} {cs rest : List Char} (h : Scan.mark c cs = .ok rest) :
    cs = c :: rest := by
  cases cs with
  | nil => contradiction
  | cons d cs =>
      rw [Scan.mark] at h
      split at h
      · rename_i hd
        cases h
        rw [hd]
      · contradiction

theorem finish_sound {cs : List Char} {u : Unit} (h : finish cs = .ok u) : cs = [] := by
  cases cs with
  | nil => rfl
  | cons c cs => contradiction

end Scan

end Calendar

/-! ## The calendar -/

theorem isLeapYear_eq (y : Std.Time.Year.Offset) : isLeapYear y.toInt = y.isLeap := by
  have hmod (k : Int) : y.toInt.tmod k = 0 ↔ y.toInt % k = 0 := by
    rw [← Int.dvd_iff_tmod_eq_zero, ← Int.dvd_iff_emod_eq_zero]
  rw [Bool.eq_iff_iff]
  simp only [isLeapYear, Std.Time.Year.Offset.isLeap, Bool.and_eq_true, Bool.or_eq_true,
    beq_iff_eq, bne_iff_ne, decide_eq_true_eq, ne_eq, hmod]

theorem daysInMonth_eq (y : Std.Time.Year.Offset) (m : Std.Time.Month.Ordinal) :
    (daysInMonth y.toInt m.val.toNat : Int) = (m.days y.isLeap).val := by
  rw [daysInMonth, isLeapYear_eq]
  obtain ⟨m, hm, hm'⟩ := m
  interval_cases m <;> cases y.isLeap <;> rfl

/-- The dates are those of the standard library with a year that can be stored. -/
theorem isDate_iff {y : Int} {m d : Nat} : IsDate y m d ↔ (-262143 ≤ y ∧ y ≤ 262142) ∧
    ∃ p : Std.Time.PlainDate, p.year.toInt = y ∧ p.month.val = m ∧ p.day.val = d := by
  constructor
  · rintro ⟨hyear, ⟨hm, hm'⟩, hd, hd'⟩
    have h31 := Date.lt_of_daysInMonth hd'
    let month : Std.Time.Month.Ordinal := ⟨m, by omega, by omega⟩
    let day : Std.Time.Day.Ordinal := ⟨d, by omega, by omega⟩
    have hvalid : Std.Time.Year.Offset.Valid y month day := by
      show (d : Int) ≤ (month.days _).val
      rw [← daysInMonth_eq y month]
      exact Int.ofNat_le.mpr hd'
    exact ⟨hyear, ⟨y, month, day, hvalid⟩, rfl, rfl, rfl⟩
  · rintro ⟨hyear, p, rfl, hm, hd⟩
    have hmonth := p.month.property
    have hday := p.day.property
    have hdays : (p.day.val : Int) ≤ (p.month.days p.year.isLeap).val := p.valid
    rw [← daysInMonth_eq, hm, hd] at hdays
    rw [hm] at hmonth
    rw [hd] at hday
    exact ⟨hyear, ⟨by omega, by omega⟩, by omega, by simpa using hdays⟩

namespace Date

open Calendar Calendar.Scan

/-! ## What was read of a date -/

theorem fields_of_ofFields? {y : Int} {m d : Nat} {date : Date}
    (h : ofFields? y m d = some date) : date.year = y ∧ date.month = m ∧ date.day = d := by
  rw [ofFields?] at h
  split at h
  · cases h
    exact ⟨rfl, rfl, rfl⟩
  · contradiction

/-- The three fields that were read spell a date, after blanks. -/
theorem scan_sound {cs rest : List Char} {y : Int} {m d : Nat}
    (h : scan id cs = .ok (y, m, d, rest)) :
    ∃ front core, IsGap front ∧ SpellsDate y m d core ∧ cs = front ++ (core ++ rest) := by
  simp only [scan, bind_eq_ok_iff, pure, Except.pure, Except.ok.injEq, id_eq, Prod.exists,
    Prod.mk.injEq] at h
  obtain ⟨y, cs₁, hyear, -, -, cs₂, hmark, m, cs₃, hmonth, -, -, cs₄, hmark', d, cs₅, hday, -, -,
    rfl, rfl, rfl, rfl⟩ := h
  obtain ⟨front, ys, hfront, hys, rfl⟩ := year_sound hyear
  obtain rfl := mark_sound hmark
  obtain ⟨before, ms, hbefore, hms, rfl⟩ := twoDigits_sound hmonth
  obtain rfl := mark_sound hmark'
  obtain ⟨between, ds, hbetween, hds, rfl⟩ := twoDigits_sound hday
  exact ⟨front, _, hfront, .mk hys hbefore hms hbetween hds, by simp⟩

theorem read_sound {cs : List Char} {date : Date} (h : read id cs = .ok date) :
    ∃ front core, IsGap front ∧ SpellsDate date.year date.month date.day core ∧
      cs = front ++ core := by
  simp only [read, bind_eq_ok_iff, Prod.exists] at h
  obtain ⟨y, m, d, rest, hscan, _, hfinish, hfields⟩ := h
  obtain rfl := finish_sound hfinish
  split at hfields
  · rename_i there hthere
    cases hfields
    obtain ⟨rfl, rfl, rfl⟩ := fields_of_ofFields? hthere
    obtain ⟨front, core, hfront, hcore, rfl⟩ := scan_sound hscan
    exact ⟨front, core, hfront, hcore, by rw [List.append_nil]⟩
  · contradiction

/-- A text that spells a date, with blanks around it or without. -/
inductive Typed (y : Int) (m d : Nat) : List Char → Prop where
  | mk {front core back : List Char} (before : IsGap front) (spells : SpellsDate y m d core)
      (after : IsGap back) : Typed y m d (front ++ (core ++ back))

/-- **A person's text is read as a date exactly if it spells one that exists.** -/
theorem parse?_eq_ok_iff {s : String} {y : Int} {m d : Nat} :
    (∃ date, parse? s = .ok date ∧ date.year = y ∧ date.month = m ∧ date.day = d) ↔
      Typed y m d s.toList ∧ IsDate y m d := by
  constructor
  · rintro ⟨date, hread, rfl, rfl, rfl⟩
    obtain ⟨front, back, hfront, hback, hs⟩ := Text.exists_gaps s.toList
    obtain ⟨gap, core, hgap, hcore, htrim⟩ := read_sound hread
    refine ⟨?_, date.isDate⟩
    rw [hs, htrim, List.append_assoc, ← List.append_assoc]
    exact .mk (hfront.append hgap) hcore hback
  · rintro ⟨htyped, hdate⟩
    generalize hs : s.toList = cs at htyped
    obtain ⟨hfront, hcore, hback⟩ := htyped
    have hread := parse?_of_spelling hcore hdate hfront hback
    rw [← hs, String.ofList_toList] at hread
    exact ⟨_, hread, rfl, rfl, rfl⟩

example : parse? "1990-02-30" = .error .outOfRange := rfl

/-! ## The form of written dates -/

/-- How dates are written: the year in four digits, or in more if it needs them, with a
sign outside 0 to 9999; month and day in two digits. -/
inductive IsWritten (y : Int) (m d : Nat) : List Char → Prop where
  | mk {ys ms ds : List Char} (year : SpellsNumber none y.natAbs ys) (enough : 4 ≤ ys.length)
      (noMore : 4 < ys.length → ys.head? ≠ some '0') (month : SpellsNumber (some 2) m ms)
      (month_length : ms.length = 2) (day : SpellsNumber (some 2) d ds)
      (day_length : ds.length = 2) :
      IsWritten y m d ((if y < 0 then ['-'] else if 9999 < y then ['+'] else [])
        ++ (ys ++ '-' :: (ms ++ '-' :: ds)))

theorem writeYear_eq (y : Int) : writeYear y
    = (if y < 0 then ['-'] else if 9999 < y then ['+'] else []) ++ Text.padded 4 y.natAbs := by
  unfold writeYear
  split
  · rfl
  · split <;> rfl

theorem isWritten_write (d : Date) : IsWritten d.year d.month d.day d.write := by
  obtain ⟨-, ⟨hm, hm'⟩, hd, hd'⟩ := d.isDate
  have h31 := lt_of_daysInMonth hd'
  have htwo : ∀ {n : Nat}, n < 100 → (Text.padded 2 n).length = 2 := fun h =>
    Text.length_padded (Text.length_digits_le_two h)
  have hwritten := IsWritten.mk (y := d.year) (spellsNumber_padded 4 d.year.natAbs (by simp))
    (Text.le_length_padded 4 _) (Text.head?_padded (by decide))
    (spellsNumber_two (n := d.month) (by omega)) (htwo (by omega))
    (spellsNumber_two (n := d.day) (by omega)) (htwo (by omega))
  rw [write, writeYear_eq]
  simpa using hwritten

/-- **The text of a date is read back as that date**, by the reader of documents, and by the
reader of what persons type whatever blanks stand around it.  A typed text is read exactly
if it spells a date of the calendar, so the text written for what was read is read as the
same date again. -/
theorem text_readsBack :
    (∀ d : Date, IsWritten d.year d.month d.day d.text.toList ∧ ofDocument? d.text = .ok d ∧
      ∀ front back, IsGap front → IsGap back →
        parse? (.ofList (front ++ (d.text.toList ++ back))) = .ok d) ∧
    (∀ y m d, IsDate y m d ↔ (-262143 ≤ y ∧ y ≤ 262142) ∧
      ∃ p : Std.Time.PlainDate, p.year.toInt = y ∧ p.month.val = m ∧ p.day.val = d) ∧
    (∀ s y m d, (∃ date, parse? s = .ok date ∧ date.year = y ∧ date.month = m ∧ date.day = d) ↔
      Typed y m d s.toList ∧ IsDate y m d) ∧
    ∀ s d, parse? s = .ok d → parse? d.text = .ok d ∧ ofDocument? d.text = .ok d := by
  refine ⟨?_, fun y m d => isDate_iff, fun s y m d => parse?_eq_ok_iff, ?_⟩
  · intro d
    rw [text, String.toList_ofList]
    exact ⟨d.isWritten_write, d.ofDocument?_text, fun front back hfront hback =>
      parse?_surround hfront hback d⟩
  · intro s d _
    exact ⟨d.parse?_text, d.ofDocument?_text⟩

def earlyLeapDay : Date := ⟨-4, 2, 29, by decide⟩

def lateDay : Date := ⟨12345, 6, 7, by decide⟩

theorem text_readsBack_farYears :
    earlyLeapDay.text = "-0004-02-29" ∧
      parse? (.ofList (['\u3000'] ++ (earlyLeapDay.text.toList ++ ['\n']))) = .ok earlyLeapDay ∧
      parse? " +012345- 6-7" = .ok lateDay ∧ lateDay.text = "+12345-06-07" ∧
      parse? lateDay.text = .ok lateDay ∧ ofDocument? lateDay.text = .ok lateDay := by
  have hblank : ∀ c, Text.isBlank c = true → IsGap [c] := fun c hc =>
    List.forall_mem_singleton.mpr hc
  have hread : parse? " +012345- 6-7" = .ok lateDay := by rfl
  refine ⟨by decide, ?_, hread, by decide, text_readsBack.2.2.2 _ _ hread⟩
  exact (text_readsBack.1 earlyLeapDay).2.2 _ _ (hblank _ (by decide)) (hblank _ (by decide))

end Date

end Almanac
