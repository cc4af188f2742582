import Mathlib
import Almanac.Calendar.Date
import Almanac.Proofs.Text.Digits
import Almanac.Proofs.Text.Trimming

/-!
# The text of a date

A date is spelled by its year, its month and its day with hyphens between them.  What
spells a date is read as that date, whatever a reader lets pass between the fields, and the
text written for a date spells it.  The fields are read one after another, so each scanner
is followed here from a spelled field to what stands behind it.
-/

namespace Almanac

open Text (NoDigit IsGap)

namespace Text

theorem isBlank_of_isDigit {c : Char} (h : c.isDigit = true) : isBlank c = false := by
  simp only [Char.isDigit, Bool.and_eq_true, decide_eq_true_eq] at h
  have lo : 48 ≤ c.toNat := h.1
  have hi : c.toNat ≤ 57 := h.2
  simp only [isBlank, Bool.or_eq_false_iff, Bool.and_eq_false_iff, decide_eq_false_iff_not,
    beq_eq_false_iff_ne]
  omega

theorem trimStart_cons {c : Char} {cs : List Char} (h : isBlank c = false) :
    trimStart (c :: cs) = c :: cs := by
  simp [trimStart, h]

end Text

namespace Calendar

/-! ## What spells a field -/

/-- A row of digits that spells a number, of at most `width` digits if there is a width. -/
structure SpellsNumber (width : Option Nat) (n : Nat) (ds : List Char) : Prop where
  isDigit : ∀ c ∈ ds, c.isDigit = true
  ne_nil : ds ≠ []
  length_le : ∀ w, width = some w → ds.length ≤ w
  value : Text.valueOf ds = n

/-- A year has up to four digits, or any number of them after a sign. -/
inductive SpellsYear : Int → List Char → Prop where
  | plain {n : Nat} {ds : List Char} (h : SpellsNumber (some 4) n ds) : SpellsYear n ds
  | plus {n : Nat} {ds : List Char} (h : SpellsNumber none n ds) : SpellsYear n ('+' :: ds)
  | minus {n : Nat} {ds : List Char} (h : SpellsNumber none n ds) : SpellsYear (-n) ('-' :: ds)

/-- Year, month and day with hyphens between them.  Blanks may stand before the month and
before the day. -/
inductive SpellsDate (y : Int) (m d : Nat) : List Char → Prop where
  | mk {ys gap ms gap' ds : List Char} (year : SpellsYear y ys) (before : IsGap gap)
      (month : SpellsNumber (some 2) m ms) (between : IsGap gap')
      (day : SpellsNumber (some 2) d ds) :
      SpellsDate y m d (ys ++ '-' :: (gap ++ (ms ++ '-' :: (gap' ++ ds))))

theorem spellsNumber_padded {width : Option Nat} (w n : Nat)
    (hw : ∀ v, width = some v → (Text.padded w n).length ≤ v) :
    SpellsNumber width n (Text.padded w n) :=
  ⟨fun _ => Text.isDigit_of_mem_padded, Text.padded_ne_nil w n, hw, Text.valueOf_padded w n⟩

theorem spellsNumber_two {n : Nat} (h : n < 100) :
    SpellsNumber (some 2) n (Text.padded 2 n) := by
  apply spellsNumber_padded
  rintro v ⟨⟩
  exact Nat.le_of_eq (Text.length_padded (Text.length_digits_le_two h))

theorem SpellsNumber.exists_cons {width : Option Nat} {n : Nat} {ds : List Char}
    (h : SpellsNumber width n ds) : ∃ c cs, ds = c :: cs ∧ c.isDigit = true := by
  obtain ⟨c, cs, rfl⟩ := List.exists_cons_of_ne_nil h.ne_nil
  exact ⟨c, cs, rfl, h.isDigit c List.mem_cons_self⟩

theorem SpellsNumber.trimStart {width : Option Nat} {n : Nat} {ds : List Char}
    (h : SpellsNumber width n ds) (rest : List Char) :
    Text.trimStart (ds ++ rest) = ds ++ rest := by
  obtain ⟨c, cs, rfl, hc⟩ := h.exists_cons
  exact Text.trimStart_cons (Text.isBlank_of_isDigit hc)

theorem SpellsYear.exists_cons {y : Int} {ys : List Char} (h : SpellsYear y ys) :
    ∃ c cs, ys = c :: cs ∧ Text.isBlank c = false := by
  cases h with
  | plain h =>
      obtain ⟨c, cs, rfl, hc⟩ := h.exists_cons
      exact ⟨c, cs, rfl, Text.isBlank_of_isDigit hc⟩
  | plus h => exact ⟨_, _, rfl, by decide⟩
  | minus h => exact ⟨_, _, rfl, by decide⟩

theorem SpellsDate.trim {y : Int} {m d : Nat} {cs : List Char} (h : SpellsDate y m d cs) :
    Text.trim cs = cs := by
  obtain ⟨year, -, -, -, day⟩ := h
  rename_i ys gap ms gap' ds
  apply Text.trim_eq_self
  · obtain ⟨c, cs, rfl, hc⟩ := year.exists_cons
    rintro d ⟨⟩
    exact hc
  · have hsplit : ys ++ '-' :: (gap ++ (ms ++ '-' :: (gap' ++ ds)))
        = (ys ++ '-' :: (gap ++ (ms ++ '-' :: gap'))) ++ ds := by simp
    rw [hsplit, List.getLast?_append_of_ne_nil _ day.ne_nil]
    intro c hc
    exact Text.isBlank_of_isDigit (day.isDigit c (List.mem_of_mem_getLast? hc))

namespace Scan

/-! ## Reading a field -/

/-- A field of at most `width` digits is read up to its end: nothing more is taken
because the field is full, or because no digit follows. -/
theorem digits_row {ds rest : List Char} (hd : ∀ c ∈ ds, c.isDigit = true) {width : Option Nat}
    (hw : ∀ w, width = some w → ds.length ≤ w) (hend : width = some ds.length ∨ NoDigit rest)
    {acc : Nat} (hv : Nat.ofDigitChars 10 ds acc ≤ fieldLimit) :
    digits width acc (ds ++ rest) = .ok (Nat.ofDigitChars 10 ds acc, rest) := by
  induction ds generalizing width acc with
  | nil =>
      by_cases hfull : width = some 0
      · rw [hfull]
        simp [digits]
      · cases rest with
        | nil => simp [digits]
        | cons c cs =>
            have hc : c.isDigit = false := by
              rcases hend with h | h
              · exact absurd h hfull
              · exact h c rfl
            rw [List.nil_append, digits.eq_3 _ _ _ _ (fun h => hfull h)]
            simp [hc]
  | cons d ds ih =>
      have hdig : d.isDigit = true := hd d (by simp)
      rw [Nat.ofDigitChars_cons] at hv ⊢
      have hnext : 10 * acc + (d.toNat - '0'.toNat) ≤ fieldLimit :=
        Nat.le_trans (Text.le_ofDigitChars _ ds) hv
      -- There is room for this digit, and for the others in the room that is left.
      have hfull : width ≠ some 0 := by
        intro h
        have := hw 0 h
        simp at this
      have hw' : ∀ w, width.map (· - 1) = some w → ds.length ≤ w := by
        intro w h
        obtain ⟨v, rfl, rfl⟩ := Option.map_eq_some_iff.mp h
        have := hw v rfl
        simp only [List.length_cons] at this
        omega
      have hend' : width.map (· - 1) = some ds.length ∨ NoDigit rest := by
        rcases hend with rfl | h
        · exact .inl (by simp)
        · exact .inr h
      rw [List.cons_append, digits.eq_3 _ _ _ _ (fun h => hfull h)]
      simp only [hdig, hnext, if_true]
      exact ih (fun c hc => hd c (by simp [hc])) hw' hend' hv

theorem number_row {ds rest : List Char} {width : Option Nat} {n : Nat}
    (h : SpellsNumber width n ds) (hend : width = some ds.length ∨ NoDigit rest)
    (hn : n ≤ fieldLimit) : number width (ds ++ rest) = .ok (n, rest) := by
  obtain ⟨c, cs, rfl, hc⟩ := h.exists_cons
  rw [← h.value] at hn ⊢
  rw [List.cons_append, number, if_pos hc, ← List.cons_append]
  exact digits_row h.isDigit h.length_le hend hn

theorem twoDigits_row {gap ds rest : List Char} {n : Nat} (hgap : IsGap gap)
    (h : SpellsNumber (some 2) n ds) (hend : ds.length = 2 ∨ NoDigit rest)
    (hn : n ≤ fieldLimit) : twoDigits (gap ++ (ds ++ rest)) = .ok (n, rest) := by
  rw [twoDigits, Text.trimStart_gap hgap, h.trimStart]
  exact number_row h (hend.imp_left fun hlen => by rw [hlen]) hn

theorem twoDigits_padded {n : Nat} (h : n < 100) (rest : List Char) :
    twoDigits (Text.padded 2 n ++ rest) = .ok (n, rest) :=
  twoDigits_row Text.isGap_nil (spellsNumber_two h)
    (.inl (Text.length_padded (Text.length_digits_le_two h)))
    (Nat.le_trans (Nat.le_of_lt h) (by decide))

theorem year_unsigned {c : Char} (hc : c.isDigit = true) (cs : List Char) :
    Scan.year (c :: cs) = (number (some 4) (c :: cs)).map fun (n, cs) => ((n : Int), cs) := by
  rw [Scan.year, Text.trimStart_cons (Text.isBlank_of_isDigit hc)]
  split
  · rename_i heq
    obtain ⟨rfl, -⟩ := List.cons.inj heq
    exact absurd hc (by decide)
  · rename_i heq
    obtain ⟨rfl, -⟩ := List.cons.inj heq
    exact absurd hc (by decide)
  · rfl

theorem year_row {y : Int} {ys rest : List Char} (h : SpellsYear y ys)
    (hy : y.natAbs ≤ fieldLimit) (hrest : NoDigit rest) :
    Scan.year (ys ++ rest) = .ok (y, rest) := by
  cases h with
  | plain h =>
      obtain ⟨c, cs, rfl, hc⟩ := h.exists_cons
      rw [List.cons_append, year_unsigned hc, ← List.cons_append,
        number_row h (.inr hrest) (by omega)]
      rfl
  | plus h =>
      rw [List.cons_append, Scan.year, Text.trimStart_cons (by decide)]
      simp only [number_row h (.inr hrest) (by omega), Except.map]
  | minus h =>
      rw [List.cons_append, Scan.year, Text.trimStart_cons (by decide)]
      simp only [number_row h (.inr hrest) (by omega), Except.map]

end Scan

end Calendar

namespace Date

open Calendar Calendar.Scan

/-! ## Reading a date -/

/-- What a reader lets pass between two fields: nothing in front of a mark, and nothing
at the end of a text. -/
structure Gap (gap : List Char → List Char) : Prop where
  mark : ∀ c cs, Text.isBlank c = false → gap (c :: cs) = c :: cs
  nil : gap [] = []

theorem gap_trimStart : Gap Text.trimStart := ⟨fun _ _ h => Text.trimStart_cons h, rfl⟩

/-- A date that a person types may have nothing before a hyphen. -/
theorem gap_id : Gap id := ⟨fun _ _ _ => rfl, rfl⟩

theorem lt_of_daysInMonth {y : Int} {m d : Nat} (h : d ≤ daysInMonth y m) : d ≤ 31 := by
  apply Nat.le_trans h
  unfold daysInMonth
  split
  · split <;> decide
  · split <;> decide

/-- **What spells a date is read as that date.** -/
theorem read_of_spelling {gap : List Char → List Char} (hgap : Gap gap) {y : Int} {m d : Nat}
    {cs : List Char} (h : SpellsDate y m d cs) (hdate : IsDate y m d) :
    read gap cs = .ok ⟨y, m, d, hdate⟩ := by
  obtain ⟨⟨hlo, hhi⟩, ⟨hm, hm'⟩, hd, hd'⟩ := hdate
  obtain ⟨year, before, month, between, day⟩ := h
  rename_i ys blanks ms blanks' ds
  have h31 := lt_of_daysInMonth hd'
  have hlimit : 262143 ≤ fieldLimit := by decide
  have hyears : y.natAbs ≤ fieldLimit := by
    simp only [minYear, maxYear] at hlo hhi
    omega
  have hyear : yearField y = .ok () :=
    if_pos ⟨Int.le_trans (by decide) hlo, Int.le_trans hhi (by decide)⟩
  have hmonth : within 1 12 m = .ok () := if_pos ⟨by omega, by omega⟩
  have hday : within 1 31 d = .ok () := if_pos ⟨by omega, by omega⟩
  have hyphen : ∀ cs, gap ('-' :: cs) = '-' :: cs := fun cs => hgap.mark '-' cs (by decide)
  have hmark : ∀ cs, NoDigit ('-' :: cs) := fun cs => Text.noDigit_cons (by decide)
  have hlast := twoDigits_row between day (.inr Text.noDigit_nil) (by omega)
  rw [List.append_nil] at hlast
  have fields : scan gap (ys ++ '-' :: (blanks ++ (ms ++ '-' :: (blanks' ++ ds))))
      = .ok (y, m, d, []) := by
    simp only [scan, year_row year hyears (hmark _), bind, Except.bind, hyear, hyphen, Scan.mark,
      if_true, twoDigits_row before month (.inr (hmark _)) (by omega), hmonth, hlast, hday,
      hgap.nil, pure, Except.pure]
  have hthere : ofFields? y m d = some ⟨y, m, d, _⟩ := dif_pos ⟨⟨hlo, hhi⟩, ⟨hm, hm'⟩, hd, hd'⟩
  simp only [read, fields, bind, Except.bind, Scan.finish, hthere, pure, Except.pure]

theorem parse?_of_spelling {y : Int} {m d : Nat} {front cs back : List Char}
    (h : SpellsDate y m d cs) (hdate : IsDate y m d) (hfront : IsGap front) (hback : IsGap back) :
    parse? (.ofList (front ++ (cs ++ back))) = .ok ⟨y, m, d, hdate⟩ := by
  rw [parse?, String.toList_ofList, Text.trim_surround hfront hback, h.trim]
  exact read_of_spelling gap_id h hdate

/-! ## The written text -/

theorem spells_writeYear (y : Int) : SpellsYear y (writeYear y) := by
  have signed : SpellsNumber none y.natAbs (Text.padded 4 y.natAbs) :=
    spellsNumber_padded 4 _ (by simp)
  unfold writeYear
  split
  · have hminus := SpellsYear.minus signed
    rwa [show -(y.natAbs : Int) = y by omega] at hminus
  · split
    · have hplus := SpellsYear.plus signed
      rwa [show (y.natAbs : Int) = y by omega] at hplus
    -- Without a sign, there are four digits.
    · have hlen : (Text.padded 4 y.natAbs).length = 4 :=
        Text.length_padded (Text.length_digits_le_four (by omega))
      have hplain := SpellsYear.plain (spellsNumber_padded 4 y.natAbs
        (by rintro v ⟨⟩; exact Nat.le_of_eq hlen))
      rwa [show (y.natAbs : Int) = y by omega] at hplain

theorem spells_write (d : Date) : SpellsDate d.year d.month d.day d.write := by
  obtain ⟨-, ⟨hm, hm'⟩, hd, hd'⟩ := d.isDate
  have h31 := lt_of_daysInMonth hd'
  have hspells := SpellsDate.mk (spells_writeYear d.year) Text.isGap_nil
    (spellsNumber_two (n := d.month) (by omega)) Text.isGap_nil (spellsNumber_two (n := d.day) (by omega))
  rw [write]
  simpa using hspells

/-- **A written date is read back.** -/
theorem read_write {gap : List Char → List Char} (hgap : Gap gap) (d : Date) :
    read gap d.write = .ok d := read_of_spelling hgap d.spells_write d.isDate

theorem ofDocument?_text (d : Date) : ofDocument? d.text = .ok d := by
  rw [ofDocument?, text, String.toList_ofList]
  exact read_write gap_trimStart d

theorem parse?_surround {front back : List Char} (hfront : IsGap front) (hback : IsGap back)
    (d : Date) : parse? (.ofList (front ++ (d.write ++ back))) = .ok d :=
  parse?_of_spelling d.spells_write d.isDate hfront hback

theorem parse?_text (d : Date) : parse? d.text = .ok d := by
  simpa [text] using parse?_surround Text.isGap_nil Text.isGap_nil d

end Date

end Almanac
