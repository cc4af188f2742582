import Mathlib
import Almanac.Proofs.Json.Numerals
import Almanac.Proofs.Json.Spelling

/-!
# Texts that break off

A written text may be cut off anywhere.  A word or a text between quotes that is cut off is
noticed by its scanner, and so is a numeral that is cut off where a digit has to follow.
Every other beginning of a numeral is a numeral itself, with fewer digits.
-/

namespace Almanac.Json

/-! ## Beginnings -/

def IsCut (cut text : List Char) : Prop := ∃ c rest, text = cut ++ c :: rest

theorem isCut_iff {cut text : List Char} : IsCut cut text ↔ cut <+: text ∧ cut ≠ text := by
  constructor
  · rintro ⟨c, rest, rfl⟩
    exact ⟨List.prefix_append _ _, by simp⟩
  · rintro ⟨⟨left, rfl⟩, hne⟩
    cases left with
    | nil => exact absurd (List.append_nil cut).symm hne
    | cons c rest => exact ⟨c, rest, rfl⟩

theorem not_isCut_nil {cut : List Char} : ¬ IsCut cut [] := by
  rintro ⟨c, rest, h⟩
  simp at h

/-- A text that consists of two parts is cut in the first one, or behind it. -/
theorem IsCut.of_append {cut front back : List Char} (h : IsCut cut (front ++ back)) :
    IsCut cut front ∨ ∃ more, cut = front ++ more ∧ IsCut more back := by
  obtain ⟨c, rest, h⟩ := h
  rcases List.append_eq_append_iff.mp h with ⟨more, rfl, hback⟩ | ⟨left, hfront, hrest⟩
  · exact .inr ⟨more, rfl, c, rest, hback⟩
  · cases left with
    | nil => exact .inr ⟨[], by simpa using hfront.symm, c, rest, hrest.symm⟩
    | cons d ds => exact .inl ⟨d, ds, hfront⟩

theorem IsCut.of_cons {cut cs : List Char} {c : Char} (h : IsCut cut (c :: cs)) :
    cut = [] ∨ ∃ more, cut = c :: more ∧ IsCut more cs := by
  obtain ⟨d, rest, h⟩ := h
  cases cut with
  | nil => exact .inl rfl
  | cons e more =>
      obtain ⟨rfl, rfl⟩ := List.cons.inj h
      exact .inr ⟨more, rfl, d, rest, rfl⟩

theorem IsCut.of_singleton {cut : List Char} {c : Char} (h : IsCut cut [c]) : cut = [] := by
  rcases h.of_cons with rfl | ⟨more, -, hmore⟩
  · rfl
  · exact absurd hmore not_isCut_nil

theorem IsCut.mem {cut text : List Char} (h : IsCut cut text) {c : Char} (hc : c ∈ cut) :
    c ∈ text := by
  obtain ⟨d, rest, rfl⟩ := h
  exact List.mem_append_left _ hc

theorem IsCut.head? {cut text : List Char} (h : IsCut cut text) {c : Char}
    (hc : c ∈ cut.head?) : c ∈ text.head? := by
  obtain ⟨d, rest, rfl⟩ := h
  cases cut with
  | nil => simp at hc
  | cons e more => exact hc

theorem IsCut.endsNumeral {cut text : List Char} (h : IsCut cut text) (hends : EndsNumeral text) :
    EndsNumeral cut :=
  ⟨fun _ hc => hends.1 _ (h.head? hc), fun _ hc => hends.2 _ (h.head? hc)⟩

/-! ## Words and texts -/

theorem scanWord_cut {word cut : List Char} (h : IsCut cut word) :
    scanWord word cut = .error (.endOf .value) := by
  induction word generalizing cut with
  | nil => exact absurd h not_isCut_nil
  | cons w ws ih =>
      rcases h.of_cons with rfl | ⟨more, rfl, hmore⟩
      · rfl
      · rw [scanWord, if_pos rfl]
        exact ih hmore

/-- An escape is not cut off either, if nothing but its end is missing. -/
theorem scanText_shortEscape (acc : List Char) {cs : List Char} (hlen : cs.length < 4)
    (hsize : (String.ofList cs).utf8ByteSize < 4) :
    scanText (.plain acc) ('\\' :: 'u' :: cs) = .error (.both (.endOf .text)) := by
  rw [scanText.eq_4, if_pos hsize]
  · rfl
  · rintro a b c d rest rfl
    simp at hlen
    omega

/-- A text cannot break off in the middle of a written character without being noticed. -/
theorem scanText_cut_writeChar {c : Char} {cut : List Char} (h : IsCut cut (writeChar c))
    (acc : List Char) : scanText (.plain acc) cut = .error (.both (.endOf .text)) := by
  have hletter : ∀ {l : Char}, IsCut cut ['\\', l] →
      scanText (.plain acc) cut = .error (.both (.endOf .text)) := by
    intro l h
    rcases h.of_cons with rfl | ⟨more, rfl, hmore⟩
    · rfl
    · rw [hmore.of_singleton]
      rfl
  revert h
  fun_cases writeChar c with
  | case1 => exact hletter
  | case2 => exact hletter
  | case3 => exact hletter
  | case4 => exact hletter
  | case5 => exact hletter
  | case6 => exact hletter
  | case7 => exact hletter
  | case8 c _ _ _ _ _ _ _ hlow =>
      intro h
      have hhigh : Nat.digitChar (c.toNat / 16) = '0' ∨ Nat.digitChar (c.toNat / 16) = '1' := by
        have htwo : ∀ m < 2, Nat.digitChar m = '0' ∨ Nat.digitChar m = '1' := by decide
        exact htwo _ (by omega)
      rcases h.of_cons with rfl | ⟨_, rfl, hmark⟩
      · rfl
      rcases hmark.of_cons with rfl | ⟨_, rfl, hfirst⟩
      · rfl
      -- None, one, two or three of the four digits are left.
      rcases hfirst.of_cons with rfl | ⟨_, rfl, hsecond⟩
      · exact scanText_shortEscape acc (by decide) (by decide)
      rcases hsecond.of_cons with rfl | ⟨_, rfl, hthird⟩
      · exact scanText_shortEscape acc (by decide) (by decide)
      rcases hthird.of_cons with rfl | ⟨_, rfl, hfourth⟩
      · exact scanText_shortEscape acc (by decide) (by decide)
      rw [hfourth.of_singleton]
      rcases hhigh with he | he <;> rw [he]
      · exact scanText_shortEscape acc (by decide) (by decide)
      · exact scanText_shortEscape acc (by decide) (by decide)
  | case9 =>
      intro h
      rw [h.of_singleton]
      rfl

/-- **A text that breaks off before its closing quote is noticed.** -/
theorem scanText_cut {cs cut : List Char} (h : IsCut cut (cs.flatMap writeChar ++ ['"']))
    (acc : List Char) : scanText (.plain acc) cut = .error (.both (.endOf .text)) := by
  induction cs generalizing cut acc with
  | nil =>
      rw [h.of_singleton]
      rfl
  | cons c cs ih =>
      rw [List.flatMap_cons, List.append_assoc] at h
      rcases h.of_append with hchar | ⟨more, rfl, hmore⟩
      · exact scanText_cut_writeChar hchar acc
      · rw [scanText_writeChar]
        exact ih hmore (c :: acc)

/-! ## Numerals -/

namespace Numeral

/-- What is left of a numeral whose text is cut off and still is that of a numeral. -/
inductive Shortened (n : Numeral) : Numeral → Prop where
  | whole {ds : List Char} (hne : ds ≠ []) (h : IsCut ds n.whole) :
      Shortened n ⟨n.negative, ds, [], none⟩
  | fraction {ds : List Char} (h : IsCut ds n.fraction) :
      Shortened n ⟨n.negative, n.whole, ds, none⟩
  | noExponent (h : n.exponent ≠ none) : Shortened n ⟨n.negative, n.whole, n.fraction, none⟩
  | exponent {down : Bool} {ds ds' : List Char} (hexponent : n.exponent = some (down, ds))
      (hne : ds' ≠ []) (h : IsCut ds' ds) :
      Shortened n ⟨n.negative, n.whole, n.fraction, some (down, ds')⟩

variable {n : Numeral} {cut : List Char}

/-- What the scanner says of a text in which a numeral is cut off. -/
def ScansCut (n : Numeral) (result : Except Break (Numeral × List Char)) : Prop :=
  (∃ b, result = .error b ∧ b.read.isEnd = true) ∨ ∃ n', n.Shortened n' ∧ result = .ok (n', [])

theorem isRow_of_isCut {ds ds' : List Char} (hd : ∀ c ∈ ds, c.isDigit = true) (h : IsCut ds' ds)
    (hne : ds' ≠ []) : IsRow ds' := ⟨hne, fun _ hc => hd _ (h.mem hc)⟩

theorem lead_of_isCut (h : n.IsSpelled) {ds : List Char} (hcut : IsCut ds n.whole) (c : Char)
    (cs : List Char) : ds ≠ '0' :: c :: cs := by
  rintro rfl
  obtain ⟨d, rest, he⟩ := hcut
  exact h.lead _ _ he

theorem Shortened.isSpelled {n' : Numeral} (hn : n.IsSpelled) (h : n.Shortened n') :
    n'.IsSpelled := by
  cases h with
  | whole hne h => exact ⟨isRow_of_isCut hn.whole.2 h hne, lead_of_isCut hn h, by simp, by simp⟩
  | fraction h => exact ⟨hn.whole, hn.lead, fun _ hc => hn.fraction _ (h.mem hc), by simp⟩
  | noExponent h => exact ⟨hn.whole, hn.lead, hn.fraction, by simp⟩
  | exponent hexponent hne h =>
      refine ⟨hn.whole, hn.lead, hn.fraction, ?_⟩
      rintro p hp
      obtain rfl := Option.some.inj hp
      exact isRow_of_isCut (hn.exponent _ hexponent).2 h hne

theorem Shortened.scansCut {n' : Numeral} (hn : n.IsSpelled) (h : n.Shortened n')
    (hsign : n'.negative = n.negative) (htext : cut = n'.unsigned) :
    ScansCut n (scanNumeral n.negative cut) := by
  have hscan := scanNumeral_unsigned (h.isSpelled hn) endsNumeral_nil
  rw [List.append_nil, hsign, ← htext] at hscan
  exact .inr ⟨n', h, hscan⟩

theorem ScansCut.missing (n : Numeral) : ScansCut n (.error (missingDigit [])) :=
  .inl ⟨_, rfl, rfl⟩

theorem scanNumeral_cut_power (hn : n.IsSpelled) (h : IsCut cut n.powerText) :
    ScansCut n (scanNumeral n.negative (n.whole ++ (n.fractionText ++ cut))) := by
  rcases he : n.exponent with _ | ⟨down, ds⟩
  · simp only [powerText, he] at h
    exact absurd h not_isCut_nil
  simp only [powerText, he] at h
  -- As long as no digit of the exponent is there, what is left is either no exponent or none yet.
  rcases h.of_cons with rfl | ⟨_, rfl, hsign⟩
  · have hshort : n.Shortened ⟨n.negative, n.whole, n.fraction, none⟩ := .noExponent (by simp [he])
    refine hshort.scansCut hn rfl ?_
    simp [unsigned, fractionText, powerText]
  rcases hsign.of_cons with rfl | ⟨_, rfl, hdigits⟩
  · rw [scanNumeral_eq hn (by simp)]
    exact .missing n
  rename_i ds'
  rcases eq_or_ne ds' [] with rfl | hne
  · rw [scanNumeral_eq hn (by simp)]
    cases down with
    | true => exact .missing n
    | false => exact .missing n
  · have hshort := Shortened.exponent he hne hdigits
    refine hshort.scansCut hn rfl ?_
    simp [unsigned, fractionText, powerText]

theorem scanNumeral_cut_fraction (hn : n.IsSpelled) (h : IsCut cut n.fractionText) :
    ScansCut n (scanNumeral n.negative (n.whole ++ cut)) := by
  by_cases hempty : n.fraction.isEmpty
  · rw [fractionText, if_pos hempty] at h
    exact absurd h not_isCut_nil
  rw [fractionText, if_neg hempty] at h
  rcases h.of_cons with rfl | ⟨ds, rfl, hdigits⟩
  · have hcut : IsCut [] n.fraction := by
      obtain ⟨c, cs, he⟩ := List.exists_cons_of_ne_nil (by simpa using hempty)
      exact ⟨c, cs, he⟩
    refine (Shortened.fraction hcut).scansCut hn rfl ?_
    simp [unsigned, powerText]
  rcases eq_or_ne ds [] with rfl | hne
  · have hpoint : Text.NoDigit ['.'] := Text.noDigit_cons (by decide)
    have hwhole := scanWhole_row hn.whole hn.lead hpoint
    simp only [scanNumeral, hwhole, bind, Except.bind]
    exact .missing n
  · refine (Shortened.fraction hdigits).scansCut hn rfl ?_
    simp [unsigned, powerText, hne]

/-- **A numeral that breaks off is noticed, or it is read as a shorter numeral.** -/
theorem scanNumeral_cut (hn : n.IsSpelled) (h : IsCut cut n.unsigned) :
    ScansCut n (scanNumeral n.negative cut) := by
  rcases h.of_append with hwhole | ⟨more, rfl, hmore⟩
  · rcases eq_or_ne cut [] with rfl | hne
    · exact .missing n
    · refine (Shortened.whole hne hwhole).scansCut hn rfl ?_
      simp [unsigned, powerText]
  rcases hmore.of_append with hfraction | ⟨left, rfl, hpower⟩
  · exact scanNumeral_cut_fraction hn hfraction
  · exact scanNumeral_cut_power hn hpower

/-- What is left of the digits of an integer is an integer between it and zero. -/
theorem Shortened.value_ofInt {i : Int} (hi : (Number.int i).IsExact) {n' : Numeral}
    (h : (ofInt i).Shortened n') :
    ∃ i', n'.value = .ok (.int i') ∧ (0 ≤ i' ∧ i' ≤ i ∨ i ≤ i' ∧ i' ≤ 0) := by
  cases h with
  | fraction hcut => exact absurd hcut not_isCut_nil
  | noExponent h => exact absurd rfl h
  | exponent he => exact absurd he.symm (Option.some_ne_none _)
  | @whole ds hne hcut =>
      obtain ⟨c, rest, hdigits⟩ := hcut
      change Text.digits i.natAbs = ds ++ c :: rest at hdigits
      have hle : Text.valueOf ds ≤ i.natAbs := by
        rw [← Text.valueOf_digits i.natAbs, hdigits]
        exact Text.valueOf_le_append ds (c :: rest)
      have hvalue := value_whole (i < 0) (Nat.le_trans hle hi.natAbs_le)
      have hmin : Int64.minValue.toInt ≤ 0 := by decide
      have hlo : Int64.minValue.toInt ≤ i := hi.1
      have hhi : i < UInt64.size := hi.2
      by_cases hneg : i < 0
      · -- The first digit is none of a zero, so the sign is still that of a number below zero.
        have hpos : 0 < Text.valueOf ds := by
          obtain ⟨d, ds', rfl⟩ := List.exists_cons_of_ne_nil hne
          apply Text.valueOf_pos (Text.isDigit_of_mem_digits (n := i.natAbs) (by simp [hdigits]))
          rintro rfl
          have := Text.eq_zero_of_digits_eq hdigits
          omega
        have hexact : (Number.int (-(Text.valueOf ds : Int))).IsExact := ⟨by omega, by omega⟩
        have hint := integer_natAbs hexact
        have hsign : decide (-(Text.valueOf ds : Int) < 0) = decide (i < 0) :=
          decide_eq_decide.mpr ⟨fun _ => hneg, fun _ => by omega⟩
        rw [Int.natAbs_neg, Int.natAbs_natCast, hsign] at hint
        rw [hint] at hvalue
        exact ⟨_, hvalue, .inr ⟨by omega, by omega⟩⟩
      · have hexact : (Number.int (Text.valueOf ds : Int)).IsExact := ⟨by omega, by omega⟩
        have hint := integer_natAbs hexact
        have hsign : decide ((Text.valueOf ds : Int) < 0) = decide (i < 0) :=
          decide_eq_decide.mpr ⟨fun _ => by omega, fun _ => by omega⟩
        rw [Int.natAbs_natCast, hsign] at hint
        rw [hint] at hvalue
        exact ⟨_, hvalue, .inl ⟨by omega, by omega⟩⟩

end Numeral

end Almanac.Json
