import Mathlib
import Almanac.Json.Reader
import Almanac.Proofs.Decimal.Shortest

/-!
# Written numbers

Every written number is the text of a numeral, and the text of a numeral is scanned back
if something follows that cannot prolong it.  The numeral of an integer has the integer as
its value, as long as that fits into 64 bits.
-/

namespace Almanac.Json

open Text (NoDigit)

/-! ## Numerals and their texts -/

namespace Numeral

def powerText (n : Numeral) : List Char :=
  match n.exponent with
  | none => []
  | some (down, ds) => 'e' :: (if down then '-' else '+') :: ds

def unsigned (n : Numeral) : List Char :=
  n.whole ++ ((if n.fraction.isEmpty then [] else '.' :: n.fraction) ++ n.powerText)

def text (n : Numeral) : List Char := if n.negative then '-' :: n.unsigned else n.unsigned

end Numeral

def IsRow (ds : List Char) : Prop := ds ≠ [] ∧ ∀ c ∈ ds, c.isDigit = true

theorem isRow_digits (n : Nat) : IsRow (Text.digits n) :=
  ⟨Text.digits_ne_nil n, fun _ => Text.isDigit_of_mem_digits⟩

/-- Numerals with digits in all the places where the grammar wants them. -/
structure Numeral.IsSpelled (n : Numeral) : Prop where
  whole : IsRow n.whole
  /-- A zero in front stands alone. -/
  lead : ∀ c cs, n.whole ≠ '0' :: c :: cs
  fraction : ∀ c ∈ n.fraction, c.isDigit = true
  exponent : ∀ p ∈ n.exponent, IsRow p.2

/-! ## Scanning -/

/-- Nothing that would prolong a numeral: no digit, no point and no exponent. -/
def EndsNumeral (rest : List Char) : Prop :=
  NoDigit rest ∧ ∀ c ∈ rest.head?, c ≠ '.' ∧ c ≠ 'e' ∧ c ≠ 'E'

theorem endsNumeral_nil : EndsNumeral [] := ⟨Text.noDigit_nil, by simp⟩

theorem endsNumeral_cons {c : Char} {cs : List Char} (hd : c.isDigit = false) (hp : c ≠ '.')
    (he : c ≠ 'e') (hE : c ≠ 'E') : EndsNumeral (c :: cs) :=
  ⟨Text.noDigit_cons hd, by simp [hp, he, hE]⟩

section

variable {ds rest : List Char}

theorem scanDigits_row (h : IsRow ds) (hr : NoDigit rest) :
    scanDigits (ds ++ rest) = .ok (ds, rest) := by
  obtain ⟨c, cs, he⟩ := List.exists_cons_of_ne_nil h.1
  rw [scanDigits, Text.takeWhile_digits h.2 hr, Text.dropWhile_digits h.2 hr, he]

theorem scanWhole_row (h : IsRow ds) (hlead : ∀ c cs, ds ≠ '0' :: c :: cs) (hr : NoDigit rest) :
    scanWhole (ds ++ rest) = .ok (ds, rest) := by
  rw [scanWhole, scanDigits_row h hr]
  split
  · rename_i heq
    injection heq with heq
    exact absurd (Prod.mk.inj heq).1 (hlead _ _)
  · rfl

theorem scanFraction_end (h : ∀ c ∈ rest.head?, c ≠ '.') : scanFraction rest = .ok ([], rest) := by
  rw [scanFraction.eq_def]
  split
  · exact absurd rfl (h '.' rfl)
  · rfl

theorem scanExponent_end (h : EndsNumeral rest) : scanExponent rest = .ok (none, rest) := by
  rw [scanExponent.eq_def]
  split
  · exact absurd rfl (h.2 'e' rfl).2.1
  · exact absurd rfl (h.2 'E' rfl).2.2
  · rfl

end

namespace Numeral

variable {n : Numeral} {rest : List Char}

/-- The spellings of an exponent: with a small or a capital letter, and with or without a plus
sign. -/
inductive SpellsPower : Option (Bool × List Char) → List Char → Prop where
  | none : SpellsPower none []
  | bare {e : Char} {ds : List Char} (he : e = 'e' ∨ e = 'E') :
      SpellsPower (some (false, ds)) (e :: ds)
  | signed {e : Char} {down : Bool} {ds : List Char} (he : e = 'e' ∨ e = 'E') :
      SpellsPower (some (down, ds)) (e :: (if down then '-' else '+') :: ds)

theorem spellsPower_powerText (n : Numeral) : SpellsPower n.exponent n.powerText := by
  rcases he : n.exponent with _ | ⟨down, ds⟩
  · simp only [powerText, he]
    exact .none
  · simp only [powerText, he]
    exact .signed (.inl rfl)

theorem scanExponent_letter {e : Char} (he : e = 'e' ∨ e = 'E') (cs : List Char) :
    scanExponent (e :: cs) = (scanPower cs).map fun (p, rest) => (some p, rest) := by
  rcases he with rfl | rfl <;> rfl

theorem scanPower_row {ds : List Char} (h : IsRow ds) (hr : NoDigit rest) :
    scanPower (ds ++ rest) = .ok ((false, ds), rest) := by
  obtain ⟨d, ds', rfl⟩ := List.exists_cons_of_ne_nil h.1
  have hd : d.isDigit = true := h.2 d List.mem_cons_self
  have hplus : d ≠ '+' := by
    rintro rfl
    contradiction
  have hminus : d ≠ '-' := by
    rintro rfl
    contradiction
  have hrow := scanDigits_row h hr
  rw [List.cons_append] at hrow ⊢
  rw [scanPower.eq_def]
  split
  · rename_i heq
    exact absurd (List.cons.inj heq).1 hplus
  · rename_i heq
    exact absurd (List.cons.inj heq).1 hminus
  · rw [hrow]
    rfl

theorem scanExponent_spelled {exponent : Option (Bool × List Char)} {power : List Char}
    (h : SpellsPower exponent power) (hrow : ∀ p ∈ exponent, IsRow p.2) (hr : EndsNumeral rest) :
    scanExponent (power ++ rest) = .ok (exponent, rest) := by
  cases h with
  | none => exact scanExponent_end hr
  | bare he =>
      rw [List.cons_append, scanExponent_letter he, scanPower_row (hrow _ rfl) hr.1]
      rfl
  | @signed e down ds he =>
      have hdigits := scanDigits_row (hrow _ rfl) hr.1
      rw [List.cons_append, List.cons_append, scanExponent_letter he]
      cases down with
      | true => simp only [if_true, scanPower, hdigits, Except.map]
      | false => simp only [Bool.false_eq_true, if_false, scanPower, hdigits, Except.map]

/-- Neither an exponent nor the end prolongs the digits in front of it. -/
theorem head_power {exponent : Option (Bool × List Char)} {power : List Char}
    (h : SpellsPower exponent power) (hr : EndsNumeral rest) :
    ∀ c ∈ (power ++ rest).head?, c.isDigit = false ∧ c ≠ '.' := by
  have hletter : ∀ e : Char, e = 'e' ∨ e = 'E' → e.isDigit = false ∧ e ≠ '.' := by
    rintro e (rfl | rfl) <;> decide
  intro c hc
  cases h with
  | none => exact ⟨hr.1 c hc, (hr.2 c hc).1⟩
  | bare he =>
      obtain rfl := Option.some.inj hc
      exact hletter _ he
  | signed he =>
      obtain rfl := Option.some.inj hc
      exact hletter _ he

def fractionText (n : Numeral) : List Char := if n.fraction.isEmpty then [] else '.' :: n.fraction

/-- Whole part and fraction are scanned back, and then it is the exponent's turn. -/
theorem scanNumeral_eq (h : n.IsSpelled) (hr : ∀ c ∈ rest.head?, c.isDigit = false ∧ c ≠ '.') :
    scanNumeral n.negative (n.whole ++ (n.fractionText ++ rest))
      = (scanExponent rest).map fun (e, rest) => (⟨n.negative, n.whole, n.fraction, e⟩, rest) := by
  have hnodigit : NoDigit rest := fun c hc => (hr c hc).1
  obtain ⟨negative, whole, fraction, exponent⟩ := n
  rcases fraction with _ | ⟨d, ds⟩
  · have hfraction := scanFraction_end fun c hc => (hr c hc).2
    have hwhole := scanWhole_row h.whole h.lead hnodigit
    simp only [fractionText, List.isEmpty_nil, if_true, List.nil_append] at *
    simp only [scanNumeral, hwhole, hfraction, bind, Except.bind, pure, Except.pure]
    rcases scanExponent rest with b | result <;> rfl
  · have hrow : IsRow (d :: ds) := ⟨List.cons_ne_nil d ds, h.fraction⟩
    have hfraction := scanDigits_row hrow hnodigit
    have hpoint : NoDigit ('.' :: (d :: ds ++ rest)) := Text.noDigit_cons (by decide)
    have hwhole := scanWhole_row h.whole h.lead hpoint
    simp only [fractionText, List.isEmpty_cons, Bool.false_eq_true, if_false, List.cons_append]
      at *
    simp only [scanNumeral, hwhole, scanFraction, hfraction, bind, Except.bind, pure, Except.pure]
    rcases scanExponent rest with b | result <;> rfl

inductive Spells (n : Numeral) : List Char → Prop where
  | intro {power : List Char} (hn : n.IsSpelled) (h : SpellsPower n.exponent power) :
      Spells n ((if n.negative then ['-'] else []) ++ (n.whole ++ (n.fractionText ++ power)))

/-- **However its exponent is spelled, a numeral is scanned back.** -/
theorem scanNumeral_spelled {power : List Char} (hn : n.IsSpelled)
    (h : SpellsPower n.exponent power) (hr : EndsNumeral rest) :
    scanNumeral n.negative (n.whole ++ (n.fractionText ++ power) ++ rest) = .ok (n, rest) := by
  rw [List.append_assoc, List.append_assoc, scanNumeral_eq hn (head_power h hr),
    scanExponent_spelled h hn.exponent hr]
  rfl

/-- **The text of a numeral is scanned back.** -/
theorem scanNumeral_unsigned (h : n.IsSpelled) (hr : EndsNumeral rest) :
    scanNumeral n.negative (n.unsigned ++ rest) = .ok (n, rest) :=
  scanNumeral_spelled h n.spellsPower_powerText hr

theorem spells_text (h : n.IsSpelled) : n.Spells n.text := by
  have hspells := Spells.intro h n.spellsPower_powerText
  rw [text]
  split
  · rename_i hneg
    rwa [hneg] at hspells
  · rename_i hneg
    rwa [if_neg hneg] at hspells

end Numeral

/-! ## The numeral of an integer -/

def Numeral.ofInt (i : Int) : Numeral := ⟨i < 0, Text.digits i.natAbs, [], none⟩

theorem Numeral.isSpelled_ofInt (i : Int) : (ofInt i).IsSpelled where
  whole := isRow_digits _
  lead := Text.digits_ne_zero_cons _
  fraction := by simp [ofInt]
  exponent := by simp [ofInt]

theorem Numeral.text_ofInt (i : Int) : (ofInt i).text = Text.signed i := by
  simp [text, unsigned, powerText, ofInt, Text.signed]

/-- The integers that are read as integers: those that fit into 64 bits, with or without
a sign. -/
def Number.IsExact : Number → Prop
  | .int i => Int64.minValue.toInt ≤ i ∧ i < UInt64.size
  | .real _ => False

theorem Numeral.absorb_digits {ds : List Char} {acc : Nat}
    (hv : Nat.ofDigitChars 10 ds acc ≤ maxSignificand) :
    absorb acc ds = (Nat.ofDigitChars 10 ds acc, []) := by
  induction ds generalizing acc with
  | nil => simp [absorb]
  | cons d ds ih =>
      rw [Nat.ofDigitChars_cons] at hv ⊢
      have hnext := Nat.le_trans (Text.le_ofDigitChars _ ds) hv
      simp only [absorb]
      rw [if_pos hnext]
      exact ih hv

theorem Numeral.value_whole (negative : Bool) {ds : List Char} (h : Text.valueOf ds ≤ maxSignificand) :
    value ⟨negative, ds, [], none⟩ = .ok (integer negative (Text.valueOf ds)) := by
  have hfit : absorb 0 ds = (Text.valueOf ds, []) := absorb_digits h
  simp only [value, hfit, absorb, List.isEmpty_nil, Bool.and_true, if_true]

theorem Numeral.integer_natAbs {i : Int} (h : (Number.int i).IsExact) :
    integer (i < 0) i.natAbs = .int i := by
  obtain ⟨hlo, -⟩ := h
  have hmin : Int64.minValue.toInt = -9223372036854775808 := by decide
  have hhalf : UInt64.size / 2 = 9223372036854775808 := rfl
  rw [integer]
  by_cases hneg : i < 0
  · rw [decide_eq_true hneg, Bool.not_true, if_neg (by decide), if_neg]
    · congr 1
      omega
    · omega
  · rw [decide_eq_false hneg, Bool.not_false, if_pos rfl]
    congr 1
    omega

theorem Number.IsExact.natAbs_le {i : Int} (h : (Number.int i).IsExact) :
    i.natAbs ≤ Numeral.maxSignificand := by
  obtain ⟨hlo, hhi⟩ := h
  have hmin : Int64.minValue.toInt = -9223372036854775808 := by decide
  have hsize : UInt64.size = 18446744073709551616 := rfl
  have hmax : Numeral.maxSignificand = UInt64.size - 1 := rfl
  omega

/-- **A written integer has its value.** -/
theorem Numeral.value_ofInt {i : Int} (h : (Number.int i).IsExact) :
    (Numeral.ofInt i).value = .ok (.int i) := by
  have hfit : Text.valueOf (Text.digits i.natAbs) ≤ maxSignificand := by
    rw [Text.valueOf_digits]
    exact h.natAbs_le
  have hvalue := value_whole (i < 0) hfit
  rwa [Text.valueOf_digits, integer_natAbs h] at hvalue

/-! ## The numeral of a binary number -/

namespace Numeral

/-- The numeral of a decimal that is written out; its first digit counts `10 ^ first`. -/
def ofPlain (negative : Bool) (ds : List Char) (first : Int) : Numeral :=
  if first < 0 then ⟨negative, ['0'], List.replicate (-first - 1).toNat '0' ++ ds, none⟩
  else
    let whole := first.toNat + 1
    let back := ds.drop whole
    ⟨negative, ds.take whole ++ List.replicate (whole - ds.length) '0',
      if back.isEmpty then ['0'] else back, none⟩

def ofExponent (negative : Bool) (ds : List Char) (first : Int) : Numeral :=
  ⟨negative, ds.take 1, ds.drop 1,
    some (first < 0, Text.padded numberFormat.exponentWidth first.natAbs)⟩

def ofReal (x : Binary64) : Numeral :=
  if x.mantissa = 0 then ⟨x.negative, ['0'], ['0'], none⟩
  else
    let (d, k) := Decimal.Shortest.digits x.mantissa x.exponent
    let ds := Text.digits d
    let first := k + ds.length - 1
    if numberFormat.leastPlain ≤ first ∧ first < numberFormat.firstExponent then
      ofPlain x.negative ds first
    else ofExponent x.negative ds first

/-! ### Its text -/

theorem ofPlain_negative (negative : Bool) (ds : List Char) (first : Int) :
    (ofPlain negative ds first).negative = negative := by
  unfold ofPlain
  split <;> rfl

theorem unsigned_ofPlain (negative : Bool) {ds : List Char} (hne : ds ≠ []) (first : Int) :
    (ofPlain negative ds first).unsigned = Decimal.writePlain ds first := by
  unfold ofPlain Decimal.writePlain
  by_cases hfirst : first < 0
  · rw [if_pos hfirst, if_pos hfirst]
    simp [unsigned, powerText, hne]
  · rw [if_neg hfirst, if_neg hfirst]
    by_cases hback : (ds.drop (first.toNat + 1)).isEmpty
    · simp [unsigned, powerText, hback]
    · simp [unsigned, powerText, hback]

theorem unsigned_ofExponent (negative : Bool) {ds : List Char} (hne : ds ≠ []) (first : Int) :
    (ofExponent negative ds first).unsigned = Decimal.writeExponent numberFormat ds first := by
  obtain ⟨c, cs, rfl⟩ := List.exists_cons_of_ne_nil hne
  rcases cs with _ | ⟨d, ds⟩
  · by_cases hfirst : first < 0 <;>
      simp [ofExponent, unsigned, powerText, Decimal.writeExponent, hfirst]
  · by_cases hfirst : first < 0 <;>
      simp [ofExponent, unsigned, powerText, Decimal.writeExponent, hfirst]

theorem text_ofReal (x : Binary64) : (ofReal x).text = numberFormat.write x := by
  unfold ofReal Decimal.NumberFormat.write
  by_cases hzero : x.mantissa = 0
  · simp [hzero, text, unsigned, powerText]
  · obtain ⟨d, k⟩ := Decimal.Shortest.digits x.mantissa x.exponent
    have hne := Text.digits_ne_nil d
    simp only [if_neg hzero]
    split
    · rw [text, ofPlain_negative, unsigned_ofPlain _ hne]
    · rw [text, unsigned_ofExponent _ hne]
      rfl

/-! ### Its grammar -/

theorem isSpelled_ofPlain (negative : Bool) {d : Nat} {first : Int} (hd : d ≠ 0) :
    (ofPlain negative (Text.digits d) first).IsSpelled := by
  have hdigit : ∀ c ∈ Text.digits d, c.isDigit = true := fun _ => Text.isDigit_of_mem_digits
  have hzeros : ∀ k, ∀ c ∈ List.replicate k '0', c.isDigit = true := by
    intro k c hc
    rw [List.eq_of_mem_replicate hc]
    decide
  unfold ofPlain
  by_cases hfirst : first < 0
  · rw [if_pos hfirst]
    refine ⟨⟨List.cons_ne_nil _ _, by simp⟩, by simp, ?_, by simp⟩
    intro c hc
    rcases List.mem_append.mp hc with hc | hc
    · exact hzeros _ c hc
    · exact hdigit c hc
  · rw [if_neg hfirst]
    -- The first digit of the whole part is that of the number, which is no zero.
    obtain ⟨c, cs, he⟩ := List.exists_cons_of_ne_nil (Text.digits_ne_nil d)
    have hc : c ≠ '0' := by
      rintro rfl
      exact hd (Text.eq_zero_of_digits_eq he)
    refine ⟨⟨by simp [he], ?_⟩, ?_, ?_, by simp⟩
    · intro c hc
      rcases List.mem_append.mp hc with hc | hc
      · exact hdigit c (List.mem_of_mem_take hc)
      · exact hzeros _ c hc
    · intro c' cs' hlead
      simp only [he, List.take_succ_cons, List.cons_append, List.cons.injEq] at hlead
      exact hc hlead.1
    · intro c hc
      simp only at hc
      split at hc
      · exact hzeros 1 c hc
      · exact hdigit c (List.mem_of_mem_drop hc)

theorem isSpelled_ofExponent (negative : Bool) (d : Nat) (first : Int) :
    (ofExponent negative (Text.digits d) first).IsSpelled := by
  have hdigit : ∀ c ∈ Text.digits d, c.isDigit = true := fun _ => Text.isDigit_of_mem_digits
  obtain ⟨c, cs, he⟩ := List.exists_cons_of_ne_nil (Text.digits_ne_nil d)
  refine ⟨⟨by simp [ofExponent, he], fun c hc => hdigit c (List.mem_of_mem_take hc)⟩, ?_,
    fun c hc => hdigit c (List.mem_of_mem_drop hc), ?_⟩
  · simp [ofExponent, he]
  · rintro p hp
    obtain rfl := Option.some.inj hp
    exact ⟨Text.padded_ne_nil _ _, fun _ => Text.isDigit_of_mem_padded⟩

theorem isSpelled_ofReal (x : Binary64) : (ofReal x).IsSpelled := by
  unfold ofReal
  by_cases hzero : x.mantissa = 0
  · rw [if_pos hzero]
    exact ⟨⟨List.cons_ne_nil _ _, by simp⟩, by simp, by simp, by simp⟩
  · rw [if_neg hzero]
    have hlast := Decimal.Shortest.digits_eq_zero (e := x.exponent) (Nat.pos_of_ne_zero hzero)
    generalize Decimal.Shortest.digits x.mantissa x.exponent = result at hlast ⊢
    obtain ⟨d, k⟩ := result
    simp only
    split
    · rename_i hplain
      apply isSpelled_ofPlain
      -- A number without digits is far too small to be written out.
      rintro rfl
      have hk : k = -391 := hlast rfl
      have hone : (Text.digits 0).length = 1 := rfl
      have hleast : numberFormat.leastPlain = -5 := rfl
      rw [hk, hone, hleast] at hplain
      omega
    · exact isSpelled_ofExponent _ d _

end Numeral

/-! ## All numbers -/

def Numeral.of : Number → Numeral
  | .int i => ofInt i
  | .real x => ofReal x

theorem Numeral.isSpelled_of (n : Number) : (Numeral.of n).IsSpelled := by
  cases n with
  | int i => exact isSpelled_ofInt i
  | real x => exact isSpelled_ofReal x

theorem Numeral.text_of (n : Number) : (Numeral.of n).text = n.write := by
  cases n with
  | int i => exact text_ofInt i
  | real x => exact text_ofReal x

end Almanac.Json
