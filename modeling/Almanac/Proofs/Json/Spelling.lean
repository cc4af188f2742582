import Mathlib
import Almanac.Json.Reader

/-!
# Written texts

The text between two quotes is scanned back character by character: every escape that
is ever written stands for the character that it was written for.
-/

namespace Almanac.Json

/-- What has been read of a text without surrogate escapes. -/
def TextState.plain (chars : List Char) : TextState := ⟨chars, none, none⟩

theorem TextState.push_plain (cs : List Char) (c : Char) :
    (plain cs).push c = plain (c :: cs) := rfl

theorem TextState.unit_plain (cs : List Char) {n : Nat} (h : n < 0xD800) :
    (plain cs).unit n = plain (Char.ofNat n :: cs) := by
  simp only [unit, plain]
  rw [if_neg (by omega), if_neg (by omega)]

theorem TextState.close_plain (cs : List Char) :
    (plain cs).close = .ok (String.ofList cs.reverse) := rfl

theorem hexValue?_control : ∀ n < 0x20,
    hexValue? '0' '0' (Nat.digitChar (n / 16)) (Nat.digitChar (n % 16)) = some n := by
  decide

theorem scanText_letter {l c : Char} (h : plainEscape? l = some c) (acc cs : List Char) :
    scanText (.plain acc) ('\\' :: l :: cs) = scanText (.plain (c :: acc)) cs := by
  have hu : l ≠ 'u' := by
    rintro rfl
    simp [plainEscape?] at h
  rw [scanText.eq_def]
  split
  case h_7 hno heq =>
      obtain ⟨rfl, rfl⟩ := List.cons.inj heq
      exact (hno _ _ rfl rfl).elim
  all_goals simp_all [TextState.push_plain]

theorem scanText_self {c : Char} (hquote : c ≠ '"') (hslash : c ≠ '\\') (h : ¬c.toNat < 0x20)
    (acc cs : List Char) : scanText (.plain acc) (c :: cs) = scanText (.plain (c :: acc)) cs := by
  rw [scanText.eq_def]
  split
  case h_7 heq =>
      obtain ⟨rfl, rfl⟩ := List.cons.inj heq
      rw [if_neg h, TextState.push_plain]
  all_goals simp_all

/-- **A written character is scanned back**, as one character more of the text. -/
theorem scanText_writeChar (acc : List Char) (c : Char) (rest : List Char) :
    scanText (.plain acc) (writeChar c ++ rest) = scanText (.plain (c :: acc)) rest := by
  fun_cases writeChar c with
  | case1 => exact scanText_letter rfl acc rest
  | case2 => exact scanText_letter rfl acc rest
  | case3 => exact scanText_letter rfl acc rest
  | case4 => exact scanText_letter rfl acc rest
  | case5 => exact scanText_letter rfl acc rest
  | case6 => exact scanText_letter rfl acc rest
  | case7 => exact scanText_letter rfl acc rest
  | case8 c _ _ _ _ _ _ _ hlow =>
      simp only [List.cons_append, List.nil_append]
      rw [scanText, hexValue?_control c.toNat hlow]
      simp only
      rw [TextState.unit_plain acc (by omega), Char.ofNat_toNat]
  | case9 c hquote hslash _ _ _ _ _ hhigh =>
      exact scanText_self hquote hslash hhigh acc rest

theorem scanText_chars (acc cs rest : List Char) :
    scanText (.plain acc) (cs.flatMap writeChar ++ '"' :: rest)
      = .ok (.ok (String.ofList (acc.reverse ++ cs)), rest) := by
  induction cs generalizing acc with
  | nil => simp [scanText, TextState.close_plain]
  | cons c cs ih =>
      rw [List.flatMap_cons, List.append_assoc, scanText_writeChar, ih]
      simp

theorem scanText_text (s : String) (rest : List Char) :
    scanText .start (s.toList.flatMap writeChar ++ '"' :: rest) = .ok (.ok s, rest) := by
  have := scanText_chars [] s.toList rest
  rwa [List.reverse_nil, List.nil_append, String.ofList_toList] at this

end Almanac.Json
