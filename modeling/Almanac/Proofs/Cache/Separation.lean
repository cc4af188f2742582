import Mathlib
import Almanac.Proofs.Cache.Key
import Almanac.Proofs.Profile.Normalized

/-!
# What a key tells apart

The text behind a key is a row of parts with bars between them, and no part has a bar in it,
so the text gives back its parts.  These say everything that a chart and its view depend on
and nothing else: two requests share an entry exactly when they ask for the same birth, to
the minute, in the same shape.
-/

namespace Almanac

/-! ## Bytes of a text -/

namespace Text

theorem bytes_loop (bytes : ByteArray) (i : Nat) (acc : List UInt8) :
    ByteArray.toList.loop bytes i acc = acc.reverse ++ bytes.data.toList.drop i := by
  fun_induction ByteArray.toList.loop bytes i acc with
  | case1 i acc hi ih =>
      have hlt : i < bytes.data.toList.length := by simpa using hi
      have hget : bytes.get! i = bytes.data.toList[i] := by
        rw [ByteArray.get!]
        exact getElem!_pos bytes.data i hi
      rw [ih, List.drop_eq_getElem_cons hlt, List.reverse_cons, hget, List.append_assoc,
        List.singleton_append]
  | case2 i acc hi =>
      have hle : bytes.data.toList.length ≤ i := by simpa using hi
      rw [List.drop_eq_nil_of_le hle, List.append_nil]

/-- The loop of `ByteArray.toList` lists the bytes of the array. -/
theorem toList_bytes (bytes : ByteArray) : bytes.toList = bytes.data.toList :=
  bytes_loop bytes 0 []

theorem toUTF8_toList_injective : Function.Injective fun s : String => s.toUTF8.toList := by
  intro s t h
  have hdata : s.toUTF8.data.toList = t.toUTF8.data.toList := by
    simpa only [toList_bytes] using h
  exact String.toByteArray_inj.mp (ByteArray.ext (Array.toList_inj.mp hdata))

end Text

namespace Cache

open Text (toUTF8_toList_injective)

variable {p q : Profile} {r s : Ranking.Shape}

/-! ## The parts of a key text -/

/-- The parts between the bars: those of the profile, and the two numbers of the shape. -/
def keyParts (p : Profile) (r : Ranking.Shape) : List (List Char) :=
  p.parts ++ ["periods=".toList ++ Text.digits r.periodCount.toNat,
    "cap=".toList ++ Text.digits r.yearsPerPeriod.toNat]

theorem toList_keyText (p : Profile) (r : Ranking.Shape) :
    (keyText p r).toList = ['|'].intercalate (keyParts p r) := by
  simp [keyText, keyParts, Profile.toList_normalized, Profile.parts, Text.toList_decimal]

theorem bar_notMem_keyParts (p : Profile) (r : Ranking.Shape) :
    ∀ part ∈ keyParts p r, '|' ∉ part := by
  have hnumber (n : Nat) : '|' ∉ Text.digits n := fun h => by
    simpa using Text.isDigit_of_mem_digits h
  intro part hpart
  rcases List.mem_append.mp hpart with hpart | hpart
  · exact p.bar_notMem_parts part hpart
  · simp only [List.mem_cons, List.not_mem_nil, or_false] at hpart
    rcases hpart with rfl | rfl
    · simp [hnumber]
    · simp [hnumber]

theorem keyParts_ne_nil (p : Profile) (r : Ranking.Shape) : keyParts p r ≠ [] := by
  simp [keyParts]

theorem splitOn_keyText (p : Profile) (r : Ranking.Shape) :
    (keyText p r).toList.splitOn '|' = keyParts p r := by
  rw [toList_keyText]
  exact List.splitOn_intercalate '|' (bar_notMem_keyParts p r) (keyParts_ne_nil p r)

/-! ## Requests with one key -/

/-- What two requests for one entry have in common. -/
structure SameEntry (p : Profile) (r : Ranking.Shape) (q : Profile) (s : Ranking.Shape) :
    Prop where
  profile : p.Agrees q
  periodCount : r.periodCount = s.periodCount
  yearsPerPeriod : r.yearsPerPeriod = s.yearsPerPeriod

theorem keyParts_eq_iff : keyParts p r = keyParts q s ↔ SameEntry p r q s := by
  have hcounts (m n : UInt64) : Text.digits m.toNat = Text.digits n.toNat ↔ m = n := by
    rw [Text.digits_injective.eq_iff, UInt64.toNat_inj]
  have hlength : p.parts.length = q.parts.length := rfl
  constructor
  · intro h
    obtain ⟨hprofile, hshape⟩ := List.append_inj h hlength
    simp only [List.cons.injEq, List.append_cancel_left_eq, hcounts, and_true] at hshape
    exact ⟨Profile.parts_eq_iff.mp hprofile, hshape.1, hshape.2⟩
  · rintro ⟨hprofile, hperiods, hyears⟩
    rw [keyParts, keyParts, Profile.parts_eq_iff.mpr hprofile, hperiods, hyears]

theorem keyText_eq_iff : keyText p r = keyText q s ↔ SameEntry p r q s := by
  rw [← keyParts_eq_iff]
  constructor
  · intro h
    rw [← splitOn_keyText, ← splitOn_keyText, h]
  · intro h
    rw [← String.toList_inj, toList_keyText, toList_keyText, h]

def digested (p : Profile) (r : Ranking.Shape) : List UInt8 := (keyText p r).toUTF8.toList

theorem digested_eq_iff : digested p r = digested q s ↔ SameEntry p r q s :=
  toUTF8_toList_injective.eq_iff.trans keyText_eq_iff

/-- The bytes that are digested differ exactly when the requests do, and so do the keys, as
long as the digest tells those bytes apart. -/
theorem key_eq_iff (p q : Profile) (r s : Ranking.Shape) :
    (digested p r = digested q s ↔ SameEntry p r q s) ∧
      ((Sha256.digest (digested p r) = Sha256.digest (digested q s) →
          digested p r = digested q s) →
        (key p r = key q s ↔ SameEntry p r q s)) := by
  refine ⟨digested_eq_iff, fun hdigest => ⟨fun h => ?_, fun h => ?_⟩⟩
  · exact digested_eq_iff.mp (hdigest (digest_eq_of_keyOf_eq h))
  · rw [key, key, keyText_eq_iff.mpr h]

/-- A birth half a second into a leap second, in a year of five digits. -/
def leapSecondBirth : Profile :=
  ⟨⟨10000, 1, 1, by decide⟩, ⟨23, 59, 60, 500000000, by decide, by decide, by decide, by decide⟩,
    .female, .lunar⟩

def earlierSecond : Profile :=
  { leapSecondBirth with
    birthTime := { leapSecondBirth.birthTime with second := 59, second_le := by decide } }

/-- A birth at that time in a year with the same digits but for a zero. -/
def earlierMillennium : Profile := { leapSecondBirth with birthDate := ⟨1000, 1, 1, by decide⟩ }

/-- The leap second is no part of the key, the fifth digit of the year is. -/
theorem key_eq_iff_leapSecond :
    key leapSecondBirth {} = key earlierSecond {} ∧
      key leapSecondBirth {} ≠ key earlierMillennium {} := by
  have hsame : SameEntry leapSecondBirth {} earlierSecond {} :=
    ⟨⟨rfl, rfl, rfl, rfl, rfl⟩, rfl, rfl⟩
  have hyear : ¬ SameEntry leapSecondBirth {} earlierMillennium {} := fun h =>
    absurd h.profile.birthDate (by decide)
  have hdigest : Sha256.digest (digested leapSecondBirth {}) ≠
      Sha256.digest (digested earlierMillennium {}) := by
    decide +kernel
  constructor
  · exact ((key_eq_iff _ _ _ _).2 fun _ => digested_eq_iff.mpr hsame).mpr hsame
  · intro h
    exact hyear (((key_eq_iff _ _ _ _).2 fun hd => absurd hd hdigest).mp h)

end Cache

end Almanac
