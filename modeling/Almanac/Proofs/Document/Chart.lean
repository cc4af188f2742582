import Mathlib
import Almanac.Cache.Layer
import Almanac.Proofs.Calendar.DateText
import Almanac.Proofs.Json.Records

/-!
# Charts in the shared store

The codecs of charts and of their parts are lawful, so the bytes that a layer writes for
a chart are read back as the same chart: `Layer.payload_roundTrip`.
-/

namespace Almanac

open Json Json.Codec

/-! ## The parts of a chart -/

theorem Date.lawful_codec : Date.codec.Lawful 0 := by
  apply lawful_spelled
  intro d
  rw [Date.ofDocument?_text, Calendar.inWords]

theorem lawful_texts : Json.Codec.texts.Lawful 1 := lawful_text.list

theorem Period.lawful_codec : Period.codec.Lawful 1 :=
  lawful_record ⟨lawful_uint32, lawful_text, lawful_int32, lawful_int32, lawful_uint32,
    lawful_uint32, lawful_text, trivial⟩ (by decide) (fun _ => rfl)

theorem MonthFortune.lawful_codec : MonthFortune.codec.Lawful 1 :=
  lawful_record ⟨lawful_uint8, lawful_text, lawful_text, trivial⟩ (by decide) (fun _ => rfl)

theorem DayHighlight.lawful_codec : DayHighlight.codec.Lawful 1 :=
  lawful_record ⟨Date.lawful_codec, lawful_text, trivial⟩ (by decide) (fun _ => rfl)

theorem YearDetail.lawful_codec : YearDetail.codec.Lawful 3 :=
  lawful_record ⟨lawful_texts.mono (by decide), MonthFortune.lawful_codec.list,
    DayHighlight.lawful_codec.list, trivial⟩ (by decide) (fun _ => rfl)

theorem SpecialYear.lawful_codec : SpecialYear.codec.Lawful 4 := by
  have text := lawful_text.mono (Nat.zero_le 3)
  have uint32 := lawful_uint32.mono (Nat.zero_le 3)
  exact lawful_record ⟨lawful_int32.mono (by decide), text, uint32, text, uint32,
    YearDetail.lawful_codec, trivial⟩ (by decide) (fun _ => rfl)

theorem FourPillars.lawful_codec : FourPillars.codec.Lawful 1 :=
  lawful_record ⟨lawful_text, lawful_text, lawful_text, lawful_text, trivial⟩ (by decide)
    (fun _ => rfl)

/-! ## Whole charts -/

theorem Chart.lawful_codec : Chart.codec.Lawful 6 :=
  lawful_record ⟨FourPillars.lawful_codec.mono (by decide), lawful_text.mono (by decide),
    Period.lawful_codec.list.mono (by decide), SpecialYear.lawful_codec.list, trivial⟩ (by decide)
    (fun _ => rfl)

theorem Layer.decode_encode (chart : Chart) : decode (encode chart) = some chart := by
  rw [decode, encode, decodeBytes_toUTF8, Chart.lawful_codec.decodeText_encode (by decide),
    Except.toOption]

-- A byte that is no character does harm only where a text is read.
example : (YearDetail.codec.decodeBytes
    ("\x7b\"more\":\"".toUTF8 ++ ⟨#[0xFF]⟩ ++ "\"\x7d".toUTF8)).toOption = some {} := by
  decide +kernel

example : (YearDetail.codec.decodeBytes
    ("\x7b\"notes\":[\"".toUTF8 ++ ⟨#[0xFF]⟩ ++ "\"]\x7d".toUTF8)).toOption = none := by
  decide +kernel

/-- **A payload gives back its chart**, and no other chart has the same payload; so a
layer that is answered the payload finds the chart and keeps it nearby. -/
theorem Layer.payload_roundTrip (chart : Chart) :
    decode (encode chart) = some chart ∧ (∀ other, encode other = encode chart → other = chart) ∧
      ∀ (l : Layer) (now : Nat) (key : String), l.take now key (.ok (some (encode chart)))
        = (some chart, l.countSharedHit.keep now key chart) := by
  have hdecode := decode_encode chart
  refine ⟨hdecode, ?_, ?_⟩
  · intro other he
    rw [← he, decode_encode] at hdecode
    exact Option.some.inj hdecode
  · intro l now key
    -- The payload itself is not looked at any more.
    generalize encode chart = payload at hdecode ⊢
    rw [take, hdecode]

end Almanac
