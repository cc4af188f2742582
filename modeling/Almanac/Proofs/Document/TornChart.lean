import Mathlib
import Almanac.Cache.SharedStore
import Almanac.Proofs.Document.Chart
import Almanac.Proofs.Json.Guarded

/-!
# Charts that break off

A payload may be torn: the shared store has kept only its beginning.  None of them is taken
for a chart, wherever it breaks off, and a cache that is answered one goes on as if the store
had failed: `Cache.lookup_torn`.
-/

namespace Almanac

open Json Json.Codec

/-! ## The parts of a chart -/

theorem Date.guarded_codec : Date.codec.Guarded 0 := guarded_spelled Date.lawful_codec

theorem guarded_texts : Json.Codec.texts.Guarded 1 := guarded_text.list

theorem Period.guarded_codec : Period.codec.Guarded 1 :=
  guarded_record ⟨guarded_uint32, guarded_text, guarded_int32, guarded_int32, guarded_uint32,
    guarded_uint32, guarded_text, trivial⟩ (by decide) (fun _ => rfl)

theorem MonthFortune.guarded_codec : MonthFortune.codec.Guarded 1 :=
  guarded_record ⟨guarded_uint8, guarded_text, guarded_text, trivial⟩ (by decide) (fun _ => rfl)

theorem DayHighlight.guarded_codec : DayHighlight.codec.Guarded 1 :=
  guarded_record ⟨Date.guarded_codec, guarded_text, trivial⟩ (by decide) (fun _ => rfl)

theorem YearDetail.guarded_codec : YearDetail.codec.Guarded 3 :=
  guarded_record ⟨guarded_texts.mono (by decide), MonthFortune.guarded_codec.list,
    DayHighlight.guarded_codec.list, trivial⟩ (by decide) (fun _ => rfl)

theorem SpecialYear.guarded_codec : SpecialYear.codec.Guarded 4 := by
  have text := guarded_text.mono (Nat.zero_le 3)
  have uint32 := guarded_uint32.mono (Nat.zero_le 3)
  exact guarded_record ⟨guarded_int32.mono (by decide), text, uint32, text, uint32,
    YearDetail.guarded_codec, trivial⟩ (by decide) (fun _ => rfl)

theorem FourPillars.guarded_codec : FourPillars.codec.Guarded 1 :=
  guarded_record ⟨guarded_text, guarded_text, guarded_text, guarded_text, trivial⟩ (by decide)
    (fun _ => rfl)

theorem Chart.guarded_codec : Chart.codec.Guarded 6 :=
  guarded_record ⟨FourPillars.guarded_codec.mono (by decide), guarded_text.mono (by decide),
    Period.guarded_codec.list.mono (by decide), SpecialYear.guarded_codec.list, trivial⟩ (by decide)
    (fun _ => rfl)

/-! ## Torn payloads -/

theorem Chart.decode_cut {chart : Chart} {cut : List Char}
    (hcut : cut <+: (Chart.codec.encode chart).toList)
    (hne : cut ≠ (Chart.codec.encode chart).toList) : EndsEarly (Chart.codec.decode cut) := by
  have h := isCut_iff.mpr ⟨hcut, hne⟩
  rw [encode, compact, render, String.toList_ofList] at h
  apply Chart.guarded_codec.decode_cut (by decide) _ h
  intro v hwrite
  cases hwrite

theorem Layer.decode_of_endsEarly {cut : List Char} (h : EndsEarly (Chart.codec.decode cut)) :
    decode (String.ofList cut).toUTF8 = none := by
  obtain ⟨f, hdecode, -⟩ := h
  rw [decode, decodeBytes_toUTF8, decodeText, String.toList_ofList, hdecode, Except.toOption]

namespace LocalTier

variable {α : Type} {t : LocalTier α} {now : Nat} {name : String}

theorem get?_of_miss (h : (t.get now name).1 = none) :
    (t.get now name).2.entries.get? name = none := by
  rcases he : t.entries.get? name with _ | e
  · simp only [get, he]
  · by_cases hfresh : t.isFresh now e
    · simp [get, he, hfresh] at h
    · simp only [get, he, hfresh, Bool.false_eq_true, if_false, Table.get?_erase, if_true]

theorem get?_of_ne {other : String} (h : other ≠ name) :
    (t.get now name).2.entries.get? other = t.entries.get? other := by
  rcases he : t.entries.get? name with _ | e
  · simp only [get, he]
  · by_cases hfresh : t.isFresh now e
    · simp only [get, he, hfresh, if_true]
    · simp only [get, he, hfresh, Bool.false_eq_true, if_false, Table.get?_erase, if_neg h]

end LocalTier

namespace Cache

variable {σ : Type} {S : Store σ} {c : Cache σ} {now : Nat} {key : String} {store : σ}

theorem lookup_undecodable {payload : ByteArray} (hmiss : (c.layer.tier.get now key).1 = none)
    (hstore : S.get now key c.store = (.ok (some payload), store))
    (hdecode : Layer.decode payload = none) :
    c.lookup S now key = (none, ⟨({ c.layer with tier := (c.layer.tier.get now key).2 } :
      Layer).countSharedFailure, store⟩) := by
  have hlook : c.layer.look now key
      = (none, { c.layer with tier := (c.layer.tier.get now key).2 }) := by
    simp only [Layer.look, hmiss]
  simp only [lookup, hlook, ask, hstore, Layer.take, hdecode]

end Cache

/-- **Torn payloads are never served.**  A beginning of a chart's text that is not all of it is
refused as a text that ended too early.  If the store holds it for a key that the local tier
does not have alive, then looking the key up is a miss: a failure of the store is counted, and
nothing else, and the local tier does not have the key afterwards. -/
theorem Chart.torn_payload (chart : Chart) {cut : List Char}
    (hcut : cut <+: (Chart.codec.encode chart).toList)
    (hne : cut ≠ (Chart.codec.encode chart).toList) :
    (∃ e, Chart.codec.decode cut = .error e ∧ e.category = .unfinished) ∧
      ∀ {σ : Type} (S : Store σ) (c : Cache σ) (now : Nat) (key : String) (store : σ),
        (c.layer.tier.get now key).1 = none →
        S.get now key c.store = (.ok (some (String.ofList cut).toUTF8), store) →
        let after := (c.lookup S now key).2
        (c.lookup S now key).1 = none ∧ after.store = store ∧
          after.layer.stats
            = { c.layer.stats with sharedFailures := c.layer.stats.sharedFailures + 1 } ∧
          after.layer.tier.entries.get? key = none ∧
          ∀ other, other ≠ key →
            after.layer.tier.entries.get? other = c.layer.tier.entries.get? other := by
  have hends := Chart.decode_cut hcut hne
  constructor
  · obtain ⟨f, hdecode, hf⟩ := hends
    refine ⟨.fault f, hdecode, ?_⟩
    rw [ReadError.category, if_pos hf]
  · intro σ S c now key store hmiss hstore
    rw [Cache.lookup_undecodable hmiss hstore (Layer.decode_of_endsEarly hends)]
    refine ⟨rfl, rfl, rfl, ?_, ?_⟩
    · exact LocalTier.get?_of_miss hmiss
    · intro other hother
      exact LocalTier.get?_of_ne hother

/-- A chart in which a number has two digits. -/
def Chart.ofTwelfth : Chart := ⟨⟨"", "", "", ""⟩, "", [⟨12, "", 2024, 2033, 30, 39, ""⟩], []⟩

/-- The beginning of its text, up to the first of these digits. -/
def Chart.halfNumber : List Char :=
  ("\x7b\"pillars\":\x7b\"year\":\"\",\"month\":\"\",\"day\":\"\",\"hour\":\"\"\x7d," ++
    "\"day_master\":\"\",\"periods\":[\x7b\"index\":1").toList

def SharedStore.holding (key : String) (payload : ByteArray) : SharedStore :=
  { entries := Table.empty.put key ⟨payload, none⟩ }

theorem Chart.torn_payload_halfNumber :
    halfNumber <+: (Chart.codec.encode ofTwelfth).toList ∧
      (∃ e, Chart.codec.decode halfNumber = .error e ∧ e.category = .unfinished) ∧
      let payload := (String.ofList halfNumber).toUTF8
      let c : Cache SharedStore := ⟨.ofSettings {}, .holding "chart" payload⟩
      (c.lookup SharedStore.store 0 "chart").1 = none ∧
        (c.lookup SharedStore.store 0 "chart").2.layer.stats = { sharedFailures := 1 } := by
  have htext : (Chart.codec.encode ofTwelfth).toList
      = (Chart.codec.write ofTwelfth).write .compact 0 := String.toList_ofList
  have hlonger : halfNumber ++ ['2'] <+: (Chart.codec.encode ofTwelfth).toList := by
    rw [htext]
    decide +kernel
  have hcut : halfNumber <+: (Chart.codec.encode ofTwelfth).toList :=
    (List.prefix_append _ _).trans hlonger
  have hne : halfNumber ≠ (Chart.codec.encode ofTwelfth).toList := by
    intro heq
    have hlength := hlonger.length_le
    rw [← heq, List.length_append] at hlength
    simp at hlength
  obtain ⟨hdecode, hlookup⟩ := torn_payload ofTwelfth hcut hne
  have hmiss := hlookup SharedStore.store
    ⟨.ofSettings {}, .holding "chart" (String.ofList halfNumber).toUTF8⟩ 0 "chart" _ rfl rfl
  exact ⟨hcut, hdecode, hmiss.1, hmiss.2.2.1⟩

end Almanac
