import Mathlib
import Almanac.Document.View
import Almanac.Proofs.Document.Chart

/-!
# Views and sections are read back

The codecs of views, of sections and of their parts are lawful.  A ranked year is written
flat and a section has its status among its fields, so both are put together from values
that were kept for later; what they hold is the same as on the direct way.
-/

namespace Almanac

open Json Json.Codec

/-! ## Closed sets of names -/

theorem Relation.lawful_codec : Relation.codec.Lawful 0 := by
  apply lawful_choice
  intro r
  cases r <;> rfl

theorem Tier.lawful_codec : Tier.codec.Lawful 0 := by
  apply lawful_choice
  intro t
  cases t <;> rfl

theorem LifeStage.lawful_codec : LifeStage.codec.Lawful 0 := by
  apply lawful_choice
  intro s
  cases s <;> rfl

theorem Placement.lawful_codec : Placement.codec.Lawful 0 := by
  apply lawful_choice
  intro p
  cases p <;> rfl

/-! ## Ranked periods -/

theorem YearSummary.lawful_fields : YearSummary.fields.Lawful 1 := by
  have text := lawful_text.mono (Nat.zero_le 1)
  have uint32 := lawful_uint32.mono (Nat.zero_le 1)
  exact ⟨lawful_int32.mono (by decide), text, uint32, uint32,
    Relation.lawful_codec.mono (by decide), text, lawful_texts, trivial⟩

theorem RankedYear.lawful_codec : RankedYear.codec.Lawful 2 := by
  have uint32 := lawful_uint32.mono (Nat.zero_le 1)
  exact lawful_spread YearSummary.lawful_fields
    ⟨uint32, uint32, Tier.lawful_codec.mono (by decide), trivial⟩ (by decide) (fun _ => rfl)

theorem RankedPeriod.lawful_codec : RankedPeriod.codec.Lawful 4 :=
  lawful_record ⟨Period.lawful_codec.mono (by decide), lawful_uint32.mono (by decide),
    LifeStage.lawful_codec.mono (by decide), lawful_text.mono (by decide),
    Tier.lawful_codec.mono (by decide), RankedYear.lawful_codec.list, trivial⟩ (by decide)
    (fun _ => rfl)

/-! ## Policies -/

theorem TierBand.lawful_codec : TierBand.codec.Lawful 1 := by
  have high : (Codec.optional .uint32).Lawful 0 := by
    apply lawful_uint32.optional
    intro n
    exact Json.noConfusion
  exact lawful_record ⟨Tier.lawful_codec, lawful_uint32, high, lawful_text, trivial⟩ (by decide)
    (fun _ => rfl)

theorem TypePriority.lawful_codec : TypePriority.codec.Lawful 1 :=
  lawful_record ⟨Relation.lawful_codec, lawful_uint32, trivial⟩ (by decide) (fun _ => rfl)

theorem Policy.lawful_codec : Policy.codec.Lawful 3 := by
  have count := (lawful_word "usize").mono (Nat.zero_le 2)
  exact lawful_record ⟨TierBand.lawful_codec.list, lawful_text.mono (by decide),
    TypePriority.lawful_codec.list, count, count, Placement.lawful_codec.mono (by decide),
    trivial⟩ (by decide) (fun _ => rfl)

/-! ## Views -/

theorem View.lawful_codec : View.codec.Lawful 6 :=
  lawful_record ⟨Date.lawful_codec.mono (by decide), lawful_uint32.mono (by decide),
    RankedPeriod.lawful_codec.mono (by decide), RankedPeriod.lawful_codec.list,
    Policy.lawful_codec.mono (by decide), trivial⟩ (by decide) (fun _ => rfl)

/-! ## Sections -/

theorem PillarDetail.lawful_codec : PillarDetail.codec.Lawful 2 := by
  have text := lawful_text.mono (Nat.zero_le 1)
  exact lawful_record ⟨text, text, text, text, lawful_texts, trivial⟩ (by decide) (fun _ => rfl)

theorem PillarAnalysis.lawful_codec : PillarAnalysis.codec.Lawful 4 :=
  lawful_record ⟨PillarDetail.lawful_codec.list, trivial⟩ (by decide) (fun _ => rfl)

theorem Section.lawful_codec {α : Type} {c : Codec α} {depth : Nat} (h : c.Lawful depth) :
    (Section.codec c).Lawful (depth + 1) := by
  have hdata : (Fields.cons "data" c .required .nil).Lawful depth := ⟨h, trivial⟩
  have hreason : (Fields.cons "reason" Codec.text .required .nil).Lawful depth :=
    ⟨lawful_text.mono (Nat.zero_le depth), trivial⟩
  have hstatus : ∀ name, "status" ≠ name → "status" ∉ [name] :=
    fun name hne hmem => hne (List.mem_singleton.mp hmem)
  apply lawful_tagged
  rintro (a | why)
  · apply tagged_fields (fun row : Row [α] => Section.present row.1) (a, ()) hdata
    · exact List.nodup_singleton _
    · exact hstatus _ (by decide)
    · rfl
  · apply tagged_fields (fun row : Row [String] => Section.absent row.1) (why, ()) hreason
    · exact List.nodup_singleton _
    · exact hstatus _ (by decide)
    · rfl

/-- **Views and sections are read back** from their texts, in either layout. -/
theorem View.text_roundTrip (layout : Layout) :
    (∀ v : View, View.codec.decodeText ((View.codec.write v).render layout) = .ok v) ∧
    ∀ s : Section PillarAnalysis, (Section.codec PillarAnalysis.codec).decodeText
      (((Section.codec PillarAnalysis.codec).write s).render layout) = .ok s := by
  constructor
  · exact View.lawful_codec.decodeText_render (by decide) layout
  · exact (Section.lawful_codec PillarAnalysis.lawful_codec).decodeText_render (by decide) layout

end Almanac
