import Mathlib
import Almanac.Proofs.Document.View
import Almanac.Proofs.Json.Rearranged

/-!
# Documents of other writers

Another program may write the fields of charts, of ranked years and of sections in another
order, may lay out and escape its texts as it likes, and may add fields of its own.  The codecs
of all three are flexible, so none of this changes what is read:
`Document.rearranged_texts`.
-/

namespace Almanac

open Json Json.Codec

/-! ## Charts -/

theorem Date.flexible_codec : Date.codec.Flexible := flexible_spelled Date.lawful_codec

theorem flexible_texts : Json.Codec.texts.Flexible := flexible_text.list

theorem Period.flexible_codec : Period.codec.Flexible :=
  flexible_record ⟨flexible_uint32, flexible_text, flexible_int32, flexible_int32, flexible_uint32,
    flexible_uint32, flexible_text, trivial⟩ (by decide) (fun _ => rfl)

theorem MonthFortune.flexible_codec : MonthFortune.codec.Flexible :=
  flexible_record ⟨flexible_uint8, flexible_text, flexible_text, trivial⟩ (by decide)
    (fun _ => rfl)

theorem DayHighlight.flexible_codec : DayHighlight.codec.Flexible :=
  flexible_record ⟨Date.flexible_codec, flexible_text, trivial⟩ (by decide) (fun _ => rfl)

theorem YearDetail.flexible_codec : YearDetail.codec.Flexible :=
  flexible_record ⟨flexible_texts, MonthFortune.flexible_codec.list,
    DayHighlight.flexible_codec.list, trivial⟩ (by decide) (fun _ => rfl)

theorem SpecialYear.flexible_codec : SpecialYear.codec.Flexible :=
  flexible_record ⟨flexible_int32, flexible_text, flexible_uint32, flexible_text, flexible_uint32,
    YearDetail.flexible_codec, trivial⟩ (by decide) (fun _ => rfl)

theorem FourPillars.flexible_codec : FourPillars.codec.Flexible :=
  flexible_record ⟨flexible_text, flexible_text, flexible_text, flexible_text, trivial⟩ (by decide)
    (fun _ => rfl)

theorem Chart.flexible_codec : Chart.codec.Flexible :=
  flexible_record ⟨FourPillars.flexible_codec, flexible_text, Period.flexible_codec.list,
    SpecialYear.flexible_codec.list, trivial⟩ (by decide) (fun _ => rfl)

/-! ## Ranked years -/

theorem RankedYear.flexible_codec : RankedYear.codec.Flexible :=
  flexible_spread
    ⟨flexible_int32, flexible_text, flexible_uint32, flexible_uint32,
      flexible_choice Relation.lawful_codec, flexible_text, flexible_texts, trivial⟩
    ⟨flexible_uint32, flexible_uint32, flexible_choice Tier.lawful_codec, trivial⟩ (by decide)
    (fun _ => rfl)

/-! ## Sections -/

theorem PillarDetail.flexible_codec : PillarDetail.codec.Flexible :=
  flexible_record ⟨flexible_text, flexible_text, flexible_text, flexible_text, flexible_texts,
    trivial⟩ (by decide) (fun _ => rfl)

theorem PillarAnalysis.flexible_codec : PillarAnalysis.codec.Flexible :=
  flexible_record ⟨PillarDetail.flexible_codec.list, trivial⟩ (by decide) (fun _ => rfl)

theorem Section.flexible_codec {α : Type} {c : Codec α} (h : c.Flexible) :
    (Section.codec c).Flexible := by
  have hdata : (Fields.cons "data" c .required .nil).Flexible := ⟨h, trivial⟩
  have hreason : (Fields.cons "reason" Codec.text .required .nil).Flexible :=
    ⟨flexible_text, trivial⟩
  have hstatus : ∀ name, "status" ≠ name → "status" ∉ [name] :=
    fun name hne hmem => hne (List.mem_singleton.mp hmem)
  apply flexible_tagged
  rintro (a | why)
  · apply flexiblyTagged_fields (fun row : Row [α] => Section.present row.1) (a, ()) hdata
    · exact List.nodup_singleton _
    · exact hstatus _ (by decide)
    · rfl
  · apply flexiblyTagged_fields (fun row : Row [String] => Section.absent row.1) (why, ()) hreason
    · exact List.nodup_singleton _
    · exact hstatus _ (by decide)
    · rfl

/-! ## Whole documents -/

namespace Document

/-- **Neither the order of fields nor unknown fields matter.**  Take what is written for a chart,
a ranked year or a section, put the fields of its records into any order, at any depth, and add
fields of any other names with any values.  Every text of the value that comes out is decoded to
what the plain text is decoded to, if it does not have too many levels. -/
theorem rearranged_texts :
    (∀ (chart : Chart) (j : Json) (text : List Char), (Chart.codec.write chart).Rearranged j →
      j.HasText text → j.depth < maxRoom →
        Chart.codec.decode text = .ok chart ∧
        Chart.codec.decodeText (Chart.codec.encode chart) = .ok chart) ∧
    (∀ (year : RankedYear) (j : Json) (text : List Char),
      (RankedYear.codec.write year).Rearranged j → j.HasText text → j.depth < maxRoom →
        RankedYear.codec.decode text = .ok year ∧
        RankedYear.codec.decodeText (RankedYear.codec.encode year) = .ok year) ∧
    ∀ (part : Section PillarAnalysis) (j : Json) (text : List Char),
      ((Section.codec PillarAnalysis.codec).write part).Rearranged j → j.HasText text →
      j.depth < maxRoom →
        (Section.codec PillarAnalysis.codec).decode text = .ok part ∧
        (Section.codec PillarAnalysis.codec).decodeText
          ((Section.codec PillarAnalysis.codec).encode part) = .ok part := by
  refine ⟨?_, ?_, ?_⟩
  · intro chart j text hj htext hdepth
    exact ⟨Chart.flexible_codec.decode_text hj htext hdepth,
      Chart.lawful_codec.decodeText_encode (by decide) chart⟩
  · intro year j text hj htext hdepth
    exact ⟨RankedYear.flexible_codec.decode_text hj htext hdepth,
      RankedYear.lawful_codec.decodeText_encode (by decide) year⟩
  · intro part j text hj htext hdepth
    have hlawful := Section.lawful_codec PillarAnalysis.lawful_codec
    exact ⟨(Section.flexible_codec PillarAnalysis.flexible_codec).decode_text hj htext hdepth,
      hlawful.decodeText_encode (by decide) part⟩

/-- A section with a field of its writer's own in front, and its status at the end. -/
def lateStatus : Json :=
  .object [("trace", .list [.number (.int 7), .null]), ("reason", .text "时"),
    ("status", .text "absent")]

def lateStatusText : List Char :=
  "\n\x7b \"trace\":[7 ,null],\"reason\" : \"\\u65f6\",\"status\":\"absent\"\x7d".toList

theorem lateStatus_hasText : lateStatus.HasText lateStatusText := by
  have none : IsSpace [] := List.forall_mem_nil _
  have blank : IsSpace [' '] := List.forall_mem_singleton.mpr rfl
  have comma : Separates false [','] := separates_mark false
  have hseven : Spelled (.number (.int 7)) ['7'] := .number (spells_write (.int 7)) rfl
  have htrace : SpelledItems true [.number (.int 7), .null]
      ([] ++ (['7'] ++ ((' ' :: ',' :: []) ++ ("null".toList ++ ([] ++ [']']))))) :=
    .cons none hseven (.cons ⟨[' '], [], blank, none, rfl⟩ .null (.nil none))
  have hreason : SpellsText "时".toList "\\u65f6".toList :=
    .cons (.unit (n := 0x65F6) rfl (by decide)) .nil
  have hfields : SpelledFields true
      [("trace", .list [.number (.int 7), .null]), ("reason", .text "时"),
        ("status", .text "absent")] _ :=
    .cons blank (spellsText_write "trace".toList) none none (.list htrace)
      (.cons comma (spellsText_write "reason".toList) blank blank (.text hreason)
        (.cons comma (spellsText_write "status".toList) none none
          (.text (spellsText_write "absent".toList)) (.nil none)))
  exact ⟨['\n'], _, [], List.forall_mem_singleton.mpr rfl, none, .object hfields, by decide +kernel⟩

theorem rearranged_texts_lateStatus :
    ((Section.codec PillarAnalysis.codec).write (.absent "时")).Rearranged lateStatus ∧
      (Section.codec PillarAnalysis.codec).decode lateStatusText = .ok (.absent "时") := by
  let plain : List (String × Json) := [("status", .text "absent"), ("reason", .text "时")]
  let trace : List (String × Json) := [("trace", .list [.number (.int 7), .null])]
  have hj : ((Section.codec PillarAnalysis.codec).write (.absent "时")).Rearranged lateStatus := by
    have hplain : RearrangedFields plain plain :=
      .cons (.scalar trivial) (.cons (.scalar trivial) .nil)
    apply @Rearranged.object plain plain trace _ hplain
    · decide
    · exact List.reverse_perm (plain ++ trace)
  exact ⟨hj, (rearranged_texts.2.2 _ _ _ hj lateStatus_hasText (by decide)).1⟩

end Document

end Almanac
