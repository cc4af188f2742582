import Almanac.Document.Chart
import Almanac.Ranking.View

/-!
# Documents of views

The JSON forms of views, of their parts, and of reports.  A ranked year is written
flat: the fields of its summary stand beside its priorities and its tier.
-/

namespace Almanac

open Json (Codec Fields Row)

def Relation.codec : Codec Relation := .named Relation.all Relation.name

def Tier.codec : Codec Tier := .named [.detailed, .moderate, .brief, .minimal] Tier.name

def LifeStage.codec : Codec LifeStage :=
  .named [.childhood, .adolescence, .youngAdulthood, .prime, .middleAge, .elder] LifeStage.name

def Placement.codec : Codec Placement :=
  .named [.within, .beforeFirst, .afterLast] Placement.name

def YearSummary.fields :
    Fields [Int32, String, UInt32, UInt32, Relation, String, List String] :=
  .cons "year" .int32 .required <|
    .cons "label" .text .required <|
    .cons "age" .uint32 .required <|
    .cons "period_index" .uint32 .required <|
    .cons "relation" Relation.codec .required <|
    .cons "relation_tag" .text .required <|
    .cons "notes" .texts .required .nil

def YearSummary.toRow (y : YearSummary) :
    Row [Int32, String, UInt32, UInt32, Relation, String, List String] :=
  (y.year, y.label, y.age, y.periodIndex, y.relation, y.relationTag, y.notes, ())

def YearSummary.ofRow :
    Row [Int32, String, UInt32, UInt32, Relation, String, List String] → YearSummary
  | (year, label, age, periodIndex, relation, relationTag, notes, ()) =>
    ⟨year, label, age, periodIndex, relation, relationTag, notes⟩

def YearSummary.codec : Codec YearSummary :=
  .record "YearSummary" YearSummary.fields YearSummary.toRow YearSummary.ofRow

def RankedYear.codec : Codec RankedYear :=
  .spread "RankedYear" YearSummary.fields
    (.cons "type_priority" .uint32 .required <|
      .cons "composite_priority" .uint32 .required <|
      .cons "tier" Tier.codec .required .nil)
    (fun y => (y.summary.toRow, (y.typePriority, y.compositePriority, y.tier, ())))
    (fun (summary, (typePriority, compositePriority, tier, ())) =>
      ⟨.ofRow summary, typePriority, compositePriority, tier⟩)

def RankedPeriod.codec : Codec RankedPeriod :=
  .record "RankedPeriod"
    (.cons "period" Period.codec .required <|
      .cons "priority" .uint32 .required <|
      .cons "life_stage" LifeStage.codec .required <|
      .cons "life_stage_label" .text .required <|
      .cons "tier" Tier.codec .required <|
      .cons "years" (.list RankedYear.codec) .required .nil)
    (fun p => (p.period, p.priority, p.lifeStage, p.lifeStageLabel, p.tier, p.years, ()))
    (fun (period, priority, stage, label, tier, years, ()) =>
      ⟨period, priority, stage, label, tier, years⟩)

def TierBand.codec : Codec TierBand :=
  .record "TierBand"
    (.cons "tier" Tier.codec .required <|
      .cons "min_priority" .uint32 .required <|
      .cons "max_priority" (.optional .uint32) (.optional none) <|
      .cons "guidance" .text .required .nil)
    (fun b => (b.tier, b.minPriority, b.maxPriority, b.guidance, ()))
    (fun (tier, low, high, guidance, ()) => ⟨tier, low, high, guidance⟩)

def TypePriority.codec : Codec TypePriority :=
  .record "TypePriorityEntry"
    (.cons "relation" Relation.codec .required <| .cons "priority" .uint32 .required .nil)
    (fun e => (e.relation, e.priority, ()))
    (fun (relation, priority, ()) => ⟨relation, priority⟩)

def Policy.codec : Codec Policy :=
  .record "PriorityPolicy"
    (.cons "tiers" (.list TierBand.codec) .required <|
      .cons "composite_formula" .text .required <|
      .cons "type_priorities" (.list TypePriority.codec) .required <|
      .cons "period_count" .count .required <|
      .cons "years_per_period_cap" .count .required <|
      .cons "current_placement" Placement.codec .required .nil)
    (fun p =>
      (p.tiers, p.compositeFormula, p.typePriorities, p.periodCount, p.yearsPerPeriod,
        p.placement, ()))
    (fun (tiers, formula, types, periods, years, placement, ()) =>
      ⟨tiers, formula, types, periods, years, placement⟩)

def View.codec : Codec View :=
  .record "EnhancedFortuneView"
    (.cons "reference_date" Date.codec .required <|
      .cons "nominal_age" .uint32 .required <|
      .cons "current_period" RankedPeriod.codec .required <|
      .cons "key_periods" (.list RankedPeriod.codec) .required <|
      .cons "priority_policy" Policy.codec .required .nil)
    (fun v => (v.referenceDate, v.nominalAge, v.current, v.keyPeriods, v.policy, ()))
    (fun (reference, age, current, others, policy, ()) =>
      ⟨reference, age, current, others, policy⟩)

def Report.codec : Codec Report :=
  .record "FortuneReport"
    (.cons "view" View.codec .required <|
      .cons "pillars" FourPillars.codec .required <|
      .cons "balance" (Section.codec BalanceAnalysis.codec) .required <|
      .cons "pillar_analysis" (Section.codec PillarAnalysis.codec) .required .nil)
    (fun r => (r.view, r.pillars, r.balance, r.pillarAnalysis, ()))
    (fun (view, pillars, balance, analysis, ()) => ⟨view, pillars, balance, analysis⟩)

end Almanac
