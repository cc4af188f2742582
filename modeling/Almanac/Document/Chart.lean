import Almanac.Chart
import Almanac.Document.Basic

/-!
# Documents of charts

The JSON forms of charts and of their parts.  This is the form in which charts are
kept in the shared store, so reading a written chart has to give it back.
-/

namespace Almanac

open Json (Codec Fields Row)

def Json.Codec.texts : Codec (List String) := .list .text

def Period.codec : Codec Period :=
  .record "Period"
    (.cons "index" .uint32 .required <|
      .cons "label" .text .required <|
      .cons "start_year" .int32 .required <|
      .cons "end_year" .int32 .required <|
      .cons "start_age" .uint32 .required <|
      .cons "end_age" .uint32 .required <|
      .cons "influence" .text .required .nil)
    (fun p =>
      (p.index, p.label, p.startYear, p.endYear, p.startAge, p.endAge, p.influence, ()))
    (fun (index, label, startYear, endYear, startAge, endAge, influence, ()) =>
      ⟨index, label, startYear, endYear, startAge, endAge, influence⟩)

def MonthFortune.codec : Codec MonthFortune :=
  .record "MonthFortune"
    (.cons "month" .uint8 .required <|
      .cons "label" .text .required <|
      .cons "note" .text .required .nil)
    (fun m => (m.month, m.label, m.note, ()))
    (fun (month, label, note, ()) => ⟨month, label, note⟩)

def DayHighlight.codec : Codec DayHighlight :=
  .record "DayHighlight"
    (.cons "date" Date.codec .required <| .cons "note" .text .required .nil)
    (fun d => (d.date, d.note, ()))
    (fun (date, note, ()) => ⟨date, note⟩)

/-- Details of a year; what is left out is empty. -/
def YearDetail.codec : Codec YearDetail :=
  .record "YearDetail"
    (.cons "notes" .texts (.defaulted []) <|
      .cons "monthly" (.list MonthFortune.codec) (.defaulted []) <|
      .cons "daily" (.list DayHighlight.codec) (.defaulted []) .nil)
    (fun d => (d.notes, d.monthly, d.daily, ()))
    (fun (notes, monthly, daily, ()) => ⟨notes, monthly, daily⟩)

def SpecialYear.codec : Codec SpecialYear :=
  .record "SpecialYear"
    (.cons "year" .int32 .required <|
      .cons "label" .text .required <|
      .cons "age" .uint32 .required <|
      .cons "relation" .text .required <|
      .cons "period_index" .uint32 .required <|
      .cons "detail" YearDetail.codec (.defaulted {}) .nil)
    (fun y => (y.year, y.label, y.age, y.relation, y.periodIndex, y.detail, ()))
    (fun (year, label, age, relation, periodIndex, detail, ()) =>
      ⟨year, label, age, relation, periodIndex, detail⟩)

def FourPillars.codec : Codec FourPillars :=
  .record "FourPillars"
    (.cons "year" .text .required <|
      .cons "month" .text .required <|
      .cons "day" .text .required <|
      .cons "hour" .text .required .nil)
    (fun p => (p.year, p.month, p.day, p.hour, ()))
    (fun (year, month, day, hour, ()) => ⟨year, month, day, hour⟩)

def Chart.codec : Codec Chart :=
  .record "RawChart"
    (.cons "pillars" FourPillars.codec .required <|
      .cons "day_master" .text .required <|
      .cons "periods" (.list Period.codec) .required <|
      .cons "years" (.list SpecialYear.codec) .required .nil)
    (fun c => (c.pillars, c.dayMaster, c.periods, c.years, ()))
    (fun (pillars, dayMaster, periods, years, ()) => ⟨pillars, dayMaster, periods, years⟩)

/-! ## Analyses -/

def BalanceAnalysis.codec : Codec BalanceAnalysis :=
  .record "BalanceAnalysis"
    (.cons "day_master_strength" .text .required <|
      .cons "strength_score" .real .required <|
      .cons "favorable_elements" .texts .required <|
      .cons "unfavorable_elements" .texts .required .nil)
    (fun a =>
      (a.dayMasterStrength, a.strengthScore, a.favorableElements, a.unfavorableElements, ()))
    (fun (strength, score, favorable, unfavorable, ()) =>
      ⟨strength, score, favorable, unfavorable⟩)

def PillarDetail.codec : Codec PillarDetail :=
  .record "PillarDetail"
    (.cons "position" .text .required <|
      .cons "stem" .text .required <|
      .cons "branch" .text .required <|
      .cons "ten_god" .text .required <|
      .cons "hidden_stems" .texts (.defaulted []) .nil)
    (fun p => (p.position, p.stem, p.branch, p.tenGod, p.hiddenStems, ()))
    (fun (position, stem, branch, tenGod, hiddenStems, ()) =>
      ⟨position, stem, branch, tenGod, hiddenStems⟩)

def PillarAnalysis.codec : Codec PillarAnalysis :=
  .record "PillarAnalysis"
    (.cons "pillars" (.list PillarDetail.codec) .required .nil)
    (fun a => (a.pillars, ())) (fun (pillars, ()) => ⟨pillars⟩)

def Section.codec {α : Type} (c : Codec α) : Codec (Section α) :=
  let data : Fields [α] := .cons "data" c .required .nil
  let reason : Fields [String] := .cons "reason" .text .required .nil
  .tagged "internally tagged enum Section" "status"
    [("present", fun j =>
        (data.take "struct variant Section::Present" j).map fun (a, ()) => .present a),
      ("absent", fun j =>
        (reason.take "struct variant Section::Absent" j).map fun (why, ()) => .absent why)]
    fun
      | .present a => ("present", data.write (a, ()))
      | .absent why => ("absent", reason.write (why, ()))

/-- Snapshots; an analysis that is left out is not known. -/
def Snapshot.codec : Codec Snapshot :=
  .record "UpstreamSnapshot"
    (.cons "chart" Chart.codec .required <|
      .cons "balance" (.optional BalanceAnalysis.codec) (.defaulted none) <|
      .cons "pillars" (.optional PillarAnalysis.codec) (.defaulted none) .nil)
    (fun s => (s.chart, s.balance, s.pillars, ()))
    (fun (chart, balance, pillars, ()) => ⟨chart, balance, pillars⟩)

end Almanac
