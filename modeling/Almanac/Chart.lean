import Almanac.Decimal.Binary64
import Almanac.Calendar.Date

/-!
# Charts

What the chart engine delivers for a birth: the four pillars, the major periods in
their order, the notable years, and two analyses.  A chart does not depend on the
day on which it is looked at; only its ranking does.
-/

namespace Almanac

/-- A major period of life. -/
structure Period where
  /-- The number by which notable years refer to the period. -/
  index : UInt32
  label : String
  startYear : Int32
  endYear : Int32
  /-- The first nominal age that belongs to the period. -/
  startAge : UInt32
  /-- The last nominal age that belongs to the period. -/
  endAge : UInt32
  influence : String
  deriving Repr, DecidableEq

def Period.covers (p : Period) (age : UInt32) : Bool := p.startAge ≤ age && age ≤ p.endAge

structure MonthFortune where
  month : UInt8
  label : String
  note : String
  deriving Repr, DecidableEq

structure DayHighlight where
  date : Date
  note : String
  deriving Repr, DecidableEq

structure YearDetail where
  notes : List String := []
  monthly : List MonthFortune := []
  daily : List DayHighlight := []
  deriving Repr, DecidableEq

structure SpecialYear where
  year : Int32
  label : String
  age : UInt32
  /-- How the year stands to the chart, as the engine tags it. -/
  relation : String
  /-- The index of the period that owns the year. -/
  periodIndex : UInt32
  detail : YearDetail := {}
  deriving Repr, DecidableEq

structure FourPillars where
  year : String
  month : String
  day : String
  hour : String
  deriving Repr, DecidableEq

structure Chart where
  pillars : FourPillars
  dayMaster : String
  periods : List Period
  years : List SpecialYear
  deriving Repr, DecidableEq

structure BalanceAnalysis where
  dayMasterStrength : String
  strengthScore : Binary64
  favorableElements : List String
  unfavorableElements : List String
  deriving Repr, DecidableEq

structure PillarDetail where
  position : String
  stem : String
  branch : String
  tenGod : String
  hiddenStems : List String := []
  deriving Repr, DecidableEq

structure PillarAnalysis where
  pillars : List PillarDetail
  deriving Repr, DecidableEq

/-- A part of a report that may be missing for a reason. -/
inductive Section (α : Type) where
  | present (data : α)
  | absent (reason : String)
  deriving Repr, DecidableEq

namespace Section

variable {α : Type}

def isPresent : Section α → Bool
  | present _ => true
  | absent _ => false

def data? : Section α → Option α
  | present data => some data
  | absent _ => none

end Section

/-- What an engine knows about one birth: the chart, and the analyses that it has. -/
structure Snapshot where
  chart : Chart
  balance : Option BalanceAnalysis := none
  pillars : Option PillarAnalysis := none
  deriving Repr, DecidableEq

end Almanac
