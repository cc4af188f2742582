import Almanac.Failure
import Almanac.Ranking.Policy

/-!
# Ranked views

A view shows a chart as it stands on a reference date: the current period, the key
periods around it, each with its labels and its retained years, and the policy by
which all this was chosen.  `Ranking.rank` makes the view; it fails only for a chart
without periods.
-/

namespace Almanac

structure RankedYear where
  summary : YearSummary
  typePriority : UInt32
  compositePriority : UInt32
  tier : Tier
  deriving Repr, DecidableEq

structure RankedPeriod where
  period : Period
  priority : UInt32
  lifeStage : LifeStage
  lifeStageLabel : String
  tier : Tier
  years : List RankedYear
  deriving Repr, DecidableEq

/-- A chart as it stands on a date. -/
structure View where
  referenceDate : Date
  nominalAge : UInt32
  current : RankedPeriod
  /-- The other periods in the order of their priority. -/
  keyPeriods : List RankedPeriod
  policy : Policy
  deriving Repr, DecidableEq

namespace View

def periods (v : View) : List RankedPeriod := v.current :: v.keyPeriods

def periodByIndex? (v : View) (index : UInt32) : Option RankedPeriod :=
  v.periods.find? fun p => p.period.index == index

def totalYears (v : View) : Nat := (v.periods.flatMap fun p => p.years).length

end View

namespace Ranking

def ScoredYear.labelled (tier : Tier) (y : ScoredYear) : RankedYear :=
  ⟨y.summary, y.typePriority, y.compositePriority, tier⟩

/-- A populated period with its labels; its years share its tier. -/
def Populated.labelled (p : Populated) : RankedPeriod :=
  let tier := Tier.ofPriority p.stub.priority
  let stage := LifeStage.ofAge p.stub.period.startAge
  { period := p.stub.period
    priority := p.stub.priority
    lifeStage := stage
    lifeStageLabel := stage.label
    tier := tier
    years := p.years.map (ScoredYear.labelled tier) }

def assemble (reference : Date) (age : UInt32) (placement : Placement) (shape : Shape)
    (current : Populated) (others : List Populated) : View where
  referenceDate := reference
  nominalAge := age
  current := current.labelled
  keyPeriods := others.map Populated.labelled
  policy := Policy.of shape placement

/-- The view of a chart on a reference date.  The current period is in it whatever
the shape says. -/
def rank (chart : Chart) (birth reference : Date) (shape : Shape) : Except Failure View :=
  let age := nominalAge birth reference
  match locate? chart.periods age with
  | none => .error .noPeriods
  | some location =>
    let stubs := select chart.periods location.position (max shape.periodCount.toNat 1)
    match stubs.map (attach chart.years shape.yearsPerPeriod.toNat) with
    | [] => .error .noPeriods
    | current :: others =>
      .ok (assemble reference age location.placement shape current others)

end Ranking

/-- The answer to a request: the view, and what is known about the pillars. -/
structure Report where
  view : View
  pillars : FourPillars
  balance : Section BalanceAnalysis
  pillarAnalysis : Section PillarAnalysis
  deriving Repr, DecidableEq

end Almanac
