import Almanac.Ranking.Relation
import Almanac.Ranking.Selection

/-!
# Retained years

Each selected period keeps the most important of its notable years, up to a cap.
Importance is the composite priority; equal ones are ordered by the calendar year,
and after that as the chart lists them.  Only a summary of a year is kept: its months
and days are left out.
-/

namespace Almanac

structure YearSummary where
  year : Int32
  label : String
  age : UInt32
  periodIndex : UInt32
  relation : Relation
  /-- The tag as the chart spells it. -/
  relationTag : String
  notes : List String
  deriving Repr, DecidableEq

namespace Ranking

/-- The weight of a period's priority against that of a relation. -/
def periodWeight : UInt32 := 100

def compositePriority (period type : UInt32) : UInt32 := period * periodWeight + type

structure ScoredYear where
  summary : YearSummary
  typePriority : UInt32
  compositePriority : UInt32
  deriving Repr, DecidableEq

def summary (y : SpecialYear) : YearSummary where
  year := y.year
  label := y.label
  age := y.age
  periodIndex := y.periodIndex
  relation := Relation.ofTag y.relation
  relationTag := y.relation
  notes := y.detail.notes

def score (priority : UInt32) (y : SpecialYear) : ScoredYear :=
  let type := (Relation.ofTag y.relation).priority
  ⟨summary y, type, compositePriority priority type⟩

def ScoredYear.before (a b : ScoredYear) : Bool :=
  a.compositePriority < b.compositePriority
    || a.compositePriority == b.compositePriority && a.summary.year ≤ b.summary.year

/-- A selected period with the years that it keeps. -/
structure Populated where
  stub : Stub
  years : List ScoredYear
  deriving Repr, DecidableEq

def ranked (stub : Stub) (years : List SpecialYear) : List ScoredYear :=
  ((years.filter fun y => y.periodIndex == stub.period.index).map (score stub.priority)).mergeSort
    ScoredYear.before

/-- A selected period with at most `cap` of its years. -/
def attach (years : List SpecialYear) (cap : Nat) (stub : Stub) : Populated :=
  ⟨stub, (ranked stub years).take cap⟩

end Ranking

end Almanac
