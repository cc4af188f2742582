import Almanac.Ranking.Placement
import Almanac.Ranking.Retention

/-!
# Labels and the published policy

How much should be told about a period (its tier) and which stage of life it belongs
to; and the policy, which states for the readers of a view how priorities are made
and what they mean.
-/

namespace Almanac

inductive Tier where
  | detailed
  | moderate
  | brief
  | minimal
  deriving Repr, DecidableEq

namespace Tier

def name : Tier → String
  | detailed => "detailed"
  | moderate => "moderate"
  | brief => "brief"
  | minimal => "minimal"

def ofPriority (n : UInt32) : Tier :=
  if n ≤ 1 then detailed
  else if n ≤ 3 then moderate
  else if n ≤ 6 then brief
  else minimal

end Tier

inductive LifeStage where
  | childhood
  | adolescence
  | youngAdulthood
  | prime
  | middleAge
  | elder
  deriving Repr, DecidableEq

namespace LifeStage

def name : LifeStage → String
  | childhood => "childhood"
  | adolescence => "adolescence"
  | youngAdulthood => "young_adulthood"
  | prime => "prime"
  | middleAge => "middle_age"
  | elder => "elder"

def label : LifeStage → String
  | childhood => "童年"
  | adolescence => "少年"
  | youngAdulthood => "青年"
  | prime => "壮年"
  | middleAge => "中年"
  | elder => "晚年"

def ofAge (n : UInt32) : LifeStage :=
  if n ≤ 12 then childhood
  else if n ≤ 18 then adolescence
  else if n ≤ 30 then youngAdulthood
  else if n ≤ 45 then prime
  else if n ≤ 60 then middleAge
  else elder

end LifeStage

/-! ## The policy -/

/-- The priorities that have a tier, and what the tier asks for. -/
structure TierBand where
  tier : Tier
  minPriority : UInt32
  /-- None means that the band has no end. -/
  maxPriority : Option UInt32
  guidance : String
  deriving Repr, DecidableEq

structure TypePriority where
  relation : Relation
  priority : UInt32
  deriving Repr, DecidableEq

/-- How a view was made. -/
structure Policy where
  tiers : List TierBand
  compositeFormula : String
  typePriorities : List TypePriority
  periodCount : UInt64
  yearsPerPeriod : UInt64
  placement : Placement
  deriving Repr, DecidableEq

namespace Policy

def bands : List TierBand :=
  [⟨.detailed, 1, some 1, "full treatment: period overview plus every retained year"⟩,
   ⟨.moderate, 2, some 3, "paragraph per period, short note per retained year"⟩,
   ⟨.brief, 4, some 6, "two or three sentences per period, years mentioned by name"⟩,
   ⟨.minimal, 7, none, "one sentence per period"⟩]

def formula : String :=
  "period_priority * " ++ Text.decimal Ranking.periodWeight.toNat ++ " + type_priority"

/-- The policy of views of a shape, for a current period found as given. -/
def of (shape : Ranking.Shape) (placement : Placement) : Policy where
  tiers := bands
  compositeFormula := formula
  typePriorities := Relation.all.map fun r => ⟨r, r.priority⟩
  periodCount := shape.periodCount
  yearsPerPeriod := shape.yearsPerPeriod
  placement := placement

end Policy

end Almanac
