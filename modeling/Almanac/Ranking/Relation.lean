import Almanac.Text.Blank

/-!
# Relations of notable years

A notable year carries a tag that says how it stands to the chart.  Tags come in
several spellings; every tag belongs to exactly one of four relations, which are
ordered by importance.
-/

namespace Almanac

/-- How a notable year stands to the chart. -/
inductive Relation where
  | criticalClash
  | harmoniousCombination
  | coincidentCycle
  | other
  deriving Repr, DecidableEq

namespace Relation

def all : List Relation := [criticalClash, harmoniousCombination, coincidentCycle, other]

def name : Relation → String
  | criticalClash => "critical_clash"
  | harmoniousCombination => "harmonious_combination"
  | coincidentCycle => "coincident_cycle"
  | other => "other"

/-- The rank of a relation among the others; the lowest counts most. -/
def priority : Relation → UInt32
  | criticalClash => 1
  | harmoniousCombination => 2
  | coincidentCycle => 3
  | other => 4

/-! ## Tags -/

/-- A character of a tag with its spelling evened out: hyphens and spaces stand for
underscores, ASCII capitals for small letters. -/
def evened (c : Char) : Char := if c = '-' ∨ c = ' ' then '_' else c.toLower

def canonicalTag (tag : String) : String := String.ofList ((Text.trim tag.toList).map evened)

/-- The tags of a relation; the last relation takes all tags that no other has. -/
def tags : Relation → List String
  | criticalClash => ["critical_clash", "clash", "tian_ke_di_chong", "天克地冲"]
  | harmoniousCombination =>
    ["harmonious_combination", "combination", "tian_he_di_he", "天合地合"]
  | coincidentCycle => ["coincident_cycle", "sui_yun_bing_lin", "岁运并临"]
  | other => []

def ofTag (tag : String) : Relation :=
  (all.find? fun r => decide (canonicalTag tag ∈ r.tags)).getD other

example : ofTag " Tian-Ke Di_Chong\n" = criticalClash := by decide +kernel
example : ofTag "clash of elements" = other := by decide +kernel

end Relation

end Almanac
