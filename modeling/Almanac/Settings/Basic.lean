import Almanac.Ranking.Selection
import Almanac.Text.Blank
import Almanac.Text.Digits

/-!
# Settings

What a person can set, with the defaults that are compiled in; the check that every
number makes sense; and the overrides that the environment may hold for single
numbers.
-/

namespace Almanac

structure LogSettings where
  level : String := "info"
  deriving Repr, DecidableEq

/-- How long charts are kept, and how many nearby. -/
structure CacheSettings where
  /-- The life of a chart in the shared store, in seconds. -/
  rawTtl : UInt64 := 2592000
  localCapacity : UInt64 := 1024
  /-- The life of a chart in the local tier, in seconds. -/
  localTtl : UInt64 := 3600
  deriving Repr, DecidableEq

structure PipelineSettings where
  deadlineMillis : UInt64 := 5000
  maxFetches : UInt64 := 32
  deriving Repr, DecidableEq

structure Settings where
  logging : LogSettings := {}
  ranking : Ranking.Shape := {}
  cache : CacheSettings := {}
  pipeline : PipelineSettings := {}
  deriving Repr, DecidableEq

namespace Settings

/-- A number that may be set too low. -/
inductive Bound where
  | periodCount
  | rawTtl
  | localTtl
  | maxFetches
  | deadline
  deriving Repr, DecidableEq

def Bound.message : Bound → String
  | .periodCount => "ranking.period_count must be at least 1"
  | .rawTtl => "cache.raw_cache_ttl_seconds must be greater than 0"
  | .localTtl => "cache.local_ttl_seconds must be greater than 0"
  | .maxFetches => "pipeline.max_concurrent_fetches must be at least 1"
  | .deadline => "pipeline.deadline_ms must be greater than 0"

inductive Fault where
  /-- The file at a path is no settings document. -/
  | unreadable (path : String)
  /-- An override is not a number. -/
  | badOverride (name value : String) (why : Text.NumeralError)
  | outOfBounds (bound : Bound)
  /-- A number is too large for a settings document. -/
  | unwritable
  /-- A fault that someone else found, in their words. -/
  | stated (why : String)
  deriving Repr, DecidableEq

def Fault.message : Fault → String
  | .unreadable path => "Parse " ++ path ++ " failed"
  | .badOverride name value why =>
    name ++ " has invalid value '" ++ value ++ "': " ++ why.message
  | .outOfBounds bound => bound.message
  | .unwritable => "Serialize config failed: out-of-range value for u64 type"
  | .stated why => why

def broken? (s : Settings) : Option Bound :=
  if s.ranking.periodCount = 0 then some .periodCount
  else if s.cache.rawTtl = 0 then some .rawTtl
  else if s.cache.localTtl = 0 then some .localTtl
  else if s.pipeline.maxFetches = 0 then some .maxFetches
  else if s.pipeline.deadlineMillis = 0 then some .deadline
  else none

def check (s : Settings) : Except Fault Unit :=
  match s.broken? with
  | some bound => .error (.outOfBounds bound)
  | none => .ok ()

/-! ## Overrides -/

abbrev Environment := String → Option String

def override? (env : Environment) (name : String) : Except Fault (Option UInt64) :=
  match env name with
  | none => .ok none
  | some value =>
    match Text.readWord (Text.trim value.toList) with
    | .ok n => .ok (some n)
    | .error why => .error (.badOverride name value why)

def periodCountVariable : String := "FORTUNE_PERIOD_COUNT"

def yearsPerPeriodVariable : String := "FORTUNE_YEARS_PER_PERIOD_CAP"

def rawTtlVariable : String := "FORTUNE_RAW_CACHE_TTL_SECONDS"

def overridden (env : Environment) (s : Settings) : Except Fault Settings := do
  let periods ← override? env periodCountVariable
  let years ← override? env yearsPerPeriodVariable
  let ttl ← override? env rawTtlVariable
  return { s with
    ranking :=
      ⟨periods.getD s.ranking.periodCount, years.getD s.ranking.yearsPerPeriod⟩
    cache := { s.cache with rawTtl := ttl.getD s.cache.rawTtl } }

end Settings

end Almanac
