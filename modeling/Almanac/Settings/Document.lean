import Almanac.Settings.Basic
import Almanac.Toml.Reader

/-!
# Settings as a document

Settings are kept as a TOML document with a table for each of the four parts.  Reading
gives every value that is missing its default and skips what it does not know; writing
puts every value down.
-/

namespace Almanac

/-! ## Reading -/

namespace Toml.Value

def logSettings? (v : Value) : Option LogSettings := do
  return { level := ← part text? ({} : LogSettings).level v 0 "level" }

def shape? (v : Value) : Option Ranking.Shape := do
  let absent : Ranking.Shape := {}
  return {
    periodCount := ← part word? absent.periodCount v 0 "period_count"
    yearsPerPeriod := ← part word? absent.yearsPerPeriod v 1 "years_per_period_cap" }

def cacheSettings? (v : Value) : Option CacheSettings := do
  let absent : CacheSettings := {}
  return {
    rawTtl := ← part word? absent.rawTtl v 0 "raw_cache_ttl_seconds"
    localCapacity := ← part word? absent.localCapacity v 1 "local_capacity"
    localTtl := ← part word? absent.localTtl v 2 "local_ttl_seconds" }

def pipelineSettings? (v : Value) : Option PipelineSettings := do
  let absent : PipelineSettings := {}
  return {
    deadlineMillis := ← part word? absent.deadlineMillis v 0 "deadline_ms"
    maxFetches := ← part word? absent.maxFetches v 1 "max_concurrent_fetches" }

def settings? (v : Value) : Option Settings := do
  return {
    logging := ← part logSettings? {} v 0 "logging"
    ranking := ← part shape? {} v 1 "ranking"
    cache := ← part cacheSettings? {} v 2 "cache"
    pipeline := ← part pipelineSettings? {} v 3 "pipeline" }

end Toml.Value

namespace Settings

def ofToml? (s : String) : Option Settings := (Toml.read s).bind Toml.Value.settings?

/-! ## Writing -/

/-- A table of a document: a header, and a line for each value. -/
def tomlTable (name : String) (lines : List (String × List Char)) : List Char :=
  ['['] ++ name.toList ++ [']', '\n']
    ++ lines.flatMap fun (name, value) => name.toList ++ [' ', '=', ' '] ++ value ++ ['\n']

def toToml (s : Settings) : List Char :=
  let number (n : UInt64) : List Char := Text.digits n.toNat
  tomlTable "logging" [("level", Toml.quoted s.logging.level)]
    ++ ['\n']
    ++ tomlTable "ranking"
      [("period_count", number s.ranking.periodCount),
        ("years_per_period_cap", number s.ranking.yearsPerPeriod)]
    ++ ['\n']
    ++ tomlTable "cache"
      [("raw_cache_ttl_seconds", number s.cache.rawTtl),
        ("local_capacity", number s.cache.localCapacity),
        ("local_ttl_seconds", number s.cache.localTtl)]
    ++ ['\n']
    ++ tomlTable "pipeline"
      [("deadline_ms", number s.pipeline.deadlineMillis),
        ("max_concurrent_fetches", number s.pipeline.maxFetches)]

def numbers (s : Settings) : List UInt64 :=
  [s.ranking.periodCount, s.ranking.yearsPerPeriod, s.cache.rawTtl, s.cache.localCapacity,
    s.cache.localTtl, s.pipeline.deadlineMillis, s.pipeline.maxFetches]

/-- The document of settings whose numbers all fit into it: its integers have a sign. -/
def document (s : Settings) : Except Fault String :=
  if s.numbers.all (·.toNat < UInt64.size / 2) then .ok (String.ofList s.toToml)
  else .error .unwritable

end Settings

end Almanac
