import Almanac.Json.Record
import Almanac.Profile
import Almanac.Settings.Basic

/-!
# Documents of profiles and settings

The JSON forms of dates, times, profiles and settings.  Dates and times are texts in
their own formats.
-/

namespace Almanac

open Json (Codec Fields Row)

/-- The outcome of a reader of dates or times, with the fault in words. -/
def Calendar.inWords {α : Type} : Except Calendar.Fault α → Except String α
  | .ok a => .ok a
  | .error fault => .error fault.message

def Date.codec : Codec Date :=
  .spelled "a formatted date string" (fun s => Calendar.inWords (Date.ofDocument? s)) Date.text

def TimeOfDay.codec : Codec TimeOfDay :=
  .spelled "a formatted time string" (fun s => Calendar.inWords (TimeOfDay.ofDocument? s))
    TimeOfDay.text

def Json.Codec.named {α : Type} (values : List α) (name : α → String) : Codec α :=
  .choice (values.map fun a => (name a, a)) name

def Gender.codec : Codec Gender := .named [.male, .female] Gender.name

def CalendarKind.codec : Codec CalendarKind := .named [.solar, .lunar] CalendarKind.name

/-- Profiles.  The birth year of a document is taken as it stands. -/
def Profile.codec : Codec Profile :=
  .record "BirthProfile"
    (.cons "birth_date" Date.codec .required <|
      .cons "birth_time" TimeOfDay.codec .required <|
      .cons "gender" Gender.codec .required <|
      .cons "calendar" CalendarKind.codec .required .nil)
    (fun p => (p.birthDate, p.birthTime, p.gender, p.calendar, ()))
    (fun (date, time, gender, calendar, ()) => ⟨date, time, gender, calendar⟩)

/-! ## Settings -/

def LogSettings.codec : Codec LogSettings :=
  let d : LogSettings := {}
  .record "LoggingConfig" (.cons "level" .text (.defaulted d.level) .nil)
    (fun s => (s.level, ())) (fun (level, ()) => ⟨level⟩)

def Ranking.Shape.codec : Codec Ranking.Shape :=
  let d : Ranking.Shape := {}
  .record "RankingConfig"
    (.cons "period_count" .count (.defaulted d.periodCount) <|
      .cons "years_per_period_cap" .count (.defaulted d.yearsPerPeriod) .nil)
    (fun s => (s.periodCount, s.yearsPerPeriod, ()))
    (fun (periods, years, ()) => ⟨periods, years⟩)

def CacheSettings.codec : Codec CacheSettings :=
  let d : CacheSettings := {}
  .record "CacheConfig"
    (.cons "raw_cache_ttl_seconds" .uint64 (.defaulted d.rawTtl) <|
      .cons "local_capacity" .count (.defaulted d.localCapacity) <|
      .cons "local_ttl_seconds" .uint64 (.defaulted d.localTtl) .nil)
    (fun s => (s.rawTtl, s.localCapacity, s.localTtl, ()))
    (fun (rawTtl, capacity, localTtl, ()) => ⟨rawTtl, capacity, localTtl⟩)

def PipelineSettings.codec : Codec PipelineSettings :=
  let d : PipelineSettings := {}
  .record "PipelineConfig"
    (.cons "deadline_ms" .uint64 (.defaulted d.deadlineMillis) <|
      .cons "max_concurrent_fetches" .count (.defaulted d.maxFetches) .nil)
    (fun s => (s.deadlineMillis, s.maxFetches, ()))
    (fun (deadline, fetches, ()) => ⟨deadline, fetches⟩)

def Settings.codec : Codec Settings :=
  .record "TomlConfig"
    (.cons "logging" LogSettings.codec (.defaulted {}) <|
      .cons "ranking" Ranking.Shape.codec (.defaulted {}) <|
      .cons "cache" CacheSettings.codec (.defaulted {}) <|
      .cons "pipeline" PipelineSettings.codec (.defaulted {}) .nil)
    (fun s => (s.logging, s.ranking, s.cache, s.pipeline, ()))
    (fun (logging, ranking, cache, pipeline, ()) => ⟨logging, ranking, cache, pipeline⟩)

end Almanac
