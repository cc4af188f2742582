import Mathlib
import Almanac.Settings.Sources

/-!
# Which source decides a setting

Settings are loaded from one file at most (`Consulted`), and every setting is what its
variable says, else what the file says, else its default (`Merged`).  Loading gives the
settings that are merged so and pass the check, and an error if there are none:
`load_layers`.
-/

namespace Almanac

theorem Text.trim_eq_nil_iff {cs : List Char} : trim cs = [] ↔ ∀ c ∈ cs, isBlank c = true := by
  rw [trim, trimEnd, List.reverse_eq_nil_iff, List.dropWhile_eq_nil_iff]
  constructor
  · intro h c hc
    by_contra hblank
    -- The first character that is no blank begins what trimming leaves.
    have hmem : c ∈ trimStart cs := by
      rw [← List.takeWhile_append_dropWhile (p := isBlank) (l := cs), List.mem_append] at hc
      exact hc.resolve_left fun h => hblank (List.mem_takeWhile_imp h)
    exact hblank (h c (List.mem_reverse.mpr hmem))
  · intro h c hc
    exact h c ((List.dropWhile_sublist _).subset (List.mem_reverse.mp hc))

/-! ## What a document says -/

namespace Toml.Value

variable {α β : Type} {read : Value → Option α} {absent a : α} {v : Value} {place : Nat}
  {name : String}

/-- A value is read from what is there, and is the absent one if nothing is. -/
def Tells (read : Value → Option α) (absent : α) : Option Value → α → Prop
  | none, a => a = absent
  | some x, a => read x = some a

theorem part_eq_some_iff :
    part read absent v place name = some a ↔
      ∃ x?, v.part? place name = some x? ∧ Tells read absent x? a := by
  rw [part]
  rcases v.part? place name with _ | _ | x
  · simp
  · simp [Tells, eq_comm]
  · simp [Tells]

theorem Tells.unique {b : α} {x? : Option Value} (ha : Tells read absent x? a)
    (hb : Tells read absent x? b) : a = b := by
  cases x? with
  | none => exact ha.trans hb.symm
  | some x => exact Option.some.inj (ha.symm.trans hb)

end Toml.Value

namespace Settings

open Toml (Value)
open Toml.Value (Tells)

variable {s s' : Sources} {files files' : Files} {env : Environment} {c c' : Settings}

structure Slot where
  place : Nat
  name : String

def said? (table slot : Slot) (doc : Value) : Option Value :=
  match doc.part? table.place table.name with
  | some (some t) => (t.part? slot.place slot.name).join
  | _ => none

inductive Number where
  | periodCount
  | yearsPerPeriod
  | rawTtl
  | localCapacity
  | localTtl
  | deadline
  | maxFetches

namespace Number

def get (s : Settings) : Number → UInt64
  | periodCount => s.ranking.periodCount
  | yearsPerPeriod => s.ranking.yearsPerPeriod
  | rawTtl => s.cache.rawTtl
  | localCapacity => s.cache.localCapacity
  | localTtl => s.cache.localTtl
  | deadline => s.pipeline.deadlineMillis
  | maxFetches => s.pipeline.maxFetches

def table : Number → Slot
  | periodCount => ⟨1, "ranking"⟩
  | yearsPerPeriod => ⟨1, "ranking"⟩
  | rawTtl => ⟨2, "cache"⟩
  | localCapacity => ⟨2, "cache"⟩
  | localTtl => ⟨2, "cache"⟩
  | deadline => ⟨3, "pipeline"⟩
  | maxFetches => ⟨3, "pipeline"⟩

def slot : Number → Slot
  | periodCount => ⟨0, "period_count"⟩
  | yearsPerPeriod => ⟨1, "years_per_period_cap"⟩
  | rawTtl => ⟨0, "raw_cache_ttl_seconds"⟩
  | localCapacity => ⟨1, "local_capacity"⟩
  | localTtl => ⟨2, "local_ttl_seconds"⟩
  | deadline => ⟨0, "deadline_ms"⟩
  | maxFetches => ⟨1, "max_concurrent_fetches"⟩

def variableName? : Number → Option String
  | periodCount => some "FORTUNE_PERIOD_COUNT"
  | yearsPerPeriod => some "FORTUNE_YEARS_PER_PERIOD_CAP"
  | rawTtl => some "FORTUNE_RAW_CACHE_TTL_SECONDS"
  | _ => none

def override? (env : Environment) (n : Number) : Option String := n.variableName?.bind env

/-- A number is what its variable says, else what the document says, else the default. -/
def Layered (env : Environment) (doc : Option Value) (n : Number) (x : UInt64) : Prop :=
  match n.override? env with
  | some text => Text.readWord (Text.trim text.toList) = .ok x
  | none => Tells Value.word? (n.get {}) (doc.bind (said? n.table n.slot)) x

end Number

/-- The slots of the only text among the settings. -/
def levelTable : Slot := ⟨0, "logging"⟩

def levelSlot : Slot := ⟨0, "level"⟩

/-- Every setting is what the first layer says that says anything about it: the
environment, the document, the defaults. -/
structure Merged (env : Environment) (doc : Option Value) (c : Settings) : Prop where
  numbers : ∀ n : Number, n.Layered env doc (n.get c)
  level : Tells Value.text? "info" (doc.bind (said? levelTable levelSlot)) c.logging.level

/-- Settings are their numbers and their level. -/
theorem ext_numbers (hnumbers : ∀ n : Number, n.get c = n.get c')
    (hlevel : c.logging.level = c'.logging.level) : c = c' := by
  obtain ⟨⟨level⟩, ⟨periods, years⟩, ⟨raw, capacity, ttl⟩, ⟨deadline, fetches⟩⟩ := c
  obtain ⟨⟨level'⟩, ⟨periods', years'⟩, ⟨raw', capacity', ttl'⟩, ⟨deadline', fetches'⟩⟩ := c'
  obtain rfl : periods = periods' := hnumbers .periodCount
  obtain rfl : years = years' := hnumbers .yearsPerPeriod
  obtain rfl : raw = raw' := hnumbers .rawTtl
  obtain rfl : capacity = capacity' := hnumbers .localCapacity
  obtain rfl : ttl = ttl' := hnumbers .localTtl
  obtain rfl : deadline = deadline' := hnumbers .deadline
  obtain rfl : fetches = fetches' := hnumbers .maxFetches
  obtain rfl : level = level' := hlevel
  rfl

/-! ## Documents -/

section

variable {t : Value}

theorem parts_of_logSettings {r : LogSettings} (h : t.logSettings? = some r) :
    t.part Value.text? "info" 0 "level" = some r.level := by
  simp only [Value.logSettings?, Option.bind_eq_bind, Option.pure_def, Option.bind_eq_some_iff,
    Option.some.injEq] at h
  obtain ⟨level, hlevel, rfl⟩ := h
  exact hlevel

theorem parts_of_shape {r : Ranking.Shape} (h : t.shape? = some r) :
    t.part Value.word? 10 0 "period_count" = some r.periodCount ∧
      t.part Value.word? 3 1 "years_per_period_cap" = some r.yearsPerPeriod := by
  simp only [Value.shape?, Option.bind_eq_bind, Option.pure_def, Option.bind_eq_some_iff,
    Option.some.injEq] at h
  obtain ⟨periods, hperiods, years, hyears, rfl⟩ := h
  exact ⟨hperiods, hyears⟩

theorem parts_of_cacheSettings {r : CacheSettings} (h : t.cacheSettings? = some r) :
    t.part Value.word? 2592000 0 "raw_cache_ttl_seconds" = some r.rawTtl ∧
      t.part Value.word? 1024 1 "local_capacity" = some r.localCapacity ∧
      t.part Value.word? 3600 2 "local_ttl_seconds" = some r.localTtl := by
  simp only [Value.cacheSettings?, Option.bind_eq_bind, Option.pure_def, Option.bind_eq_some_iff,
    Option.some.injEq] at h
  obtain ⟨raw, hraw, capacity, hcapacity, ttl, httl, rfl⟩ := h
  exact ⟨hraw, hcapacity, httl⟩

theorem parts_of_pipelineSettings {r : PipelineSettings} (h : t.pipelineSettings? = some r) :
    t.part Value.word? 5000 0 "deadline_ms" = some r.deadlineMillis ∧
      t.part Value.word? 32 1 "max_concurrent_fetches" = some r.maxFetches := by
  simp only [Value.pipelineSettings?, Option.bind_eq_bind, Option.pure_def,
    Option.bind_eq_some_iff, Option.some.injEq] at h
  obtain ⟨deadline, hdeadline, fetches, hfetches, rfl⟩ := h
  exact ⟨hdeadline, hfetches⟩

theorem tells_said {α β : Type} {readTable : Value → Option β} {absentTable r : β}
    {read : Value → Option α} {absent a : α} {doc : Value} {table slot : Slot}
    (htable : doc.part readTable absentTable table.place table.name = some r)
    (habsent : r = absentTable → a = absent)
    (hslot : ∀ t, readTable t = some r → t.part read absent slot.place slot.name = some a) :
    Tells read absent (said? table slot doc) a := by
  obtain ⟨x?, hx, htells⟩ := Value.part_eq_some_iff.mp htable
  rw [said?, hx]
  cases x? with
  | none => exact habsent htells
  | some t =>
      obtain ⟨y?, hy, htold⟩ := Value.part_eq_some_iff.mp (hslot t htells)
      show Tells read absent (t.part? slot.place slot.name).join a
      rw [hy]
      exact htold

theorem tells_settings {doc : Value} (h : doc.settings? = some c) :
    (∀ n : Number, Tells Value.word? (n.get {}) (said? n.table n.slot doc) (n.get c)) ∧
      Tells Value.text? "info" (said? levelTable levelSlot doc) c.logging.level := by
  simp only [Value.settings?, Option.bind_eq_bind, Option.pure_def, Option.bind_eq_some_iff,
    Option.some.injEq] at h
  obtain ⟨logging, hlogging, ranking, hranking, cache, hcache, pipeline, hpipeline, rfl⟩ := h
  refine ⟨fun n => ?_, tells_said hlogging (congrArg _) fun t => parts_of_logSettings⟩
  cases n with
  | periodCount =>
      exact tells_said hranking (congrArg Ranking.Shape.periodCount) fun t ht =>
        (parts_of_shape ht).1
  | yearsPerPeriod =>
      exact tells_said hranking (congrArg Ranking.Shape.yearsPerPeriod) fun t ht =>
        (parts_of_shape ht).2
  | rawTtl =>
      exact tells_said hcache (congrArg CacheSettings.rawTtl) fun t ht =>
        (parts_of_cacheSettings ht).1
  | localCapacity =>
      exact tells_said hcache (congrArg CacheSettings.localCapacity) fun t ht =>
        (parts_of_cacheSettings ht).2.1
  | localTtl =>
      exact tells_said hcache (congrArg CacheSettings.localTtl) fun t ht =>
        (parts_of_cacheSettings ht).2.2
  | deadline =>
      exact tells_said hpipeline (congrArg PipelineSettings.deadlineMillis) fun t ht =>
        (parts_of_pipelineSettings ht).1
  | maxFetches =>
      exact tells_said hpipeline (congrArg PipelineSettings.maxFetches) fun t ht =>
        (parts_of_pipelineSettings ht).2

end

/-- What stands in the file that is consulted, if there is such a file. -/
inductive Document (files : Files) : Option String → Option Value → Prop where
  | unnamed : Document files none none
  | missing {path : String} (gone : files.has path = false) : Document files (some path) none
  | read {path text : String} {doc : Value} (there : files.has path = true)
      (held : files.text path = .ok text) (parsed : Toml.read text = some doc)
      (shaped : ∃ c, doc.settings? = some c) : Document files (some path) (some doc)

theorem Document.unique {path : Option String} {doc doc' : Option Value}
    (h : Document files path doc) (h' : Document files path doc') : doc = doc' := by
  cases h with
  | unnamed => cases h'; rfl
  | missing gone =>
      cases h' with
      | missing => rfl
      | read there => cases gone.symm.trans there
  | read there held parsed =>
      cases h' with
      | missing gone => cases gone.symm.trans there
      | read _ held' parsed' =>
          obtain rfl := Except.ok.inj (held.symm.trans held')
          exact parsed.symm.trans parsed'

/-- Settings that are read from a file are what its document says. -/
def Stated (doc : Option Value) (c : Settings) : Prop :=
  match doc with
  | none => c = {}
  | some doc => doc.settings? = some c

theorem ofFile_eq_ok_iff {path : String} :
    ofFile files path = .ok c ↔ ∃ doc, Document files (some path) doc ∧ Stated doc c := by
  rw [ofFile]
  rcases hhas : files.has path with _ | _
  · constructor
    · intro h
      exact ⟨none, .missing hhas, (Except.ok.inj h).symm⟩
    · rintro ⟨doc, hdoc, hstated⟩
      cases hdoc with
      | missing gone => rw [show c = {} from hstated]; rfl
      | read there => rw [hhas] at there; contradiction
  · rw [if_pos rfl]
    constructor
    · intro h
      split at h
      · contradiction
      · rename_i text htext
        split at h
        · contradiction
        · rename_i settings hread
          obtain rfl := Except.ok.inj h
          obtain ⟨doc, hdoc, hsettings⟩ := Option.bind_eq_some_iff.mp hread
          exact ⟨some doc, .read hhas htext hdoc ⟨_, hsettings⟩, hsettings⟩
    · rintro ⟨doc, hdoc, hstated⟩
      cases hdoc with
      | missing gone => rw [hhas] at gone; contradiction
      | read there htext hparsed hshaped =>
          have hread : ofToml? _ = some c := Option.bind_eq_some_iff.mpr ⟨_, hparsed, hstated⟩
          simp only [htext, hread]

/-! ## The environment -/

/-- A number is what its variable says, or stays as it was. -/
def Chosen (env : Environment) (name : String) (old x : UInt64) : Prop :=
  match env name with
  | some text => Text.readWord (Text.trim text.toList) = .ok x
  | none => x = old

theorem chosen_iff {name : String} {old x : UInt64} :
    Chosen env name old x ↔ ∃ x?, Settings.override? env name = .ok x? ∧ x?.getD old = x := by
  rw [Chosen, Settings.override?]
  rcases env name with _ | text
  · simp [eq_comm]
  · rcases hread : Text.readWord (Text.trim text.toList) with why | y <;> simp [hread]

theorem overridden_eq_ok_iff {base : Settings} :
    base.overridden env = .ok c ↔
      ∃ periods years ttl, Chosen env periodCountVariable base.ranking.periodCount periods ∧
        Chosen env yearsPerPeriodVariable base.ranking.yearsPerPeriod years ∧
        Chosen env rawTtlVariable base.cache.rawTtl ttl ∧
        c = { base with
          ranking := ⟨periods, years⟩
          cache := { base.cache with rawTtl := ttl } } := by
  simp only [chosen_iff, overridden]
  constructor
  · intro h
    rcases hperiods : Settings.override? env periodCountVariable with e | periods
    · rw [hperiods] at h
      contradiction
    rcases hyears : Settings.override? env yearsPerPeriodVariable with e | years
    · rw [hperiods, hyears] at h
      contradiction
    rcases httl : Settings.override? env rawTtlVariable with e | ttl
    · rw [hperiods, hyears, httl] at h
      contradiction
    rw [hperiods, hyears, httl] at h
    exact ⟨_, _, _, ⟨periods, rfl, rfl⟩, ⟨years, rfl, rfl⟩, ⟨ttl, rfl, rfl⟩, (Except.ok.inj h).symm⟩
  · rintro ⟨_, _, _, ⟨periods, hperiods, rfl⟩, ⟨years, hyears, rfl⟩, ⟨ttl, httl, rfl⟩, rfl⟩
    rw [hperiods, hyears, httl]
    rfl

theorem Number.Layered.unique {doc : Option Value} {n : Number} {x y : UInt64}
    (hx : n.Layered env doc x) (hy : n.Layered env doc y) : x = y := by
  rw [Layered] at hx hy
  rcases hover : n.override? env with _ | text <;> rw [hover] at hx hy
  · exact Tells.unique hx hy
  · exact Except.ok.inj (hx.symm.trans hy)

theorem Merged.unique {doc : Option Value} (h : Merged env doc c) (h' : Merged env doc c') :
    c = c' := by
  apply ext_numbers
  · intro n
    exact (h.numbers n).unique (h'.numbers n)
  · exact Tells.unique h.level h'.level

theorem Stated.tells {doc : Option Value} (h : Stated doc c) :
    (∀ n : Number, Tells Value.word? (n.get {}) (doc.bind (said? n.table n.slot)) (n.get c)) ∧
      Tells Value.text? "info" (doc.bind (said? levelTable levelSlot)) c.logging.level := by
  cases doc with
  | none =>
      obtain rfl : c = {} := h
      exact ⟨fun _ => rfl, rfl⟩
  | some doc => exact tells_settings h

theorem layered_iff {doc : Option Value} {base : Settings} (hbase : Stated doc base) (n : Number)
    (x : UInt64) :
    n.Layered env doc x ↔
      match n.override? env with
      | some text => Text.readWord (Text.trim text.toList) = .ok x
      | none => x = n.get base := by
  rw [Number.Layered]
  split
  · exact Iff.rfl
  · exact ⟨fun h => Tells.unique h (hbase.tells.1 n), fun h => h ▸ hbase.tells.1 n⟩

/-- **Overriding what a file states merges the layers.** -/
theorem merged_iff {doc : Option Value} {base : Settings} (hbase : Stated doc base) :
    Merged env doc c ↔ base.overridden env = .ok c := by
  rw [overridden_eq_ok_iff]
  constructor
  · rintro ⟨hnumbers, hlevel⟩
    simp only [layered_iff hbase] at hnumbers
    refine ⟨_, _, _, hnumbers .periodCount, hnumbers .yearsPerPeriod, hnumbers .rawTtl, ?_⟩
    apply ext_numbers
    · intro n
      cases n with
      | periodCount => rfl
      | yearsPerPeriod => rfl
      | rawTtl => rfl
      | localCapacity => exact hnumbers .localCapacity
      | localTtl => exact hnumbers .localTtl
      | deadline => exact hnumbers .deadline
      | maxFetches => exact hnumbers .maxFetches
    · exact Tells.unique hlevel hbase.tells.2
  · rintro ⟨periods, years, ttl, hperiods, hyears, httl, rfl⟩
    refine ⟨fun n => (layered_iff hbase n _).mpr ?_, hbase.tells.2⟩
    cases n with
    | periodCount => exact hperiods
    | yearsPerPeriod => exact hyears
    | rawTtl => exact httl
    | _ => rfl

/-! ## Files -/

/-- The file that is consulted: the one that was asked for, else the one that the environment
names unless the name is blank, else the user's own if it is there. -/
inductive Consulted (s : Sources) (files : Files) : Option String → Prop where
  | asked {path : String} (asked : s.asked = some path) : Consulted s files (some path)
  | named {path : String} (unasked : s.asked = none) (set : s.environment fileVariable = some path)
      (notBlank : ∃ c ∈ path.toList, Text.isBlank c = false) : Consulted s files (some path)
  | own {folder : String} (unasked : s.asked = none)
      (unnamed : ∀ path, s.environment fileVariable = some path →
        ∀ c ∈ path.toList, Text.isBlank c = true)
      (kept : s.folder = some folder) (there : files.has (userFile folder) = true) :
      Consulted s files (some (userFile folder))
  | nothing (unasked : s.asked = none)
      (unnamed : ∀ path, s.environment fileVariable = some path →
        ∀ c ∈ path.toList, Text.isBlank c = true)
      (missing : ∀ folder, s.folder = some folder → files.has (userFile folder) = false) :
      Consulted s files none

theorem named?_eq (s : Sources) :
    (∃ path, s.named? = some path ∧ s.environment fileVariable = some path ∧
        ∃ c ∈ path.toList, Text.isBlank c = false) ∨
      s.named? = none ∧ ∀ path, s.environment fileVariable = some path →
        ∀ c ∈ path.toList, Text.isBlank c = true := by
  rw [Sources.named?]
  rcases s.environment fileVariable with _ | path
  · exact .inr ⟨rfl, nofun⟩
  · rcases hblank : (Text.trim path.toList).isEmpty with _ | _
    · left
      refine ⟨path, by simp [Option.filter, hblank], rfl, ?_⟩
      by_contra hall
      rw [Text.trim_eq_nil_iff.mpr fun c hc => by
        by_contra hne
        exact hall ⟨c, hc, Bool.eq_false_iff.mpr hne⟩] at hblank
      contradiction
    · right
      refine ⟨by simp [Option.filter, hblank], ?_⟩
      rintro _ ⟨rfl⟩
      exact Text.trim_eq_nil_iff.mp (List.isEmpty_iff.mp hblank)

theorem own?_eq (s : Sources) (files : Files) :
    (∃ folder, s.own? files = some (userFile folder) ∧ s.folder = some folder ∧
        files.has (userFile folder) = true) ∨
      s.own? files = none ∧ ∀ folder, s.folder = some folder →
        files.has (userFile folder) = false := by
  rw [Sources.own?]
  rcases s.folder with _ | folder
  · exact .inr ⟨rfl, nofun⟩
  · rcases hhas : files.has (userFile folder) with _ | _
    · right
      refine ⟨by simp [Option.filter, hhas], ?_⟩
      rintro _ ⟨rfl⟩
      exact hhas
    · exact .inl ⟨folder, by simp [Option.filter, hhas], rfl, hhas⟩

theorem consulted_path? (s : Sources) (files : Files) : Consulted s files (s.path? files) := by
  rw [Sources.path?]
  rcases hasked : s.asked with _ | path
  · rcases named?_eq s with ⟨path, hnamed, hset, hblank⟩ | ⟨hnamed, hunnamed⟩
    · rw [hnamed]
      exact .named hasked hset hblank
    · rw [hnamed]
      rcases own?_eq s files with ⟨folder, hown, hkept, hthere⟩ | ⟨hown, hmissing⟩
      · rw [hown]
        exact .own hasked hunnamed hkept hthere
      · rw [hown]
        exact .nothing hasked hunnamed hmissing
  · exact .asked hasked

/-- **One file at most is consulted.** -/
theorem Consulted.unique {p q : Option String} (hp : Consulted s files p)
    (hq : Consulted s files q) : p = q := by
  -- Each source is asked only if those before it name nothing.
  cases hp with
  | asked hasked =>
      cases hq with
      | asked hasked' => exact hasked.symm.trans hasked'
      | named unasked => cases hasked.symm.trans unasked
      | own unasked => cases hasked.symm.trans unasked
      | nothing unasked => cases hasked.symm.trans unasked
  | named unasked set notBlank =>
      obtain ⟨c, hc, hblank⟩ := notBlank
      cases hq with
      | asked hasked => cases hasked.symm.trans unasked
      | named _ set' => exact set.symm.trans set'
      | own _ unnamed => cases hblank.symm.trans (unnamed _ set c hc)
      | nothing _ unnamed => cases hblank.symm.trans (unnamed _ set c hc)
  | own unasked unnamed kept there =>
      cases hq with
      | asked hasked => cases hasked.symm.trans unasked
      | named _ set notBlank =>
          obtain ⟨c, hc, hblank⟩ := notBlank
          cases hblank.symm.trans (unnamed _ set c hc)
      | own _ _ kept' => rw [Option.some.inj (kept.symm.trans kept')]
      | nothing _ _ missing => cases there.symm.trans (missing _ kept)
  | nothing unasked unnamed missing =>
      cases hq with
      | asked hasked => cases hasked.symm.trans unasked
      | named _ set notBlank =>
          obtain ⟨c, hc, hblank⟩ := notBlank
          cases hblank.symm.trans (unnamed _ set c hc)
      | own _ _ kept there => cases there.symm.trans (missing _ kept)
      | nothing => rfl

/-! ## Loading -/

theorem ofSources_eq_ok_iff {path : Option String} (hpath : Consulted s files path) :
    ofSources s files = .ok c ↔ ∃ doc, Document files path doc ∧ Stated doc c := by
  obtain rfl := (consulted_path? s files).unique hpath
  rw [ofSources]
  rcases s.path? files with _ | path
  · constructor
    · intro h
      exact ⟨none, .unnamed, (Except.ok.inj h).symm⟩
    · rintro ⟨doc, hdoc, hstated⟩
      cases hdoc
      rw [show c = {} from hstated]
  · exact ofFile_eq_ok_iff

theorem load_eq_ok_iff {path : Option String} (hpath : Consulted s files path) :
    load s files = .ok c ↔ c.check = .ok () ∧
      ∃ doc, Document files path doc ∧ Merged s.environment doc c := by
  constructor
  · intro h
    rcases hread : ofSources s files with e | base
    · rw [load, hread] at h
      contradiction
    rcases hover : base.overridden s.environment with e | settings
    · simp only [load, hread, bind, Except.bind, hover, Except.mapError] at h
      contradiction
    rcases hcheck : settings.check with e | u
    · simp only [load, hread, bind, Except.bind, hover, Except.mapError, hcheck] at h
      contradiction
    simp only [load, hread, bind, Except.bind, hover, Except.mapError, hcheck] at h
    obtain rfl := Except.ok.inj h
    obtain ⟨doc, hdoc, hstated⟩ := (ofSources_eq_ok_iff hpath).mp hread
    exact ⟨hcheck, doc, hdoc, (merged_iff hstated).mpr hover⟩
  · rintro ⟨hcheck, doc, hdoc, hmerged⟩
    obtain ⟨base, hbase⟩ : ∃ base, Stated doc base := by
      cases hdoc with
      | unnamed => exact ⟨{}, rfl⟩
      | missing => exact ⟨{}, rfl⟩
      | read _ _ _ shaped => exact shaped
    have hread := (ofSources_eq_ok_iff hpath).mpr ⟨doc, hdoc, hbase⟩
    have hover := (merged_iff hbase).mp hmerged
    simp only [load, hread, bind, Except.bind, hover, Except.mapError, hcheck]
    rfl

/-- Two environments override every number alike. -/
def SameOverrides (env env' : Environment) : Prop :=
  ∀ n : Number, n.override? env' = n.override? env

theorem overridden_congr {env' : Environment} (h : SameOverrides env env') (base : Settings) :
    base.overridden env' = base.overridden env := by
  have hperiods : env' periodCountVariable = env periodCountVariable := h .periodCount
  have hyears : env' yearsPerPeriodVariable = env yearsPerPeriodVariable := h .yearsPerPeriod
  have httl : env' rawTtlVariable = env rawTtlVariable := h .rawTtl
  simp only [overridden, Settings.override?, hperiods, hyears, httl]

theorem ofFile_congr {path : String} (h : files' path = files path) :
    ofFile files' path = ofFile files path := by
  have hhas : files'.has path = files.has path := by rw [Files.has, Files.has, h]
  have htext : files'.text path = files.text path := by rw [Files.text, Files.text, h]
  rw [ofFile, ofFile, hhas, htext]

/-- What is loaded hangs on the file that is consulted and on the overrides. -/
theorem load_congr {path : Option String} (hpath : Consulted s files path)
    (hpath' : Consulted s' files' path) (hfile : ∀ p, path = some p → files' p = files p)
    (hover : SameOverrides s.environment s'.environment) : load s' files' = load s files := by
  have hread : ofSources s' files' = ofSources s files := by
    rw [ofSources, ofSources, (consulted_path? s files).unique hpath,
      (consulted_path? s' files').unique hpath']
    rcases path with _ | path
    · rfl
    · exact ofFile_congr (hfile path rfl)
  simp only [load, hread, overridden_congr hover]

theorem exists_error_of {α : Type} {r : Except Complaint α} (h : ∀ a, r ≠ .ok a) :
    ∃ e, r = .error e := by
  cases r with
  | error e => exact ⟨e, rfl⟩
  | ok a => exact absurd rfl (h a)

/-- **Settings come from one file at most, below the environment and above the defaults.**
Nothing but that file and the overrides counts.  What is loaded passes the check, and every
setting is decided by the first layer that says anything about it.  A file that is there but
states no settings, an override that is no number, or merged settings that fail the check
give an error. -/
theorem load_layers (s : Sources) (files : Files) :
    ∃ path, (∀ path', Consulted s files path' ↔ path' = path) ∧
      (∀ s' files', Consulted s' files' path → (∀ p, path = some p → files' p = files p) →
        SameOverrides s.environment s'.environment → load s' files' = load s files) ∧
      (∀ c, load s files = .ok c ↔
        c.check = .ok () ∧ ∃ doc, Document files path doc ∧ Merged s.environment doc c) ∧
      (∀ p, path = some p → files.has p = true →
        (∀ text, files.text p = .ok text → ofToml? text = none) →
          ∃ e, load s files = .error e) ∧
      (∀ (n : Number) (text : String), n.override? s.environment = some text →
        (∀ x, Text.readWord (Text.trim text.toList) ≠ .ok x) → ∃ e, load s files = .error e) ∧
      ∀ doc c, Document files path doc → Merged s.environment doc c → c.check ≠ .ok () →
        ∃ e, load s files = .error e := by
  have hpath := consulted_path? s files
  refine ⟨s.path? files, fun path' => ⟨fun h => h.unique hpath, fun h => h ▸ hpath⟩,
    fun s' files' hpath' hfile hover => load_congr hpath hpath' hfile hover,
    fun c => load_eq_ok_iff hpath, ?_, ?_, ?_⟩
  · intro p hp hthere hsilent
    refine exists_error_of fun c hload => ?_
    obtain ⟨-, doc, hdoc, -⟩ := (load_eq_ok_iff hpath).mp hload
    rw [hp] at hdoc
    cases hdoc with
    | missing gone => cases gone.symm.trans hthere
    | read _ held parsed shaped =>
        obtain ⟨c, hc⟩ := shaped
        have hread := hsilent _ held
        rw [ofToml?, parsed, Option.bind_some, hc] at hread
        contradiction
  · intro n text hset hbad
    refine exists_error_of fun c hload => ?_
    obtain ⟨-, doc, -, hmerged⟩ := (load_eq_ok_iff hpath).mp hload
    have hnumber := hmerged.numbers n
    rw [Number.Layered, hset] at hnumber
    exact hbad _ hnumber
  · intro doc c hdoc hmerged hcheck
    refine exists_error_of fun c' hload => ?_
    obtain ⟨hcheck', doc', hdoc', hmerged'⟩ := (load_eq_ok_iff hpath).mp hload
    obtain rfl := hdoc.unique hdoc'
    obtain rfl := hmerged.unique hmerged'
    exact hcheck hcheck'

/-- A file that is named but missing hides the user's own, and the environment still
overrides. -/
example :
    load ⟨none, fun name =>
        if name = "FORTUNE_CONFIG" then some "gone.toml"
        else if name = "FORTUNE_PERIOD_COUNT" then some " 7 " else none, some "home"⟩
      (fun path =>
        if path = "home/fortune/config.toml" then .ok "[ranking]\nperiod_count = 6".toUTF8
        else .error .notFound) = .ok { ranking := { periodCount := 7 } } := by
  decide +kernel

end Settings

end Almanac
