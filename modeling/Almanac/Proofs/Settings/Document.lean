import Mathlib
import Almanac.Proofs.Toml.Lines
import Almanac.Settings.Document

/-!
# Written settings are read back

The document of some settings has four tables, whose lines are read one after another
(`Toml.statements_table`).  The tables that they make have the settings in their places,
so whatever the level and whatever the numbers: `ofToml?_document`.
-/

namespace Almanac

namespace Toml

/-- A line of a table: a bare name, and what is written for a value. -/
structure Line where
  name : String
  written : List Char
  value : Value
  bare : isBareName name = true
  writes : Writes written value

namespace Line

def statement (l : Line) : Statement := .pair ⟨[], l.name⟩ l.value

def ofText (name : String) (bare : isBareName name = true) (s : String) : Line where
  name := name
  written := quoted s
  value := .text s
  bare := bare
  writes := writes_quoted s

def ofWord (name : String) (bare : isBareName name = true) (n : UInt64)
    (hn : n.toNat < UInt64.size / 2) : Line where
  name := name
  written := Text.digits n.toNat
  value := .integer n.toNat
  bare := bare
  writes := writes_digits hn

def text (l : Line) : List Char := l.name.toList ++ ([' ', '=', ' '] ++ l.written)

def table (name : String) (lines : List Line) : List Char :=
  Settings.tomlTable name (lines.map fun l => (l.name, l.written))

theorem table_eq (name : String) (lines : List Line) :
    table name lines
      = '[' :: (name.toList ++ [']']) ++ '\n' :: lines.flatMap fun l => l.text ++ ['\n'] := by
  simp only [table, Settings.tomlTable, List.flatMap_map, text, List.append_assoc,
    List.cons_append, List.nil_append]

theorem statements_text (l : Line) (fuel : Nat) (rest : List Char) :
    statements (fuel + 1) (l.text ++ '\n' :: rest)
      = (statements fuel rest).map (l.statement :: ·) := by
  obtain ⟨c, cs, he, hc⟩ := bareName_cons l.bare
  refine statements_line _ rest fuel ⟨c, cs ++ ([' ', '=', ' '] ++ l.written), ?_,
    isBlank_of_isBare hc, isBare_ne hc (by decide), isBare_ne hc (by decide)⟩ ?_
  · rw [text, he, List.cons_append]
  · rw [text, List.append_assoc, List.append_assoc]
    exact statement_pair l.bare l.writes rest

end Line

theorem Line.noReturn_table {name : String} (hname : isBareName name = true)
    (lines : List Line) : '\r' ∉ Line.table name lines := by
  have hbare : ∀ {n}, isBareName n = true → '\r' ∉ n.toList := fun hn hr =>
    isBare_ne ((isBareName_iff.mp hn).2 _ hr) (by decide) rfl
  have hlines : '\r' ∉ lines.flatMap fun l => l.text ++ ['\n'] := by
    rw [List.mem_flatMap]
    rintro ⟨l, -, hr⟩
    simp [Line.text, hbare l.bare, l.writes.noReturn] at hr
  simp [Line.table_eq, hbare hname, hlines]

theorem Line.length_table (name : String) (lines : List Line) :
    lines.length + 1 ≤ (Line.table name lines).length := by
  have hlines : lines.length ≤ (lines.flatMap fun l => l.text ++ ['\n']).length := by
    induction lines with
    | nil => exact Nat.le_refl _
    | cons l lines ih =>
        rw [List.flatMap_cons, List.length_append, List.length_append, List.length_cons]
        simp only [List.length_singleton]
        omega
  rw [Line.table_eq, List.length_append, List.length_cons, List.length_cons]
  omega

theorem statements_lines (lines : List Line) (fuel : Nat) (rest : List Char) :
    statements (fuel + lines.length) ((lines.flatMap fun l => l.text ++ ['\n']) ++ rest)
      = (statements fuel rest).map (lines.map Line.statement ++ ·) := by
  induction lines with
  | nil => cases h : statements fuel rest <;> simp [h]
  | cons l lines ih =>
      rw [List.flatMap_cons, List.append_assoc, List.append_assoc, List.length_cons,
        ← Nat.add_assoc, List.cons_append, List.nil_append, l.statements_text, ih, Option.map_map]
      rfl

/-- **A table is read line by line**, and then what follows it. -/
theorem statements_table (name : String) (hname : isBareName name = true) (lines : List Line)
    (fuel : Nat) (rest : List Char) :
    statements (fuel + lines.length + 1) (Line.table name lines ++ rest)
      = (statements fuel rest).map fun more =>
        .head ⟨[], name⟩ :: (lines.map Line.statement ++ more) := by
  have hhead := statements_line ('[' :: (name.toList ++ [']']))
    ((lines.flatMap fun l => l.text ++ ['\n']) ++ rest) (s := .head ⟨[], name⟩)
    (fuel + lines.length) ⟨'[', _, rfl, by decide, by decide, by decide⟩ (by
      rw [List.cons_append, List.append_assoc]
      exact statement_head hname _)
  rw [statements_lines, Option.map_map] at hhead
  rw [Line.table_eq, List.append_assoc, List.cons_append]
  exact hhead

end Toml

namespace Settings

open Toml

variable {s : Settings}

structure Fits (s : Settings) : Prop where
  periodCount : s.ranking.periodCount.toNat < UInt64.size / 2
  yearsPerPeriod : s.ranking.yearsPerPeriod.toNat < UInt64.size / 2
  rawTtl : s.cache.rawTtl.toNat < UInt64.size / 2
  localCapacity : s.cache.localCapacity.toNat < UInt64.size / 2
  localTtl : s.cache.localTtl.toNat < UInt64.size / 2
  deadlineMillis : s.pipeline.deadlineMillis.toNat < UInt64.size / 2
  maxFetches : s.pipeline.maxFetches.toNat < UInt64.size / 2

def logLines (s : Settings) : List Line :=
  [.ofText "level" (by decide +kernel) s.logging.level]

def rankingLines (h : s.Fits) : List Line :=
  [.ofWord "period_count" (by decide +kernel) s.ranking.periodCount h.periodCount,
    .ofWord "years_per_period_cap" (by decide +kernel) s.ranking.yearsPerPeriod h.yearsPerPeriod]

def cacheLines (h : s.Fits) : List Line :=
  [.ofWord "raw_cache_ttl_seconds" (by decide +kernel) s.cache.rawTtl h.rawTtl,
    .ofWord "local_capacity" (by decide +kernel) s.cache.localCapacity h.localCapacity,
    .ofWord "local_ttl_seconds" (by decide +kernel) s.cache.localTtl h.localTtl]

def pipelineLines (h : s.Fits) : List Line :=
  [.ofWord "deadline_ms" (by decide +kernel) s.pipeline.deadlineMillis h.deadlineMillis,
    .ofWord "max_concurrent_fetches" (by decide +kernel) s.pipeline.maxFetches h.maxFetches]

theorem toToml_eq (h : s.Fits) :
    s.toToml = Line.table "logging" s.logLines ++ '\n' ::
      (Line.table "ranking" (rankingLines h) ++ '\n' ::
        (Line.table "cache" (cacheLines h) ++ '\n' ::
          (Line.table "pipeline" (pipelineLines h) ++ []))) := by
  rw [toToml, List.append_nil]
  simp only [List.append_assoc]
  rfl

theorem statements_toToml (h : s.Fits) (fuel : Nat) :
    statements (fuel + 16) s.toToml = some
      (.head ⟨[], "logging"⟩ :: s.logLines.map Line.statement ++
        .head ⟨[], "ranking"⟩ :: (rankingLines h).map Line.statement ++
        .head ⟨[], "cache"⟩ :: (cacheLines h).map Line.statement ++
        .head ⟨[], "pipeline"⟩ :: (pipelineLines h).map Line.statement) := by
  have hpipeline : statements (fuel + 4) (Line.table "pipeline" (pipelineLines h) ++ []) = _ :=
    statements_table _ (by decide +kernel) (pipelineLines h) (fuel + 1) []
  have hcache := statements_table "cache" (by decide +kernel) (cacheLines h) (fuel + 5)
    ('\n' :: (Line.table "pipeline" (pipelineLines h) ++ []))
  have hranking := statements_table "ranking" (by decide +kernel) (rankingLines h)
    (fuel + 10) ('\n' :: (Line.table "cache" (cacheLines h) ++ '\n' ::
      (Line.table "pipeline" (pipelineLines h) ++ [])))
  have hlogging := statements_table "logging" (by decide +kernel) s.logLines
    (fuel + 14) ('\n' :: (Line.table "ranking" (rankingLines h) ++ '\n' ::
      (Line.table "cache" (cacheLines h) ++ '\n' ::
        (Line.table "pipeline" (pipelineLines h) ++ []))))
  rw [statements_blank, hpipeline] at hcache
  rw [statements_blank, show fuel + 9 = fuel + 5 + (cacheLines h).length + 1 from rfl,
    hcache] at hranking
  rw [statements_blank, show fuel + 13 = fuel + 10 + (rankingLines h).length + 1 from rfl,
    hranking] at hlogging
  rw [toToml_eq h]
  exact hlogging

def toValue (s : Settings) : Value :=
  .table [
    ("logging", .table [("level", .text s.logging.level)]),
    ("ranking", .table [
      ("period_count", .integer s.ranking.periodCount.toNat),
      ("years_per_period_cap", .integer s.ranking.yearsPerPeriod.toNat)]),
    ("cache", .table [
      ("raw_cache_ttl_seconds", .integer s.cache.rawTtl.toNat),
      ("local_capacity", .integer s.cache.localCapacity.toNat),
      ("local_ttl_seconds", .integer s.cache.localTtl.toNat)]),
    ("pipeline", .table [
      ("deadline_ms", .integer s.pipeline.deadlineMillis.toNat),
      ("max_concurrent_fetches", .integer s.pipeline.maxFetches.toNat)])]

theorem ofStatements_toToml (h : s.Fits) : Draft.Document.ofStatements
      (.head ⟨[], "logging"⟩ :: s.logLines.map Line.statement ++
        .head ⟨[], "ranking"⟩ :: (rankingLines h).map Line.statement ++
        .head ⟨[], "cache"⟩ :: (cacheLines h).map Line.statement ++
        .head ⟨[], "pipeline"⟩ :: (pipelineLines h).map Line.statement) = some s.toValue := by
  rfl

theorem word?_toNat (n : UInt64) : (Value.integer n.toNat).word? = some n := by
  have hlt : ((n.toNat : Nat) : Int) < UInt64.size := by
    exact_mod_cast n.toNat_lt_size
  rw [Value.word?, if_pos ⟨Int.natCast_nonneg _, hlt⟩, Int.toNat_natCast, UInt64.ofNat_toNat]

theorem settings?_toValue (s : Settings) : s.toValue.settings? = some s := by
  simp [toValue, Value.settings?, Value.logSettings?, Value.shape?, Value.cacheSettings?,
    Value.pipelineSettings?, Value.part, Value.part?, List.lookup, Value.text?, word?_toNat]

/-! ## The document as a whole -/

theorem noReturn_toToml (h : s.Fits) : '\r' ∉ s.toToml := by
  rw [toToml_eq h]
  simp only [List.mem_append, List.mem_cons, not_or]
  refine ⟨Line.noReturn_table (by decide +kernel) _, by decide,
    Line.noReturn_table (by decide +kernel) _, by decide,
    Line.noReturn_table (by decide +kernel) _, by decide,
    Line.noReturn_table (by decide +kernel) _, List.not_mem_nil⟩

/-- A document has at least as many characters as lines. -/
theorem length_toToml (h : s.Fits) : 15 ≤ s.toToml.length := by
  have hlogging := Line.length_table "logging" s.logLines
  have hranking := Line.length_table "ranking" (rankingLines h)
  have hcache := Line.length_table "cache" (cacheLines h)
  have hpipeline := Line.length_table "pipeline" (pipelineLines h)
  rw [toToml_eq h]
  simp only [List.length_append, List.length_cons]
  simp only [logLines, rankingLines, cacheLines, pipelineLines, List.length_cons,
    List.length_nil] at hlogging hranking hcache hpipeline ⊢
  omega

/-- **Settings that fit into a document are read back from it.** -/
theorem ofToml?_toToml (h : s.Fits) : ofToml? (String.ofList s.toToml) = some s := by
  obtain ⟨fuel, hfuel⟩ : ∃ fuel, s.toToml.length + 1 = fuel + 16 :=
    ⟨s.toToml.length - 15, by have := length_toToml h; omega⟩
  have hmark : skipByteOrderMark s.toToml = s.toToml := rfl
  rw [ofToml?, Toml.read, String.toList_ofList, hmark, unifyBreaks_eq (noReturn_toToml h), hfuel,
    statements_toToml h, Option.bind_some, ofStatements_toToml h, Option.bind_some,
    settings?_toValue]

theorem fits_iff : s.Fits ↔ ∀ n ∈ s.numbers, n.toNat < UInt64.size / 2 := by
  simp only [numbers, List.forall_mem_cons]
  constructor
  · exact fun h => ⟨h.periodCount, h.yearsPerPeriod, h.rawTtl, h.localCapacity, h.localTtl,
      h.deadlineMillis, h.maxFetches, nofun⟩
  · exact fun ⟨h₁, h₂, h₃, h₄, h₅, h₆, h₇, _⟩ => ⟨h₁, h₂, h₃, h₄, h₅, h₆, h₇⟩

/-- **Settings have a document just if their numbers fit into it.** -/
theorem document_of_fits (h : s.Fits) : s.document = .ok (String.ofList s.toToml) := by
  rw [document, if_pos]
  simpa using fits_iff.mp h

theorem document_of_not_fits (h : ¬s.Fits) : s.document = .error .unwritable := by
  rw [document, if_neg]
  simpa [fits_iff] using h

end Settings

end Almanac
