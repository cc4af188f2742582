import Mathlib
import Almanac.CommandLine.Run
import Almanac.Proofs.CommandLine.Arguments
import Almanac.Proofs.Json.Scan
import Almanac.Proofs.Pipeline.Snapshot

/-!
# The program's answers

`Verdict` says what comes of arguments with a date to look from, by the first check that
fails.  The program answers with the verdict, in one document and with the exit code that
belongs to it (`run_answers`), unless it breaks down because it is set to make more calls
at once than there can be permits.
-/

namespace Almanac

/-- A text that is one document, which holds a value; blanks may follow it. -/
def Json.IsDocument (text : String) (j : Json) : Prop :=
  ∃ rest, Tree.ofText text.toList = (.of j, some rest) ∧ skipSpace rest = []

namespace CommandLine

open Json (IsDocument)

variable {args args' : List String} {w : Surroundings} {a a' : Arguments} {reference : String}
  {loaded : Settings} {shape : Ranking.Shape} {r : Except Failure Report}

/-! ## Verdicts -/

structure Reads (a : Arguments) (reference : String) (files : Files) (profile : Profile)
    (date : Date) (snapshot : Snapshot) : Prop where
  profile : Profile.parse a.birthDate a.birthTime a.gender a.calendar = .ok profile
  date : Profile.readDate reference = .ok date
  snapshot : ∃ text, files.text a.chart = .ok text ∧
    Snapshot.codec.decodeText text = .ok snapshot

/-- What comes of arguments, by the first check that fails. -/
inductive Verdict (a : Arguments) (reference : String) (files : Files) (shape : Ranking.Shape) :
    Except Failure Report → Prop where
  | badProfile {fault : Profile.Fault}
      (profile : Profile.parse a.birthDate a.birthTime a.gender a.calendar = .error fault) :
      Verdict a reference files shape (.error (.invalidProfile fault))
  | badDate {p : Profile} {fault : Profile.Fault}
      (profile : Profile.parse a.birthDate a.birthTime a.gender a.calendar = .ok p)
      (date : Profile.readDate reference = .error fault) :
      Verdict a reference files shape (.error (.invalidProfile fault))
  | unreadable {p : Profile} {d : Date} {fault : FileFault}
      (profile : Profile.parse a.birthDate a.birthTime a.gender a.calendar = .ok p)
      (date : Profile.readDate reference = .ok d) (file : files.text a.chart = .error fault) :
      Verdict a reference files shape (.error (.complaint (.file fault)))
  | undecodable {p : Profile} {d : Date} {text : String} {e : Json.ReadError}
      (profile : Profile.parse a.birthDate a.birthTime a.gender a.calendar = .ok p)
      (date : Profile.readDate reference = .ok d) (file : files.text a.chart = .ok text)
      (snapshot : Snapshot.codec.decodeText text = .error e) :
      Verdict a reference files shape (.error (.undecodable e))
  | tooEarly {p : Profile} {d : Date} {s : Snapshot} (reads : Reads a reference files p d s)
      (before : d.isBefore p.birthDate = true) :
      Verdict a reference files shape
        (.error (.invalidProfile (.referenceBeforeBirth d p.birthDate)))
  | noPeriods {p : Profile} {d : Date} {s : Snapshot} (reads : Reads a reference files p d s)
      (after : d.isBefore p.birthDate = false) (none : s.chart.periods = []) :
      Verdict a reference files shape (.error .noPeriods)
  | report {p : Profile} {d : Date} {s : Snapshot} {view : View}
      (reads : Reads a reference files p d s) (after : d.isBefore p.birthDate = false)
      (some : s.chart.periods ≠ []) (rank : Ranking.rank s.chart p.birthDate d shape = .ok view) :
      Verdict a reference files shape
        (.ok ⟨view, s.chart.pillars, Snapshot.part "balance" s.balance,
          Snapshot.part "pillar" s.pillars⟩)

def IsComplete (a : Arguments) (reference : String) (files : Files) : Prop :=
  ∃ profile date snapshot, Reads a reference files profile date snapshot ∧
    date.isBefore profile.birthDate = false ∧ snapshot.chart.periods ≠ []

def direct (a : Arguments) (w : Surroundings) (shape : Ranking.Shape) : Except Failure Report :=
  (order a w).bind fun (o, snapshot) => snapshot.report shape o

theorem Reads.order_eq {p : Profile} {d : Date} {s : Snapshot}
    (href : a.referenceDate = some reference) (h : Reads a reference w.files p d s) :
    order a w = .ok ({ profile := p, reference := d }, s) := by
  obtain ⟨text, hfile, hdecode⟩ := h.snapshot
  simp only [order, CommandLine.profile, referenceDate, href, h.profile, h.date,
    CommandLine.snapshot, hfile, hdecode]
  rfl

/-- An order is made of what can be read, and does not say how long anybody can wait. -/
theorem reads_of_order {o : Order} {s : Snapshot} (href : a.referenceDate = some reference)
    (h : order a w = .ok (o, s)) :
    Reads a reference w.files o.profile o.reference s ∧ o.budget = none := by
  simp only [order, profile, referenceDate, href, snapshot] at h
  rcases hprofile : Profile.parse a.birthDate a.birthTime a.gender a.calendar with fault | p
  · rw [hprofile] at h
    contradiction
  rcases hdate : Profile.readDate reference with fault | d
  · rw [hprofile, hdate] at h
    contradiction
  rcases hfile : w.files.text a.chart with fault | text
  · simp only [hprofile, hdate, hfile] at h
    contradiction
  rcases hdecode : Snapshot.codec.decodeText text with e | s'
  · simp only [hprofile, hdate, hfile, hdecode] at h
    contradiction
  · simp only [hprofile, hdate, hfile, hdecode] at h
    cases h
    exact ⟨⟨hprofile, hdate, text, hfile, hdecode⟩, rfl⟩

theorem Reads.direct_eq {p : Profile} {d : Date} {s : Snapshot}
    (href : a.referenceDate = some reference) (h : Reads a reference w.files p d s) :
    direct a w shape = s.report shape { profile := p, reference := d } := by
  rw [direct, h.order_eq href]
  rfl

/-- **Every verdict is the one that the checks make in their order.** -/
theorem Verdict.eq_direct (href : a.referenceDate = some reference)
    (h : Verdict a reference w.files shape r) : r = direct a w shape := by
  cases h with
  | badProfile hprofile =>
      simp only [direct, order, profile, hprofile]
      rfl
  | badDate hprofile hdate =>
      simp only [direct, order, profile, referenceDate, href, hprofile, hdate]
      rfl
  | unreadable hprofile hdate hfile =>
      simp only [direct, order, profile, referenceDate, href, hprofile, hdate, snapshot, hfile]
      rfl
  | undecodable hprofile hdate hfile hdecode =>
      simp only [direct, order, profile, referenceDate, href, hprofile, hdate, snapshot, hfile,
        hdecode]
      rfl
  | tooEarly hreads hbefore => rw [hreads.direct_eq href, Snapshot.report, if_pos hbefore]
  | noPeriods hreads hafter hnone =>
      rw [hreads.direct_eq href, Snapshot.report, if_neg (Bool.eq_false_iff.mp hafter),
        Ranking.rank_eq_error hnone]
      rfl
  | report hreads hafter hsome hrank =>
      rw [hreads.direct_eq href, Snapshot.report, if_neg (Bool.eq_false_iff.mp hafter), hrank]
      rfl

theorem exists_verdict (a : Arguments) (reference : String) (files : Files)
    (shape : Ranking.Shape) : ∃ r, Verdict a reference files shape r := by
  rcases hprofile : Profile.parse a.birthDate a.birthTime a.gender a.calendar with fault | p
  · exact ⟨_, .badProfile hprofile⟩
  rcases hdate : Profile.readDate reference with fault | d
  · exact ⟨_, .badDate hprofile hdate⟩
  rcases hfile : files.text a.chart with fault | text
  · exact ⟨_, .unreadable hprofile hdate hfile⟩
  rcases hdecode : Snapshot.codec.decodeText text with e | s
  · exact ⟨_, .undecodable hprofile hdate hfile hdecode⟩
  have hreads : Reads a reference files p d s := ⟨hprofile, hdate, text, hfile, hdecode⟩
  by_cases hbefore : d.isBefore p.birthDate = true
  · exact ⟨_, .tooEarly hreads hbefore⟩
  · rw [Bool.not_eq_true] at hbefore
    by_cases hperiods : s.chart.periods = []
    · exact ⟨_, .noPeriods hreads hbefore hperiods⟩
    · obtain ⟨-, view, hrank, -⟩ := Ranking.rank_eq_ok hperiods p.birthDate d shape
      exact ⟨_, .report hreads hbefore hperiods hrank⟩

/-- **There is one verdict**, the direct report. -/
theorem verdict_iff (href : a.referenceDate = some reference) :
    Verdict a reference w.files shape r ↔ r = direct a w shape := by
  constructor
  · exact fun h => h.eq_direct href
  · rintro rfl
    obtain ⟨r, hr⟩ := exists_verdict a reference w.files shape
    rw [← hr.eq_direct href]
    exact hr

theorem Verdict.isOk_iff (href : a.referenceDate = some reference)
    (h : Verdict a reference w.files shape r) : r.isOk = true ↔
      IsComplete a reference w.files := by
  constructor
  · intro hok
    cases h with
    | report hreads hafter hsome hrank => exact ⟨_, _, _, hreads, hafter, hsome⟩
    | _ => cases hok
  · rintro ⟨p, d, s, hreads, hafter, hsome⟩
    obtain ⟨-, view, hrank, -⟩ := Ranking.rank_eq_ok hsome p.birthDate d shape
    rw [h.eq_direct href, ← (Verdict.report hreads hafter hsome hrank).eq_direct href]
    rfl

/-! ## Answers -/

def document : Except Failure Report → Json
  | .ok report => Report.codec.write report
  | .error failure => failure.body

/-- An output that says what came of the arguments: a report with success, a failure with
failure. -/
structure Output.Answers (o : Output) (r : Except Failure Report) : Prop where
  exitCode : o.exitCode = if r.isOk then 0 else 1
  text : IsDocument o.text (document r)

/-- **What is written is one document**, in either layout. -/
theorem isDocument_write (layout : Json.Layout) (j : Json) : IsDocument (write layout j) j := by
  have hend : Json.EndsNumeral ['\n'] :=
    Json.endsNumeral_cons (by decide) (by decide) (by decide) (by decide)
  refine ⟨['\n'], ?_, by decide⟩
  rw [write, String.toList_append, Json.render, String.toList_ofList]
  exact Json.Tree.ofText_write_append layout j hend

theorem answers_refusal (failure : Failure) : (refusal failure).Answers (.error failure) :=
  ⟨rfl, isDocument_write .compact failure.body⟩

/-- The settings in force: the arguments override the shape of the ranking. -/
def inForce (a : Arguments) (loaded : Settings) : Settings :=
  { loaded with
    ranking := ⟨a.periodCount.getD loaded.ranking.periodCount,
      a.cap.getD loaded.ranking.yearsPerPeriod⟩ }

theorem settings_eq
    (hload : Settings.load ⟨a.config, w.environment, w.folder⟩ w.files = .ok loaded)
    (hcheck : (inForce a loaded).check = .ok ()) : settings a w = .ok (inForce a loaded) := by
  rw [inForce] at hcheck ⊢
  simp only [settings, hload, bind, Except.bind, hcheck]
  rfl

theorem deadline_pos {s : Settings} (h : s.check = .ok ()) :
    0 < s.pipeline.deadlineMillis.toNat := by
  have hne : s.pipeline.deadlineMillis ≠ 0 := by
    intro hzero
    have hbroken : s.broken? ≠ none := by
      simp only [Settings.broken?, hzero, if_true]
      repeat' split
      all_goals exact Option.some_ne_none _
    unfold Settings.check at h
    split at h
    · contradiction
    · rename_i hnone
      exact hbroken hnone
  have hpos : s.pipeline.deadlineMillis.toNat ≠ 0 := fun he => hne (UInt64.toNat_inj.mp he)
  omega

theorem report_eq {s : Settings} (h : s.check = .ok ()) {o : Order} (hbudget : o.budget = none)
    (snapshot : Snapshot) : report s o snapshot = snapshot.report s.ranking o := by
  have hempty : ∀ key payload, ¬SharedStore.Holds {} key payload := by
    rintro key payload ⟨e, he, -⟩
    cases he
  refine Snapshot.generate_eq SharedStore.faithful s hempty snapshot ?_
  rw [Pipeline.deadlineFor, hbudget]
  exact deadline_pos h

/-- **Arguments are answered with their direct report**, as long as there can be as many
permits as are asked for. -/
theorem answers_serve {s : Settings} (href : a.referenceDate = some reference)
    (hsettings : settings a w = .ok s) (hcheck : s.check = .ok ())
    (hroom : ∀ p d snapshot, Reads a reference w.files p d snapshot →
      s.pipeline.maxFetches.toNat ≤ Permits.most) :
    (serve a w).Answers (direct a w s.ranking) := by
  rw [serve, hsettings, direct]
  simp only
  rcases horder : order a w with failure | ⟨o, snapshot⟩
  · exact answers_refusal failure
  · obtain ⟨hreads, hbudget⟩ := reads_of_order href horder
    have hnot : ¬Permits.most < s.pipeline.maxFetches.toNat := Nat.not_lt.mpr (hroom _ _ _ hreads)
    simp only [Except.bind, if_neg hnot, report_eq hcheck hbudget]
    cases snapshot.report s.ranking o with
    | ok report => exact ⟨rfl, isDocument_write _ _⟩
    | error failure => exact answers_refusal failure

/-- Once everything is read, the program breaks down if there cannot be as many permits as
are asked for. -/
theorem serve_eq_breakdown {s : Settings} {p : Profile} {d : Date} {snapshot : Snapshot}
    (hsettings : settings a w = .ok s) (hcrowd : Permits.most < s.pipeline.maxFetches.toNat)
    (href : a.referenceDate = some reference) (hreads : Reads a reference w.files p d snapshot) :
    serve a w = breakdown := by
  rw [serve, hsettings, hreads.order_eq href]
  exact if_pos hcrowd

/-- **The program answers with the verdict on its arguments**, unless everything is read and
there cannot be as many permits as are asked for.  The switch for indented texts changes
neither the exit code nor what the document holds. -/
theorem run_answers (hargs : Arguments.ofList args w.environment = .ok a)
    (href : a.referenceDate = some reference)
    (hload : Settings.load ⟨a.config, w.environment, w.folder⟩ w.files = .ok loaded)
    (hcheck : (inForce a loaded).check = .ok ())
    (hroom : ∀ p d snapshot, Reads a reference w.files p d snapshot →
      loaded.pipeline.maxFetches.toNat ≤ Permits.most) :
    ∃ r, (∀ r', Verdict a reference w.files (inForce a loaded).ranking r' ↔ r' = r) ∧
      (run args w).Answers r ∧
      ((run args w).exitCode = 0 ↔ IsComplete a reference w.files) ∧
      ∀ args' a', Arguments.ofList args' w.environment = .ok a' →
        BesidePretty args args' ∨ BesidePretty args' args → (run args' w).Answers r := by
  have hsettings := settings_eq hload hcheck
  have hanswers := answers_serve href hsettings hcheck hroom
  have hrun : run args w = serve a w := by
    rw [run, hargs]
  refine ⟨direct a w (inForce a loaded).ranking, fun _ => verdict_iff href, ?_, ?_, ?_⟩
  · rw [hrun]
    exact hanswers
  · obtain ⟨r, hr⟩ := exists_verdict a reference w.files (inForce a loaded).ranking
    rw [hrun, hanswers.exitCode, ← hr.eq_direct href, ← hr.isOk_iff href]
    cases r.isOk <;> decide
  · intro args' a' hargs' hbeside
    have hrun' : run args' w = serve a' w := by
      rw [run, hargs']
    rw [hrun']
    -- Neither the settings nor the order depend on the switch.
    obtain ⟨pretty, rfl⟩ := Arguments.eq_of_besidePretty hargs hargs' hbeside
    refine answers_serve (a := { a with pretty }) href hsettings hcheck ?_
    intro p d snapshot hreads
    exact hroom p d snapshot ⟨hreads.profile, hreads.date, hreads.snapshot⟩

/-! ## Settings that ask for too many permits -/

def onePeriod : String :=
  "\x7b\"chart\":\x7b\"pillars\":\x7b\"year\":\"庚午\",\"month\":\"辛巳\",\"day\":\"甲子\","
    ++ "\"hour\":\"辛未\"\x7d,\"day_master\":\"甲\",\"periods\":[\x7b\"index\":0,\"label\":\"运\","
    ++ "\"start_year\":1995,\"end_year\":2004,\"start_age\":6,\"end_age\":15,"
    ++ "\"influence\":\"正官\"\x7d],\"years\":[]\x7d\x7d"

def visit : List String :=
  ["--chart", "chart.json", "--birth-date", "1990-05-15", "--gender", "male", "--reference-date",
    "2000-01-01", "--config", "settings.toml"]

def visitArguments : Arguments where
  chart := "chart.json"
  birthDate := "1990-05-15"
  birthTime := "12:00"
  gender := "male"
  calendar := "solar"
  referenceDate := some "2000-01-01"
  config := some "settings.toml"

/-- Surroundings in which the settings file allows a number of calls at once. -/
def allowing (calls : String) : Surroundings where
  environment _ := none
  files path :=
    if path = "chart.json" then .ok onePeriod.toUTF8
    else if path = "settings.toml" then
      .ok ("[pipeline]\nmax_concurrent_fetches = " ++ calls ++ "\n").toUTF8
    else .error .notFound
  folder := none
  today := ⟨2000, 1, 1, by decide⟩

/-- As many calls are allowed as there can be permits. -/
def roomy : Surroundings := allowing "2305843009213693951"

/-- One call more is allowed than there can be permits. -/
def crowded : Surroundings := allowing "2305843009213693952"

theorem run_answers_roomy :
    ∃ r, (∀ r', Verdict visitArguments "2000-01-01" roomy.files {} r' ↔ r' = r) ∧
      (run visit roomy).Answers r ∧
      ((run visit roomy).exitCode = 0 ↔ IsComplete visitArguments "2000-01-01" roomy.files) ∧
      ∀ args' a', Arguments.ofList args' roomy.environment = .ok a' →
        BesidePretty visit args' ∨ BesidePretty args' visit → (run args' roomy).Answers r := by
  have hload : Settings.load ⟨visitArguments.config, roomy.environment, roomy.folder⟩ roomy.files
      = .ok { pipeline := { maxFetches := 2305843009213693951 } } := by decide +kernel
  exact run_answers (by decide +kernel) rfl hload (by decide) fun _ _ _ _ => by decide

theorem isComplete_crowded : IsComplete visitArguments "2000-01-01" crowded.files := by
  refine ⟨⟨⟨1990, 5, 15, by decide⟩, ⟨12, 0, 0, 0, by decide, by decide, by decide, by decide⟩,
    .male, .solar⟩, ⟨2000, 1, 1, by decide⟩, { chart := ⟨⟨"庚午", "辛巳", "甲子", "辛未"⟩, "甲",
      [⟨0, "运", 1995, 2004, 6, 15, "正官"⟩], []⟩ }, ⟨?_, ?_, onePeriod, ?_, ?_⟩, ?_, ?_⟩
  · decide +kernel
  · decide +kernel
  · decide +kernel
  · decide +kernel
  · decide
  · exact List.cons_ne_nil _ _

/-- **The program breaks down under settings that pass the check**: it writes no document. -/
theorem breakdown_crowded :
    Arguments.ofList visit crowded.environment = .ok visitArguments ∧
      visitArguments.referenceDate = some "2000-01-01" ∧
      Settings.load ⟨visitArguments.config, crowded.environment, crowded.folder⟩ crowded.files
        = .ok { pipeline := { maxFetches := 2305843009213693952 } } ∧
      (inForce visitArguments { pipeline := { maxFetches := 2305843009213693952 } }).check
        = .ok () ∧
      IsComplete visitArguments "2000-01-01" crowded.files ∧
      (run visit crowded).exitCode = 101 ∧ ∀ j, ¬IsDocument (run visit crowded).text j := by
  have hargs : Arguments.ofList visit crowded.environment = .ok visitArguments := by
    decide +kernel
  have hload : Settings.load ⟨visitArguments.config, crowded.environment, crowded.folder⟩
      crowded.files = .ok { pipeline := { maxFetches := 2305843009213693952 } } := by
    decide +kernel
  have hcheck : (inForce visitArguments { pipeline := { maxFetches := 2305843009213693952 } }).check
      = .ok () := by decide
  have hrun : run visit crowded = breakdown := by
    obtain ⟨p, d, snapshot, hreads, -⟩ := isComplete_crowded
    rw [run, hargs]
    exact serve_eq_breakdown (settings_eq hload hcheck) (by decide) rfl hreads
  refine ⟨hargs, rfl, hload, hcheck, isComplete_crowded, ?_, ?_⟩
  · rw [hrun]
    rfl
  · rw [hrun]
    rintro j ⟨rest, h, -⟩
    cases congrArg Prod.snd h

end CommandLine

end Almanac
