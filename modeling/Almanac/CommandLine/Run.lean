import Almanac.Cache.SharedStore
import Almanac.CommandLine.Help
import Almanac.Document.View
import Almanac.Pipeline.Service
import Almanac.Settings.Sources

/-!
# The program

What the program answers to a list of arguments, given the environment, the files and the
date.  It writes nothing for settings that cannot be used and for arguments that it
refuses; else it writes one document, a report or the body of a failure, unless it is set to
make more calls at once than there can be permits: then it breaks down when it gets to its
work.
-/

namespace Almanac.CommandLine

structure Surroundings where
  environment : Settings.Environment
  files : Files
  /-- The folder for all of the user's settings. -/
  folder : Option String
  today : Date

structure Output where
  exitCode : UInt8
  text : String
  deriving Repr, DecidableEq

def variableNames : List String :=
  [chartVariable, Settings.fileVariable, Settings.periodCountVariable,
    Settings.yearsPerPeriodVariable, Settings.rawTtlVariable]

/-- The files that the program may read. -/
def filesRead (args : List String) (env : Settings.Environment) (folder : Option String) :
    List String :=
  match Arguments.ofList args env with
  | .error _ => []
  | .ok a =>
    [a.chart] ++ a.config.toList ++ (env Settings.fileVariable).toList
      ++ (folder.map Settings.userFile).toList

/-- The settings in force, with the numbers that the arguments override. -/
def settings (a : Arguments) (w : Surroundings) : Except Complaint Settings := do
  let s ← Settings.load ⟨a.config, w.environment, w.folder⟩ w.files
  let ranking : Ranking.Shape :=
    ⟨a.periodCount.getD s.ranking.periodCount, a.cap.getD s.ranking.yearsPerPeriod⟩
  let s := { s with ranking }
  s.check.mapError .settings
  return s

def profile (a : Arguments) : Except Failure Profile :=
  (Profile.parse a.birthDate a.birthTime a.gender a.calendar).mapError .invalidProfile

def referenceDate (a : Arguments) (w : Surroundings) : Except Failure Date :=
  match a.referenceDate with
  | none => .ok w.today
  | some s => (Profile.readDate s).mapError .invalidProfile

def snapshot (files : Files) (path : String) : Except Failure Snapshot :=
  match files.text path with
  | .error fault => .error (.complaint (.file fault))
  | .ok s => (Snapshot.codec.decodeText s).mapError .undecodable

/-- The order that the arguments make, and the snapshot that it is for. -/
def order (a : Arguments) (w : Surroundings) : Except Failure (Order × Snapshot) := do
  let profile ← profile a
  let reference ← referenceDate a w
  let snapshot ← snapshot w.files a.chart
  return ({ profile, reference }, snapshot)

def report (s : Settings) (o : Order) (snapshot : Snapshot) : Except Failure Report :=
  let cache := Cache.connect SharedStore.store (.ofSettings s.cache) {}
  ((Pipeline.ofSettings s cache snapshot).generate SharedStore.store Snapshot.engine o).1

def write (layout : Json.Layout) (j : Json) : String := j.render layout ++ "\n"

/-- What is left behind by a program that breaks down. -/
def breakdown : Output := ⟨101, ""⟩

def refusal (failure : Failure) : Output := ⟨1, write .compact failure.body⟩

def serve (a : Arguments) (w : Surroundings) : Output :=
  match settings a w with
  | .error _ => ⟨1, ""⟩
  | .ok s =>
    match order a w with
    | .error failure => refusal failure
    | .ok (o, snapshot) =>
      if Permits.most < s.pipeline.maxFetches.toNat then breakdown
      else
        match report s o snapshot with
        | .ok r => ⟨0, write (if a.pretty then .indented else .compact) (Report.codec.write r)⟩
        | .error failure => refusal failure

def run (args : List String) (w : Surroundings) : Output :=
  match Arguments.ofList args w.environment with
  | .error .help => ⟨0, helpText w.environment⟩
  | .error .version => ⟨0, versionText⟩
  | .error .refused => ⟨2, ""⟩
  | .ok a => serve a w

end Almanac.CommandLine
