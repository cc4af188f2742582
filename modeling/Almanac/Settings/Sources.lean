import Almanac.Failure
import Almanac.Files.Disk
import Almanac.Settings.Document

/-!
# Where settings come from

Settings come from one file at most: the one that was asked for, else the one that the
environment names, else the user's own if there is one.  A file that is not there gives
the defaults.  Then the environment overrides single numbers, and the result has to pass
the check.  Settings are saved beside their file first and then moved into its place.
-/

namespace Almanac.Settings

def fileVariable : String := "FORTUNE_CONFIG"

/-- The file with a user's own settings, in the folder for all of the user's settings. -/
def userFile (folder : String) : String := Path.join (Path.join folder "fortune") "config.toml"

structure Sources where
  /-- The file that was asked for. -/
  asked : Option String
  environment : Environment
  /-- The folder for all of the user's settings. -/
  folder : Option String

namespace Sources

/-- The file that the environment names; a blank name is none. -/
def named? (s : Sources) : Option String :=
  (s.environment fileVariable).filter fun path => !(Text.trim path.toList).isEmpty

def own? (s : Sources) (files : Files) : Option String :=
  (s.folder.map userFile).filter files.has

def path? (s : Sources) (files : Files) : Option String :=
  s.asked.or (s.named?.or (s.own? files))

end Sources

/-- The settings of a file; the defaults if it is not there. -/
def ofFile (files : Files) (path : String) : Except Complaint Settings :=
  if files.has path then
    match files.text path with
    | .error fault => .error (.file fault)
    | .ok s =>
      match ofToml? s with
      | none => .error (.settings (.unreadable path))
      | some settings => .ok settings
  else .ok {}

def ofSources (s : Sources) (files : Files) : Except Complaint Settings :=
  match s.path? files with
  | none => .ok {}
  | some path => ofFile files path

def load (s : Sources) (files : Files) : Except Complaint Settings := do
  let read ← ofSources s files
  let settings ← (read.overridden s.environment).mapError .settings
  settings.check.mapError .settings
  return settings

/-! ## Saving -/

/-- The name under which a file is written before it is moved to its own. -/
def draftName (name : String) : String := Path.stem name ++ ".toml.tmp"

/-- Puts bytes into a file, through a draft beside it. -/
def replaceFile (path : Path) (bytes : ByteArray) : Disk.Action Unit :=
  match path.split? with
  | none => throw .isDirectory
  | some (folder, name) => do
    let draft := folder.child (draftName name)
    Disk.Action.createDirectories folder
    Disk.Action.write draft bytes
    Disk.Action.rename draft path

/-- Saves settings to a file: what came of it, and the disk after it. -/
def save (s : Settings) (path : String) (disk : Disk) : Except Complaint Unit × Disk :=
  match s.document with
  | .error fault => (.error (.settings fault), disk)
  | .ok text =>
    match replaceFile (.ofText path) text.toUTF8 disk with
    | .ok _ disk => (.ok (), disk)
    | .error fault disk => (.error (.file fault), disk)

end Almanac.Settings
