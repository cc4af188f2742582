import Std.Time.Zoned
import Almanac.CommandLine.Run

/-!
# The command

Gathers what the program finds around it and writes what it leaves behind.
-/

namespace Almanac.Main

def readFile (path : String) : IO (Except FileFault ByteArray) := do
  match ← (IO.FS.readBinFile path).toBaseIO with
  | .ok bytes => return .ok bytes
  | .error (.noFileOrDirectory ..) => return .error .notFound
  | .error (.inappropriateType _ code _) =>
    return .error (if code = 20 ∨ code = -20 then .notDirectory else .isDirectory)
  | .error (.invalidArgument ..) => return .error .nameTooLong
  | .error e => throw e

def readEnvironment (names : List String) : IO Settings.Environment := do
  let values ← names.mapM fun name => return (name, ← IO.getEnv name)
  return fun name => (values.lookup name).join

/-- The contents of some files; no other path leads anywhere. -/
def readFiles (paths : List String) : IO Files := do
  let contents ← paths.mapM fun path => return (path, ← readFile path)
  return fun path => (contents.lookup path).getD (.error .notFound)

def settingsFolder : IO (Option String) := do
  let named := (← IO.getEnv "XDG_CONFIG_HOME").filter (·.startsWith "/")
  return named.or ((← IO.getEnv "HOME").map (Path.join · ".config"))

def today : IO Date := do
  let d ← Std.Time.PlainDate.now
  match Date.ofFields? d.year.toInt d.month.toInt.toNat d.day.toInt.toNat with
  | some date => return date
  | none => throw (IO.userError "the clock shows no date")

end Almanac.Main

open Almanac Almanac.CommandLine in
def main (args : List String) : IO UInt32 := do
  let environment ← Main.readEnvironment variableNames
  let folder ← Main.settingsFolder
  let files ← Main.readFiles (filesRead args environment folder)
  let output := run args { environment, files, folder, today := ← Main.today }
  IO.print output.text
  return output.exitCode.toUInt32
