import Almanac.CommandLine.Arguments
import Almanac.Text.Control

/-!
# Help

The texts that explain the program.  The names of options are set in bold; as the texts
are not written to a terminal, all control sequences are taken out of them in the end,
those in the value of a variable too.
-/

namespace Almanac.CommandLine

def programName : String := "fortune-timeline"

def version : String := "0.1.0"

def versionText : String := programName ++ " " ++ version ++ "\n"

namespace Field

def placeholder (f : Field) : String :=
  String.ofList (f.name.toList.map fun c => if c = '-' then '_' else c.toUpper)

def usage (f : Field) : String := Text.Control.bold ("--" ++ f.name) ++ " <" ++ f.placeholder ++ ">"

def letter? : Field → Option Char
  | config => some 'c'
  | _ => none

/-- What a field means; `chart` is the value of the chart's variable. -/
def explanation (chart : String) : Field → String
  | .chart =>
    "Precomputed chart engine output (JSON snapshot) [env: " ++ chartVariable ++ "=" ++ chart ++ "]"
  | birthDate => "Birth date (YYYY-MM-DD)"
  | birthTime => "Birth time (HH:MM) [default: " ++ Arguments.defaultTime ++ "]"
  | gender => "male / female (男 / 女)"
  | calendar => "solar / lunar [default: " ++ Arguments.defaultCalendar ++ "]"
  | referenceDate => "Reference date (YYYY-MM-DD), defaults to today"
  | config => "Config file path (overrides FORTUNE_CONFIG)"
  | periodCount => "Number of ranked periods, current period included"
  | cap => "Notable years kept per period"

end Field

/-- The line break before the text on an option, and inside of it. -/
def indentation : String := "\n          "

def indented (s : String) : String := indentation ++ indentation.intercalate (s.splitOn "\n")

/-- The lines for one option: how it is written, and below that what it means. -/
def optionLines (letter : Option Char) (usage explanation : String) : String :=
  let front :=
    match letter with
    | some c => "  " ++ Text.Control.bold ("-" ++ String.singleton c) ++ ", "
    | none => "      "
  front ++ usage ++ indented explanation ++ "\n"

def helpText (env : Settings.Environment) : String :=
  let required := [Field.chart, .birthDate, .gender].map fun f => " " ++ f.usage
  let switch (name : String) : String := Text.Control.bold ("--" ++ name)
  Text.Control.strip <|
    "Rank fortune periods and notable years for a birth profile\n\nUsage: " ++ programName
      ++ " [OPTIONS]" ++ String.join required ++ "\n\nOptions:\n"
      ++ String.join (Field.all.map fun f =>
        optionLines f.letter? f.usage (f.explanation ((env chartVariable).getD "")))
      ++ optionLines none (switch "pretty") "Pretty-print the JSON report"
      ++ optionLines (some 'h') (switch "help") "Print help"
      ++ optionLines (some 'V') (switch "version") "Print version"

end Almanac.CommandLine
