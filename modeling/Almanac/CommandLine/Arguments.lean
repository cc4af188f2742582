import Almanac.Settings.Basic

/-!
# Command-line arguments

An argument list is read from left to right.  A field takes a text, which is attached
to it or is the next argument; a switch takes none.  Help and the version number are
answered as soon as their switch is met, and whatever is wrong before that refuses the
whole list.
-/

namespace Almanac.CommandLine

inductive Field where
  | chart
  | birthDate
  | birthTime
  | gender
  | calendar
  | referenceDate
  | config
  | periodCount
  | cap
  deriving Repr, DecidableEq

inductive Switch where
  | pretty
  | help
  | version
  deriving Repr, DecidableEq

namespace Field

/-- All fields, in the order in which they are explained. -/
def all : List Field :=
  [chart, birthDate, birthTime, gender, calendar, referenceDate, config, periodCount, cap]

def name : Field → String
  | chart => "chart"
  | birthDate => "birth-date"
  | birthTime => "birth-time"
  | gender => "gender"
  | calendar => "calendar"
  | referenceDate => "reference-date"
  | config => "config"
  | periodCount => "period-count"
  | cap => "cap"

/-- Whether a field can take a text: a path may not be empty, and a number has to be one. -/
def accepts (f : Field) (s : String) : Bool :=
  match f with
  | chart => s ≠ ""
  | config => s ≠ ""
  | periodCount => (Text.readWord s.toList).isOk
  | cap => (Text.readWord s.toList).isOk
  | _ => true

end Field

def Switch.named? (name : String) : Option Switch :=
  [("pretty", pretty), ("help", help), ("version", version)].lookup name

/-! ## Words -/

inductive Word where
  /-- A text for the field before it. -/
  | text
  /-- The mark after which no options follow. -/
  | endOfOptions
  | field (f : Field) (attached : Option String)
  | switch (s : Switch)
  /-- An option that there is not. -/
  | unknown
  deriving Repr, DecidableEq

namespace Word

def ofName (name : String) (attached : Option String) : Word :=
  match Field.all.find? fun f => f.name == name with
  | some f => .field f attached
  | none =>
    match Switch.named? name, attached with
    | some s, none => .switch s
    | _, _ => .unknown

/-- An option by its letter, with what follows the letter. -/
def ofLetter (letter : Char) (rest : List Char) : Word :=
  match letter, rest with
  | 'c', [] => .field .config none
  | 'c', '=' :: cs => .field .config (some (String.ofList cs))
  | 'c', cs => .field .config (some (String.ofList cs))
  | 'h', _ => .switch .help
  | 'V', _ => .switch .version
  | _, _ => .unknown

/-- What an argument is; a lone hyphen is a text. -/
def ofText (s : String) : Word :=
  match s.toList with
  | ['-'] => .text
  | ['-', '-'] => .endOfOptions
  | '-' :: '-' :: cs =>
    let attached :=
      match cs.dropWhile (· ≠ '=') with
      | _ :: value => some (String.ofList value)
      | [] => none
    ofName (String.ofList (cs.takeWhile (· ≠ '='))) attached
  | '-' :: letter :: rest => ofLetter letter rest
  | _ => .text

end Word

/-! ## Lists -/

/-- Why the program does not get to its work. -/
inductive Stop where
  | help
  | version
  | refused
  deriving Repr, DecidableEq

structure Given where
  texts : List (Field × String) := []
  pretty : Bool := false
  deriving Repr, DecidableEq

namespace Given

def text? (g : Given) (f : Field) : Option String := g.texts.lookup f

def number? (g : Given) (f : Field) : Option UInt64 :=
  (g.text? f).bind fun s => (Text.readWord s.toList).toOption

/-- Takes a field, which must not have been given before. -/
def take (g : Given) (f : Field) (s : String) : Except Stop Given :=
  if f.accepts s ∧ (g.text? f).isNone then .ok { g with texts := (f, s) :: g.texts }
  else .error .refused

def flip (g : Given) : Switch → Except Stop Given
  | .help => .error .help
  | .version => .error .version
  | .pretty => if g.pretty then .error .refused else .ok { g with pretty := true }

def read (g : Given) : List String → Except Stop Given
  | [] => .ok g
  | arg :: args =>
    match Word.ofText arg, args with
    | .endOfOptions, [] => .ok g
    | .switch s, args =>
      match g.flip s with
      | .ok g => g.read args
      | .error stop => .error stop
    | .field f (some s), args =>
      match g.take f s with
      | .ok g => g.read args
      | .error stop => .error stop
    | .field f none, s :: args =>
      if Word.ofText s = .text then
        match g.take f s with
        | .ok g => g.read args
        | .error stop => .error stop
      else .error .refused
    | _, _ => .error .refused

end Given

/-! ## Arguments -/

structure Arguments where
  /-- The file with the answers of a chart engine. -/
  chart : String
  birthDate : String
  birthTime : String
  gender : String
  calendar : String
  /-- The date to look from; today if there is none. -/
  referenceDate : Option String := none
  /-- The settings file that is asked for. -/
  config : Option String := none
  periodCount : Option UInt64 := none
  cap : Option UInt64 := none
  pretty : Bool := false
  deriving Repr, DecidableEq

/-- The variable for the chart, which counts if the chart is not given. -/
def chartVariable : String := "FORTUNE_CHART"

namespace Arguments

def defaultTime : String := "12:00"

def defaultCalendar : String := "solar"

/-- The chart that is given or that the environment names. -/
def chart? (g : Given) (env : Settings.Environment) : Option String :=
  (g.text? .chart).or ((env chartVariable).filter Field.chart.accepts)

/-- The arguments that the given options make: chart, birth date and gender have to be
there. -/
def ofGiven (g : Given) (env : Settings.Environment) : Except Stop Arguments :=
  match chart? g env, g.text? .birthDate, g.text? .gender with
  | some chart, some birthDate, some gender =>
    .ok
      { chart, birthDate, gender
        birthTime := (g.text? .birthTime).getD defaultTime
        calendar := (g.text? .calendar).getD defaultCalendar
        referenceDate := g.text? .referenceDate
        config := g.text? .config
        periodCount := g.number? .periodCount
        cap := g.number? .cap
        pretty := g.pretty }
  | _, _, _ => .error .refused

def ofList (args : List String) (env : Settings.Environment) : Except Stop Arguments :=
  (({} : Given).read args).bind fun g => ofGiven g env

end Arguments

end Almanac.CommandLine
