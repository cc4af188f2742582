import Almanac.Calendar.Date
import Almanac.Calendar.TimeOfDay
import Almanac.Text.Digits

/-!
# Birth profiles

Whose chart is asked for: a date and time of birth, a gender, and the calendar
that the date was given in.  `Profile.parse` reads the four texts in which a person
states them, in a fixed order, so that the first one that is wrong is the one
reported.  `Profile.normalized` is the canonical text of a profile.
-/

namespace Almanac

/-- The gender of the person, which decides the direction of the major periods. -/
inductive Gender where
  | male
  | female
  deriving Repr, DecidableEq

inductive CalendarKind where
  | solar
  | lunar
  deriving Repr, DecidableEq

/-- A birth date and time with the facts that decide the chart. -/
structure Profile where
  birthDate : Date
  birthTime : TimeOfDay
  gender : Gender
  calendar : CalendarKind
  deriving Repr, DecidableEq

/-- Why a profile, or the date that it is looked at, cannot be used. -/
inductive Profile.Fault where
  | badDate (value : String) (fault : Calendar.Fault)
  | badTime (value : String) (fault : Calendar.Fault)
  | unknownGender (name : String)
  | unknownCalendar (name : String)
  | yearOutOfRange (year : Int)
  | referenceBeforeBirth (reference birth : Date)
  /-- A fault that someone else found, in their words. -/
  | stated (why : String)
  deriving Repr, DecidableEq

/-! ## Names -/

namespace Gender

def name : Gender → String
  | male => "male"
  | female => "female"

def parse (s : String) : Except Profile.Fault Gender :=
  let word := Text.folded s
  if word ∈ ["male", "m", "男"] then .ok male
  else if word ∈ ["female", "f", "女"] then .ok female
  else .error (.unknownGender word)

end Gender

namespace CalendarKind

def name : CalendarKind → String
  | solar => "solar"
  | lunar => "lunar"

def parse (s : String) : Except Profile.Fault CalendarKind :=
  let word := Text.folded s
  if word ∈ ["solar", "gregorian", "公历", "阳历"] then .ok solar
  else if word ∈ ["lunar", "农历", "阴历"] then .ok lunar
  else .error (.unknownCalendar word)

end CalendarKind

/-! ## Messages -/

/-- The wording for a date that a person typed wrongly. -/
def Date.refusal (value : String) (fault : Calendar.Fault) : String :=
  "Invalid date '" ++ value ++ "': " ++ fault.message

namespace Profile

def firstYear : Int := 1900

def lastYear : Int := 2100

def Fault.message : Fault → String
  | .badDate value fault => "Invalid input: " ++ Date.refusal value fault
  | .badTime value fault => "invalid birth time '" ++ value ++ "': " ++ fault.message
  | .unknownGender name => "unknown gender '" ++ name ++ "'"
  | .unknownCalendar name => "unknown calendar kind '" ++ name ++ "'"
  | .yearOutOfRange year =>
    "birth year " ++ Text.decimal year ++ " outside supported range " ++ Text.decimal firstYear
      ++ "-" ++ Text.decimal lastYear
  | .referenceBeforeBirth reference birth =>
    "reference date " ++ reference.text ++ " precedes birth date " ++ birth.text
  | .stated why => why

/-! ## Building -/

def make (date : Date) (time : TimeOfDay) (gender : Gender) (calendar : CalendarKind) :
    Except Fault Profile :=
  if firstYear ≤ date.year ∧ date.year ≤ lastYear then .ok ⟨date, time, gender, calendar⟩
  else .error (.yearOutOfRange date.year)

def readDate (s : String) : Except Fault Date :=
  match Date.parse? s with
  | .ok d => .ok d
  | .error fault => .error (.badDate s fault)

def readTime (s : String) : Except Fault TimeOfDay :=
  match TimeOfDay.parse? s with
  | .ok t => .ok t
  | .error fault => .error (.badTime s fault)

/-- The profile that four texts state.  They are read in their order, and the year is
looked at last. -/
def parse (date time gender calendar : String) : Except Fault Profile := do
  let date ← readDate date
  let time ← readTime time
  let gender ← Gender.parse gender
  let calendar ← CalendarKind.parse calendar
  make date time gender calendar

/-! ## Use -/

/-- The canonical text of a profile: calendar, date, time to the minute, and gender.
Charts are drawn for hours, so seconds do not count. -/
def normalized (p : Profile) : String :=
  p.calendar.name ++ "|" ++ p.birthDate.text ++ "|" ++ String.ofList p.birthTime.writeMinutes ++ "|"
    ++ p.gender.name

/-- A profile can be looked at from the birth date on. -/
def checkReference (p : Profile) (reference : Date) : Except Fault Unit :=
  if reference.isBefore p.birthDate then
    .error (.referenceBeforeBirth reference p.birthDate)
  else .ok ()

end Profile

end Almanac
