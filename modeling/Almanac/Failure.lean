import Almanac.Calendar.Span
import Almanac.Files.Basic
import Almanac.Json.Mismatch
import Almanac.Profile
import Almanac.Settings.Basic

/-!
# Failures

Everything that can go wrong with a request, each cause with its wording.  A
`Failure` ends a request or, if it is recoverable, leaves a gap in its answer; it has
a code for programs, a message for people, and a JSON body with both.
-/

namespace Almanac

inductive EngineFault where
  | unavailable (why : String)
  | notFound (why : String)
  | invalid (why : String)
  deriving Repr, DecidableEq

def EngineFault.message : EngineFault → String
  | .unavailable why => "Upstream unavailable: " ++ why
  | .notFound why => "No upstream data: " ++ why
  | .invalid why => "Invalid upstream data: " ++ why

structure StoreFault where
  why : String
  deriving Repr, DecidableEq

def StoreFault.message (f : StoreFault) : String := "Store unreachable: " ++ f.why

/-- What can be wrong around a request: a file, the settings, or an input. -/
inductive Complaint where
  | file (fault : FileFault)
  | settings (fault : Settings.Fault)
  | input (why : String)
  deriving Repr, DecidableEq

def Complaint.message : Complaint → String
  | .file fault => "IO error: " ++ fault.message
  | .settings fault => "Configuration error: " ++ fault.message
  | .input why => "Invalid input: " ++ why

inductive Failure where
  | invalidProfile (fault : Profile.Fault)
  | missingChart (why : String)
  | cacheUnavailable (why : String)
  | sectionFailed (name why : String)
  | noPeriods
  | deadlineExceeded (after : Span)
  | undecodable (error : Json.ReadError)
  | complaint (c : Complaint)
  deriving Repr, DecidableEq

namespace Failure

def message : Failure → String
  | invalidProfile fault => "Invalid birth profile: " ++ fault.message
  | missingChart why => "Base chart unavailable: " ++ why
  | cacheUnavailable why => "Cache unavailable: " ++ why
  | sectionFailed name why => "Upstream section '" ++ name ++ "' failed: " ++ why
  | noPeriods => "Upstream returned no major periods"
  | deadlineExceeded after => "Deadline of " ++ after.text ++ " exceeded"
  | undecodable error => "Serialization error: " ++ error.message
  | complaint c => "Common error: " ++ c.message

def code : Failure → String
  | invalidProfile _ => "INVALID_BIRTH_PROFILE"
  | missingChart _ => "MISSING_BASE_CHART"
  | cacheUnavailable _ => "CACHE_UNAVAILABLE"
  | sectionFailed _ _ => "PARTIAL_UPSTREAM_FAILURE"
  | noPeriods => "EMPTY_PERIOD_SEQUENCE"
  | deadlineExceeded _ => "DEADLINE_EXCEEDED"
  | undecodable _ => "SERIALIZATION_ERROR"
  | complaint _ => "COMMON_ERROR"

/-- Whether a request goes on after a failure, with a gap in its answer. -/
def isRecoverable : Failure → Bool
  | cacheUnavailable _ => true
  | sectionFailed _ _ => true
  | _ => false

def body (f : Failure) : Json :=
  .object [("error", .object [("code", .text f.code), ("message", .text f.message)])]

end Failure

def Date.ofInput (s : String) : Except Complaint Date :=
  match Date.parse? s with
  | .ok d => .ok d
  | .error fault => .error (.input (Date.refusal s fault))

end Almanac
