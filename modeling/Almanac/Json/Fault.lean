/-!
# Faults of JSON texts

The ways in which a text can fail to be JSON.  A text that merely ends too early is
told apart from one that no further characters could mend.
-/

namespace Almanac.Json

/-- What a text was in the middle of when it ended. -/
inductive Unfinished where
  | list
  | object
  | text
  | value
  deriving Repr, DecidableEq

inductive Fault where
  | endOf (what : Unfinished)
  | expectedColon
  | expectedListCommaOrEnd
  | expectedObjectCommaOrEnd
  | expectedIdent
  | expectedValue
  | invalidEscape
  | invalidNumber
  | numberOutOfRange
  | controlCharacter
  | keyMustBeText
  | loneSurrogate
  | unexpectedEndOfEscape
  | trailingComma
  | trailingCharacters
  | tooDeep
  deriving Repr, DecidableEq

/-- Whether the text only ended too early. -/
def Fault.isEnd : Fault → Bool
  | .endOf _ => true
  | _ => false

def Fault.message : Fault → String
  | .endOf .list => "EOF while parsing a list"
  | .endOf .object => "EOF while parsing an object"
  | .endOf .text => "EOF while parsing a string"
  | .endOf .value => "EOF while parsing a value"
  | .expectedColon => "expected `:`"
  | .expectedListCommaOrEnd => "expected `,` or `]`"
  | .expectedObjectCommaOrEnd => "expected `,` or `\x7d`"
  | .expectedIdent => "expected ident"
  | .expectedValue => "expected value"
  | .invalidEscape => "invalid escape"
  | .invalidNumber => "invalid number"
  | .numberOutOfRange => "number out of range"
  | .controlCharacter => "control character (\\u0000-\\u001F) found while parsing a string"
  | .keyMustBeText => "key must be a string"
  | .loneSurrogate => "lone leading surrogate in hex escape"
  | .unexpectedEndOfEscape => "unexpected end of hex escape"
  | .trailingComma => "trailing comma"
  | .trailingCharacters => "trailing characters"
  | .tooDeep => "recursion limit exceeded"

end Almanac.Json
