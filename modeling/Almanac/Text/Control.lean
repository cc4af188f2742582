/-!
# Control sequences

Text for a terminal holds sequences that the terminal obeys and does not show, such as
the ones that make text bold.  Where no terminal looks on, only what would be shown is
written, with the blanks and line breaks.

A sequence begins with the escape character.  It may be a short one, one with numbers
that ends with a letter, or a string that runs up to its own end mark.  A line break or
a blank inside of a short sequence or of one with numbers is shown, and so is what
follows it; the sequence goes on only after the next character that is not shown.
-/

namespace Almanac.Text.Control

inductive State where
  /-- No sequence is being read. -/
  | plain
  /-- The escape character has been read. -/
  | escape
  /-- A short sequence, before its last character. -/
  | short
  /-- A sequence with numbers, before its last character. -/
  | numbers
  /-- A device string, of whose head nothing has been read. -/
  | deviceEntry
  /-- The numbers in the head of a device string. -/
  | deviceNumbers
  /-- The marks after these numbers. -/
  | deviceMarks
  /-- A string, which its end mark ends. -/
  | string
  /-- A command string, which the bell ends. -/
  | command
  deriving Repr, DecidableEq

/-- The escape character, which begins a sequence even inside of another. -/
def escape : Char := '\x1b'

def isLayout (c : Char) : Bool := c = '\t' || c = '\n' || c = '\x0c' || c = '\r'

def inRange (c : Char) (low high : Nat) : Bool := low ≤ c.toNat && c.toNat ≤ high

/-- Whether the end mark of strings, 0x9C, is among the bytes of a character. -/
def holdsEndMark (c : Char) : Bool := (String.singleton c).toUTF8.toList.contains 0x9C

namespace State

def afterEscape (c : Char) : State :=
  if inRange c 0x20 0x2F then short
  else if c = '[' then numbers
  else if c = ']' then command
  else if c = 'P' then deviceEntry
  else if c = 'X' || c = '^' || c = '_' then string
  else if inRange c 0x30 0x7E then plain
  else escape

def after (s : State) (c : Char) : State :=
  if c = '\x18' || c = '\x1a' then plain
  else if c = Control.escape then escape
  else
    match s with
    | plain => plain
    | escape => afterEscape c
    | short => if inRange c 0x30 0x7E then plain else short
    | numbers => if inRange c 0x40 0x7E then plain else numbers
    | deviceEntry =>
      if inRange c 0x20 0x2F then deviceMarks
      else if inRange c 0x30 0x3F then deviceNumbers
      else if inRange c 0x40 0x7E then string
      else deviceEntry
    | deviceNumbers =>
      if inRange c 0x20 0x2F then deviceMarks
      else if inRange c 0x3C 0x7E then string
      else deviceNumbers
    | deviceMarks => if inRange c 0x30 0x7E then string else deviceMarks
    | string => if holdsEndMark c then plain else string
    | command => if c = '\x07' then plain else command

def shows (s : State) (c : Char) : Bool :=
  match s with
  | plain => isLayout c || (0x20 ≤ c.toNat && c.toNat ≠ 0x7F)
  | escape => isLayout c
  | short => isLayout c
  | numbers => isLayout c
  | _ => false

end State

/-- What is shown of a text of which `state` has been read.  While characters are shown,
all are taken for plain text, up to one that plain text does not show. -/
def shown : (state : State) → (showing : Bool) → List Char → List Char
  | _, _, [] => []
  | state, true, c :: cs =>
    if State.plain.shows c then
      c :: shown (if 0x80 ≤ c.toNat then .plain else state) true cs
    else shown (state.after c) false cs
  | state, false, c :: cs =>
    if state.shows c then c :: shown (state.after c) true cs
    else shown (state.after c) false cs

def strip (s : String) : String := String.ofList (shown .plain false s.toList)

def bold (s : String) : String := "\x1b[1m" ++ s ++ "\x1b[0m"

example : strip ("a" ++ bold "b" ++ "c\x07\n") = "abc\n" := by decide +kernel
example : strip "\x1b]0;title\x07rest\x1b(Bx" = "restx" := by decide +kernel

end Almanac.Text.Control
