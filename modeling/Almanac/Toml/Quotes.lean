import Almanac.Text.Digits

/-!
# Texts between quotation marks

A text stands between double or single marks, on one line between single ones of them or
in a block between three of them.  Double marks allow escapes; between single marks every
character stands for itself.  `Quotes.body` reads what stands between the marks,
`Quotes.write` writes it, and `Quotes.forText` chooses the marks that need fewest escapes.
-/

namespace Almanac.Toml

def isBlank (c : Char) : Bool := c == ' ' || c == '\t'

/-- The characters that may stand for themselves in a comment or a text. -/
def isPlain (c : Char) : Bool := c == '\t' || (0x20 ≤ c.toNat && c.toNat != 0x7F)

structure Quotes where
  /-- Double marks rather than single ones. -/
  double : Bool
  /-- Three marks, and a text that may have several lines. -/
  block : Bool
  deriving Repr, DecidableEq

namespace Quotes

def mark (q : Quotes) : Char := if q.double then '"' else '\x27'

def marks (q : Quotes) : List Char := List.replicate (if q.block then 3 else 1) q.mark

/-! ## Reading -/

inductive Spot where
  | plain
  /-- After a backslash. -/
  | escape
  /-- In an escape by number: the digits left, and the value of those before. -/
  | number (left value : Nat)
  /-- After a backslash and blanks, which must end the line. -/
  | lineEnd
  /-- After such a line end: blanks and line breaks are no part of the text. -/
  | margin
  deriving Repr, DecidableEq

/-- Whether the text can close here. -/
def Spot.isOpen : Spot → Bool
  | .plain => true
  | .margin => true
  | _ => false

def letterEscape? (c : Char) : Option Char :=
  match c with
  | 'b' => some '\x08'
  | 't' => some '\t'
  | 'n' => some '\n'
  | 'f' => some '\x0c'
  | 'r' => some '\r'
  | '"' => some '"'
  | '\\' => some '\\'
  | _ => none

def scalar? (n : Nat) : Option Char :=
  if n.isValidChar then some (Char.ofNat n) else none

/-- Reads a character that stands for itself or begins an escape. -/
def plainStep (q : Quotes) (c : Char) : Option (Spot × List Char) :=
  if c = '\\' ∧ q.double then some (.escape, [])
  else if c = '\n' then if q.block then some (.plain, [c]) else none
  else if isPlain c then some (.plain, [c])
  else none

/-- Reads a character: where the reader stands after it, and what it adds to the text. -/
def step (q : Quotes) (spot : Spot) (c : Char) : Option (Spot × List Char) :=
  match spot with
  | .plain => q.plainStep c
  | .escape =>
    match letterEscape? c with
    | some x => some (.plain, [x])
    | none =>
      if c = 'u' then some (.number 4 0, [])
      else if c = 'U' then some (.number 8 0, [])
      else if q.block && isBlank c then some (.lineEnd, [])
      else if q.block && c == '\n' then some (.margin, [])
      else none
  | .number left value =>
    match Text.hexDigit? c with
    | none => none
    | some d =>
      let value := 16 * value + d
      if 1 < left then some (.number (left - 1) value, [])
      else (scalar? value).map fun x => (.plain, [x])
  | .lineEnd =>
    if isBlank c then some (.lineEnd, [])
    else if c = '\n' then some (.margin, [])
    else none
  | .margin => if isBlank c || c == '\n' then some (.margin, []) else q.plainStep c

/-- The end of a text, if it is here: up to two marks that still belong to a block, and
what is left after the closing marks. -/
def close? (q : Quotes) : List Char → Option (List Char × List Char)
  | [] => none
  | c :: cs =>
    if c ≠ q.mark then none
    else if !q.block then some ([], cs)
    else
      match cs with
      | d :: e :: cs =>
        if d = q.mark ∧ e = q.mark then
          let more := (cs.take 2).takeWhile (· == q.mark)
          some (more, cs.drop more.length)
        else none
      | _ => none

/-- Reads up to the closing marks: the text, and what is left after them. -/
def body (q : Quotes) (spot : Spot) : List Char → Option (List Char × List Char)
  | [] => none
  | c :: cs =>
    match if spot.isOpen then q.close? (c :: cs) else none with
    | some found => some found
    | none =>
      match q.step spot c with
      | none => none
      | some (spot, front) =>
        match q.body spot cs with
        | none => none
        | some (s, rest) => some (front ++ s, rest)

def skipBreak : List Char → List Char
  | '\n' :: cs => cs
  | cs => cs

/-- The kind of marks that open a text, and what follows them. -/
def open? : List Char → Option (Quotes × List Char)
  | '"' :: '"' :: '"' :: cs => some (⟨true, true⟩, skipBreak cs)
  | '\x27' :: '\x27' :: '\x27' :: cs => some (⟨false, true⟩, skipBreak cs)
  | '"' :: cs => some (⟨true, false⟩, cs)
  | '\x27' :: cs => some (⟨false, false⟩, cs)
  | _ => none

/-! ## Writing -/

def escape? (q : Quotes) (c : Char) : Option (List Char) :=
  match c with
  | '\x08' => some ['\\', 'b']
  | '\t' => some ['\\', 't']
  | '\n' => if q.block then none else some ['\\', 'n']
  | '\x0c' => some ['\\', 'f']
  | '\r' => some ['\\', 'r']
  | '\\' => some ['\\', '\\']
  | c =>
    if isPlain c then none
    else
      let hex := (Nat.toDigits 16 c.toNat).map Char.toUpper
      some (['\\', 'u'] ++ List.replicate (4 - hex.length) '0' ++ hex)

/-- The number of marks in a row that a text between double marks may hold. -/
def spareMarks (q : Quotes) : Nat := if q.block then 2 else 0

/-- A text between double marks, after `row` marks in a row. -/
def escaped (q : Quotes) (row : Nat) : List Char → List Char
  | [] => []
  | c :: cs =>
    if c = '"' then
      if row < q.spareMarks then '"' :: q.escaped (row + 1) cs
      else '\\' :: '"' :: q.escaped 0 cs
    else
      match q.escape? c with
      | some e => e ++ q.escaped 0 cs
      | none => c :: q.escaped 0 cs

/-- A text between marks.  A block of several lines begins on a line of its own. -/
def write (q : Quotes) (cs : List Char) : List Char :=
  let lineBreak := if q.block && cs.contains '\n' then ['\n'] else []
  let inner := if q.double then q.escaped 0 cs else cs
  q.marks ++ lineBreak ++ inner ++ q.marks

def longestRow (m : Char) (row : Nat) : List Char → Nat
  | [] => row
  | c :: cs => if c = m then longestRow m (row + 1) cs else max row (longestRow m 0 cs)

def needsEscape (c : Char) : Bool := !isPlain c && c != '\n'

/-- The marks for a text: plain double marks if nothing needs an escape, else single
marks, else a block of double or of single marks, else whatever marks with escapes. -/
def forText (cs : List Char) : Quotes :=
  let strange := cs.any needsEscape
  let backslash := cs.contains '\\'
  let lines := cs.contains '\n'
  let doubles := longestRow '"' 0 cs
  let singles := longestRow '\x27' 0 cs
  if !strange && !backslash && doubles == 0 && !lines then ⟨true, false⟩
  else if !strange && singles == 0 && !lines then ⟨false, false⟩
  else if !strange && !backslash && doubles ≤ 2 then ⟨true, true⟩
  else if !strange && singles ≤ 2 then ⟨false, true⟩
  else ⟨true, lines⟩

end Quotes

def text (cs : List Char) : Option (String × List Char) :=
  match Quotes.open? cs with
  | none => none
  | some (q, cs) => (q.body .plain cs).map fun (s, rest) => (String.ofList s, rest)

def quoted (s : String) : List Char := (Quotes.forText s.toList).write s.toList

example : quoted "it\x27s" = "\"it\x27s\"".toList := by decide +kernel
example : quoted "back\\slash" = "\x27back\\slash\x27".toList := by decide +kernel
example : (text "\"\"\"\n a\\\n  b\"\"\"\"".toList) = some (" ab\"", []) := by decide +kernel

end Almanac.Toml
