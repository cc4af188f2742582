import Almanac.Json.Tree

/-!
# From a text to its tree

The characters of a text of bytes; the scanners for words, texts and numbers, and `Tree.ofText`, which turns a text
into the tree of what it holds and what is left after it.  Every nested value takes
at least one character and two calls, so twice the number of characters bounds the
recursion.
-/

namespace Almanac.Json

def isSpace (c : Char) : Bool := c == ' ' || c == '\n' || c == '\t' || c == '\r'

def skipSpace (cs : List Char) : List Char := cs.dropWhile isSpace

/-! ## Bytes -/

/-- Stands for a byte that is part of no character.  A text in which it stands can be
skipped, but not read, as two leading surrogates make no pair; the letter in front keeps
it from completing an escape. -/
def strayByte : List Char := ['x', '\\', 'u', 'd', '8', '0', '0', '\\', 'u', 'd', '8', '0', '0']

/-- The characters of some bytes, from a position on. -/
def charsFrom (bytes : ByteArray) (i : Nat) : List Char :=
  if i < bytes.size then
    match bytes.utf8DecodeChar? i with
    | some c => c :: charsFrom bytes (i + c.utf8Size)
    | none => strayByte ++ charsFrom bytes (i + 1)
  else []
termination_by bytes.size - i
decreasing_by
  · have := c.utf8Size_pos
    omega
  · omega

/-! ## Words -/

/-- The rest of a text after a word; the word may be cut short by the end. -/
def scanWord : (word : List Char) → List Char → Except Fault (List Char)
  | [], cs => .ok cs
  | _ :: _, [] => .error (.endOf .value)
  | w :: ws, c :: cs => if w = c then scanWord ws cs else .error .expectedIdent

/-! ## Texts -/

def hexValue? (a b c d : Char) : Option Nat := do
  let a ← Text.hexDigit? a
  let b ← Text.hexDigit? b
  let c ← Text.hexDigit? c
  let d ← Text.hexDigit? d
  return ((a * 16 + b) * 16 + c) * 16 + d

def plainEscape? (c : Char) : Option Char :=
  match c with
  | '"' => some '"'
  | '\\' => some '\\'
  | '/' => some '/'
  | 'b' => some '\x08'
  | 'f' => some '\x0c'
  | 'n' => some '\n'
  | 'r' => some '\r'
  | 't' => some '\t'
  | _ => none

/-- What has been read of a text: its characters, last first; the first fault in
its surrogate escapes; and a leading surrogate that waits for its partner. -/
structure TextState where
  chars : List Char
  fault : Option Fault
  high : Option Nat

namespace TextState

def start : TextState := ⟨[], none, none⟩

def blame (st : TextState) (f : Fault) : TextState := { st with fault := st.fault.or (some f) }

/-- A waiting surrogate finds no partner in what comes next. -/
def settle (st : TextState) : TextState :=
  match st.high with
  | none => st
  | some _ => { st.blame .unexpectedEndOfEscape with high := none }

/-- A character that stands for itself, or for which an escape stands. -/
def push (st : TextState) (c : Char) : TextState :=
  let st := st.settle
  { st with chars := c :: st.chars }

def unit (st : TextState) (n : Nat) : TextState :=
  match st.high with
  | some h =>
    if 0xDC00 ≤ n ∧ n ≤ 0xDFFF then
      let c := Char.ofNat (0x10000 + (h - 0xD800) * 0x400 + (n - 0xDC00))
      { st with chars := c :: st.chars, high := none }
    else { st.blame .loneSurrogate with high := none }
  | none =>
    if 0xDC00 ≤ n ∧ n ≤ 0xDFFF then st.blame .loneSurrogate
    else if 0xD800 ≤ n ∧ n ≤ 0xDBFF then { st with high := some n }
    else { st with chars := Char.ofNat n :: st.chars }

def close (st : TextState) : TextToken :=
  match st.settle.fault with
  | none => .ok (String.ofList st.chars.reverse)
  | some f => .error f

/-- The fault at a place where the text breaks off: a reader has met an earlier
surrogate fault first. -/
def cut (st : TextState) (f : Fault) : Break := ⟨st.fault.getD f, f⟩

end TextState

/-- Reads a text from behind its opening quote up to its closing one. -/
def scanText (st : TextState) : List Char → Except Break (TextToken × List Char)
  | [] => .error (st.cut (.endOf .text))
  | '"' :: cs => .ok (st.close, cs)
  | '\\' :: 'u' :: a :: b :: c :: d :: cs =>
    match hexValue? a b c d with
    | some n => scanText (st.unit n) cs
    | none => .error (st.cut .invalidEscape)
  | '\\' :: 'u' :: cs =>
    .error (st.cut (if (String.ofList cs).utf8ByteSize < 4 then .endOf .text else .invalidEscape))
  | ['\\'] => .error (st.cut (.endOf .text))
  | '\\' :: c :: cs =>
    match plainEscape? c with
    | some e => scanText (st.push e) cs
    | none => .error (st.settle.cut .invalidEscape)
  | c :: cs =>
    if c.toNat < 0x20 then .error (st.settle.cut .controlCharacter) else scanText (st.push c) cs

/-! ## Numbers -/

/-- The fault where a digit should stand: a reader tells the end of the text apart. -/
def missingDigit : List Char → Break
  | [] => ⟨.endOf .value, .invalidNumber⟩
  | _ :: _ => .both .invalidNumber

def scanDigits (cs : List Char) : Except Break (List Char × List Char) :=
  match cs.takeWhile Char.isDigit with
  | [] => .error (missingDigit cs)
  | ds => .ok (ds, cs.dropWhile Char.isDigit)

/-- The whole part: a zero stands alone. -/
def scanWhole (cs : List Char) : Except Break (List Char × List Char) :=
  match scanDigits cs with
  | .ok ('0' :: _ :: _, _) => .error (.both .invalidNumber)
  | result => result

def scanFraction : List Char → Except Break (List Char × List Char)
  | '.' :: cs => scanDigits cs
  | cs => .ok ([], cs)

def scanPower : List Char → Except Break ((Bool × List Char) × List Char)
  | '+' :: cs => (scanDigits cs).map fun (ds, rest) => ((false, ds), rest)
  | '-' :: cs => (scanDigits cs).map fun (ds, rest) => ((true, ds), rest)
  | cs => (scanDigits cs).map fun (ds, rest) => ((false, ds), rest)

def scanExponent : List Char → Except Break (Option (Bool × List Char) × List Char)
  | 'e' :: cs => (scanPower cs).map fun (p, rest) => (some p, rest)
  | 'E' :: cs => (scanPower cs).map fun (p, rest) => (some p, rest)
  | cs => .ok (none, cs)

/-- A number from behind its minus sign, if it has one. -/
def scanNumeral (negative : Bool) (cs : List Char) : Except Break (Numeral × List Char) := do
  let (whole, cs) ← scanWhole cs
  let (fraction, cs) ← scanFraction cs
  let (exponent, cs) ← scanExponent cs
  return (⟨negative, whole, fraction, exponent⟩, cs)

/-! ## Values -/

namespace Tree

/-- What is left after a tree; nothing after one that is broken off. -/
abbrev Rest := Option (List Char)

def ofWord (word : List Char) (t : Tree) (cs : List Char) : Tree × Rest :=
  match scanWord word cs with
  | .ok rest => (t, some rest)
  | .error f => (.broken (.both f) true, none)

def ofNumeral (negative : Bool) (cs : List Char) : Tree × Rest :=
  match scanNumeral negative cs with
  | .ok (n, rest) => (.number n, some rest)
  | .error b => (.broken b true, none)

/-- A value that is no list and no object, from its first character on. -/
def ofScalar : List Char → Tree × Rest
  | [] => (.broken (.both (.endOf .value)) false, none)
  | '"' :: cs =>
    match scanText .start cs with
    | .ok (t, rest) => (.text t, some rest)
    | .error b => (.broken b false, none)
  | 'n' :: cs => ofWord ['u', 'l', 'l'] .null cs
  | 't' :: cs => ofWord ['r', 'u', 'e'] (.bool true) cs
  | 'f' :: cs => ofWord ['a', 'l', 's', 'e'] (.bool false) cs
  | '-' :: cs => ofNumeral true cs
  | c :: cs =>
    if c.isDigit then ofNumeral false (c :: cs) else (.broken (.both .expectedValue) false, none)

/-- What stands in front of the next part of a list or an object. -/
inductive Next where
  /-- The closing bracket, with what is left after it. -/
  | close (rest : List Char)
  /-- The next part, from its first character on. -/
  | part (cs : List Char)
  /-- A fault. -/
  | fault (afterComma : Bool) (b : Break)

/-- How the parts of a list or an object are separated. -/
structure Frame where
  close : Char
  unfinished : Fault
  expectedComma : Fault
  /-- The fault of a text that ends after a comma. -/
  endAfterComma : Break
  /-- The fault of a closing bracket after a comma. -/
  closeAfterComma : Break

def Frame.list : Frame :=
  ⟨']', .endOf .list, .expectedListCommaOrEnd, .both (.endOf .value),
    ⟨.trailingComma, .expectedValue⟩⟩

def Frame.object : Frame :=
  ⟨'\x7d', .endOf .object, .expectedObjectCommaOrEnd, ⟨.endOf .value, .endOf .object⟩,
    ⟨.trailingComma, .keyMustBeText⟩⟩

/-- Finds the next part: the first one stands right behind the bracket, a later one
behind a comma. -/
def Frame.next (frame : Frame) (first : Bool) (cs : List Char) : Next :=
  match skipSpace cs with
  | [] => .fault false (.both frame.unfinished)
  | c :: cs =>
    if c = frame.close then .close cs
    else if first then .part (c :: cs)
    else if c = ',' then
      match skipSpace cs with
      | [] => .fault true frame.endAfterComma
      | d :: ds => if d = frame.close then .fault true frame.closeAfterComma else .part (d :: ds)
    else .fault false (.both frame.expectedComma)

def afterName (cs : List Char) : Except Break (List Char) :=
  match skipSpace cs with
  | [] => .error (.both (.endOf .object))
  | ':' :: rest => .ok rest
  | _ :: _ => .error (.both .expectedColon)

mutual
/-- The value at the front of a text.  `fuel` bounds the nesting and the number
of parts. -/
def scan : (fuel : Nat) → List Char → Tree × Rest
  | 0, _ => (.broken (.both (.endOf .value)) false, none)
  | fuel + 1, cs =>
    match skipSpace cs with
    | '[' :: rest =>
      let (items, stop, rest) := scanItems fuel true rest
      (.list items stop, rest)
    | '{' :: rest =>
      let (fields, stop, rest) := scanFields fuel true rest
      (.object fields stop, rest)
    | cs => ofScalar cs
def scanItems : (fuel : Nat) → (first : Bool) → List Char → List Tree × Stop Tree × Rest
  | 0, _, _ => ([], .cut false (.both (.endOf .list)), none)
  | fuel + 1, first, cs =>
    match Frame.list.next first cs with
    | .close rest => ([], .closed, some rest)
    | .fault comma b => ([], .cut comma b, none)
    | .part cs =>
      match scan fuel cs with
      | (t, none) => ([t], .inside, none)
      | (t, some rest) =>
        let (ts, stop, rest) := scanItems fuel false rest
        (t :: ts, stop, rest)
def scanFields : (fuel : Nat) → (first : Bool) → List Char →
    List (TextToken × Tree) × Stop Tree × Rest
  | 0, _, _ => ([], .cut false (.both (.endOf .object)), none)
  | fuel + 1, first, cs =>
    match Frame.object.next first cs with
    | .close rest => ([], .closed, some rest)
    | .fault comma b => ([], .cut comma b, none)
    | .part ('"' :: cs) =>
      match scanText .start cs with
      | .error b => ([], .cut (!first) b, none)
      | .ok (name, rest) =>
        match afterName rest with
        | .error b => ([(name, .broken b false)], .inside, none)
        | .ok rest =>
          match scan fuel rest with
          | (t, none) => ([(name, t)], .inside, none)
          | (t, some rest) =>
            let (fs, stop, rest) := scanFields fuel false rest
            ((name, t) :: fs, stop, rest)
    | .part cs => ([], .badKey (scan fuel cs).1, none)
end

/-- The tree of the value at the front of a text, and what is left after it. -/
def ofText (cs : List Char) : Tree × Rest := scan (2 * cs.length + 2) cs

end Tree

end Almanac.Json
