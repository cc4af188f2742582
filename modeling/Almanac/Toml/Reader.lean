import Almanac.Toml.Draft
import Almanac.Toml.Quotes
import Almanac.Toml.Scalar

/-!
# Reading TOML

From the characters of a document to its lines, and from these to the table that it
stands for.  A document that breaks a rule anywhere says nothing at all.  Every item of a
list, every pair and every line takes a character, so the number of characters bounds
their number.
-/

namespace Almanac.Toml

/-! ## Between the values -/

def skipBlanks (cs : List Char) : List Char := cs.dropWhile isBlank

def unifyBreaks : List Char → List Char
  | [] => []
  | '\r' :: '\n' :: cs => '\n' :: unifyBreaks cs
  | c :: cs => c :: unifyBreaks cs

/-- Drops the rest of a line, which may hold a comment, and its end. -/
def endLine (cs : List Char) : Option (List Char) :=
  let rest :=
    match skipBlanks cs with
    | '#' :: cs => cs.dropWhile isPlain
    | cs => cs
  match rest with
  | [] => some []
  | '\n' :: cs => some cs
  | _ => none

/-- Drops what may stand between the items of a list: blanks, line breaks and comments. -/
def skipGap (inComment : Bool) : List Char → List Char
  | [] => []
  | c :: cs =>
    if c = '\n' then skipGap false cs
    else if inComment then if isPlain c then skipGap true cs else c :: cs
    else if isBlank c then skipGap false cs
    else if c = '#' then skipGap true cs
    else c :: cs

/-! ## Keys -/

def isBare (c : Char) : Bool := c.isAlphanum || c == '_' || c == '-'

def name (cs : List Char) : Option (String × List Char) :=
  match cs with
  | '"' :: cs => quotedName ⟨true, false⟩ cs
  | '\x27' :: cs => quotedName ⟨false, false⟩ cs
  | cs =>
    let bare := cs.takeWhile isBare
    if bare.isEmpty then none else some (String.ofList bare, cs.dropWhile isBare)
where
  /-- A name between marks. -/
  quotedName (q : Quotes) (cs : List Char) : Option (String × List Char) :=
    (q.body .plain cs).map fun (s, rest) => (String.ofList s, rest)

/-- A key of at most `room` names, with the blanks around it. -/
def key : (room : Nat) → List Char → Option (Key × List Char)
  | 0, _ => none
  | room + 1, cs =>
    match name (skipBlanks cs) with
    | none => none
    | some (n, cs) =>
      match skipBlanks cs with
      | '.' :: cs =>
        (key room cs).map fun (k, rest) => (⟨n :: k.parents, k.name⟩, rest)
      | cs => some (⟨[], n⟩, cs)

def maxNames : Nat := 79

/-! ## Values -/

def items (one : List Char → Option (Value × List Char)) :
    (fuel : Nat) → List Char → Option (List Value × List Char)
  | 0, _ => none
  | _ + 1, ']' :: cs => some ([], cs)
  | fuel + 1, cs =>
    match one cs with
    | none => none
    | some (v, cs) =>
      match skipGap false cs with
      | ',' :: cs => (items one fuel (skipGap false cs)).map fun (vs, rest) => (v :: vs, rest)
      | ']' :: cs => some ([v], cs)
      | _ => none

def pair (one : List Char → Option (Value × List Char)) (cs : List Char) :
    Option ((Key × Value) × List Char) :=
  match key maxNames cs with
  | some (k, '=' :: cs) => (one (skipBlanks cs)).map fun (v, rest) => ((k, v), rest)
  | _ => none

/-- The pairs of a table on one line, up to its brace. -/
def pairs (one : List Char → Option (Value × List Char)) :
    (fuel : Nat) → List Char → Option (List (Key × Value) × List Char)
  | 0, _ => none
  | fuel + 1, cs =>
    match pair one cs with
    | none => none
    | some (p, cs) =>
      match skipBlanks cs with
      | ',' :: cs => (pairs one fuel cs).map fun (ps, rest) => (p :: ps, rest)
      | '\x7d' :: cs => some ([p], cs)
      | _ => none

/-- The pairs of a table on one line, after its opening brace; there may be none. -/
def inlineTable (one : List Char → Option (Value × List Char)) (cs : List Char) :
    Option (Value × List Char) :=
  match skipBlanks cs with
  | '\x7d' :: cs => some (.table [], cs)
  | cs =>
    match pairs one (cs.length + 1) cs with
    | none => none
    | some (ps, rest) => (Draft.ofPairs ps).map fun v => (v, rest)

/-- A value, with at most `depth` brackets and braces around the innermost one. -/
def value : (depth : Nat) → List Char → Option (Value × List Char)
  | 0, cs => simple cs
  | depth + 1, cs =>
    match cs with
    | '[' :: cs =>
      let cs := skipGap false cs
      (items (value depth) (cs.length + 1) cs).map fun (vs, rest) => (.list vs, rest)
    | '\x7b' :: cs => inlineTable (value depth) cs
    | cs => simple cs
where
  /-- A value without brackets. -/
  simple (cs : List Char) : Option (Value × List Char) :=
    match cs with
    | '"' :: _ => (text cs).map fun (s, rest) => (.text s, rest)
    | '\x27' :: _ => (text cs).map fun (s, rest) => (.text s, rest)
    | cs => scalar cs

def maxDepth : Nat := 79

/-! ## Documents -/

/-- A line without the blanks in front and what follows. -/
def statement (cs : List Char) : Option (Statement × List Char) :=
  match cs with
  | '[' :: '[' :: cs =>
    match key maxNames cs with
    | some (k, ']' :: ']' :: rest) => some (.headElement k, rest)
    | _ => none
  | '[' :: cs =>
    match key maxNames cs with
    | some (k, ']' :: rest) => some (.head k, rest)
    | _ => none
  | cs => (pair (value maxDepth) cs).map fun ((k, v), rest) => (.pair k v, rest)

def statements : (fuel : Nat) → List Char → Option (List Statement)
  | 0, _ => none
  | fuel + 1, cs =>
    match skipBlanks cs with
    | [] => some []
    | '\n' :: cs => statements fuel cs
    | '#' :: cs => (endLine ('#' :: cs)).bind (statements fuel)
    | cs =>
      match statement cs with
      | none => none
      | some (s, cs) => ((endLine cs).bind (statements fuel)).map (s :: ·)

def skipByteOrderMark : List Char → List Char
  | '\ufeff' :: cs => cs
  | cs => cs

def read (s : String) : Option Value :=
  let cs := unifyBreaks (skipByteOrderMark s.toList)
  (statements (cs.length + 1) cs).bind Draft.Document.ofStatements

end Almanac.Toml
