import Almanac.Decimal.Shortest

/-!
# JSON values and their texts

A JSON value keeps the order of its object's fields.  Integers and numbers with a
fraction are told apart.  `Json.write` prints a value compactly or indented by two
blanks per level; both layouts differ in blanks only.
-/

namespace Almanac

inductive Json.Number where
  | int (value : Int)
  | real (value : Binary64)
  deriving Repr, DecidableEq

inductive Json where
  | null
  | bool (b : Bool)
  | number (n : Json.Number)
  | text (s : String)
  | list (items : List Json)
  | object (fields : List (String × Json))
  deriving Repr

namespace Json

/-- Numbers with a fraction are written out from 0.00001 up to 10^16, and with an
exponent of as many digits as it needs elsewhere. -/
def numberFormat : Decimal.NumberFormat := ⟨-5, 16, 1⟩

def Number.write : Number → List Char
  | .int i => Text.signed i
  | .real x => numberFormat.write x

/-- A character inside a written text: quote, backslash and the control
characters are escaped. -/
def writeChar (c : Char) : List Char :=
  match c with
  | '"' => ['\\', '"']
  | '\\' => ['\\', '\\']
  | '\x08' => ['\\', 'b']
  | '\x0c' => ['\\', 'f']
  | '\n' => ['\\', 'n']
  | '\r' => ['\\', 'r']
  | '\t' => ['\\', 't']
  | c =>
    if c.toNat < 0x20 then
      ['\\', 'u', '0', '0', Nat.digitChar (c.toNat / 16), Nat.digitChar (c.toNat % 16)]
    else [c]

def writeText (s : String) : List Char :=
  '"' :: s.toList.flatMap writeChar ++ ['"']

inductive Layout where
  | compact
  | indented
  deriving Repr, DecidableEq

/-- What stands before an item on the given level, or before a closing bracket. -/
def Layout.lead : Layout → (depth : Nat) → List Char
  | .compact, _ => []
  | .indented, depth => '\n' :: List.replicate (2 * depth) ' '

def Layout.gap : Layout → List Char
  | .compact => []
  | .indented => [' ']

mutual
def write (layout : Layout) (depth : Nat) : Json → List Char
  | .null => ['n', 'u', 'l', 'l']
  | .bool true => ['t', 'r', 'u', 'e']
  | .bool false => ['f', 'a', 'l', 's', 'e']
  | .number n => n.write
  | .text s => writeText s
  | .list items => '[' :: writeItems layout depth true items
  | .object fields => '{' :: writeFields layout depth true fields
/-- The items that are left, and the closing bracket. -/
def writeItems (layout : Layout) (depth : Nat) (first : Bool) : List Json → List Char
  | [] => (if first then [] else layout.lead depth) ++ [']']
  | j :: js =>
      (if first then [] else [',']) ++ layout.lead (depth + 1) ++ write layout (depth + 1) j
        ++ writeItems layout depth false js
def writeFields (layout : Layout) (depth : Nat) (first : Bool) :
    List (String × Json) → List Char
  | [] => (if first then [] else layout.lead depth) ++ ['}']
  | (k, j) :: fs =>
      (if first then [] else [',']) ++ layout.lead (depth + 1) ++ writeText k ++ ':' :: layout.gap
        ++ write layout (depth + 1) j ++ writeFields layout depth false fs
end

def render (layout : Layout) (j : Json) : String := String.ofList (j.write layout 0)

def compact (j : Json) : String := j.render .compact

end Json

end Almanac
