/-!
# TOML values

What a TOML document says.  A document is a table.
-/

namespace Almanac.Toml

inductive Value where
  | text (s : String)
  | integer (i : Int)
  | bool (b : Bool)
  /-- A number that is not an integer, as it is spelled. -/
  | real (spelling : String)
  /-- A date, a time or both, as it is spelled. -/
  | moment (spelling : String)
  | list (items : List Value)
  | table (fields : List (String × Value))
  deriving Repr

namespace Value

def text? : Value → Option String
  | .text s => some s
  | _ => none

def word? : Value → Option UInt64
  | .integer i => if 0 ≤ i ∧ i < UInt64.size then some (UInt64.ofNat i.toNat) else none
  | _ => none

/-! ## Records

A record is a table with its parts by name, or a list with its parts by place.  A moment
counts as a record without parts. -/

/-- A part of a record, if it is there; nothing if the value is no record. -/
def part? (v : Value) (place : Nat) (name : String) : Option (Option Value) :=
  match v with
  | .table fields => some (fields.lookup name)
  | .list items => some items[place]?
  | .moment _ => some none
  | _ => none

/-- A part of a record as `read` understands it; `absent` if it is not there. -/
def part {α : Type} (read : Value → Option α) (absent : α) (v : Value) (place : Nat)
    (name : String) : Option α :=
  match v.part? place name with
  | none => none
  | some none => some absent
  | some (some x) => read x

end Value

end Almanac.Toml
