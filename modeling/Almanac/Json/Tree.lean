import Almanac.Json.Numeral

/-!
# What a JSON text holds

`Tree` is the syntax tree of a JSON text that may be faulty: where the text breaks
off or goes wrong, the tree holds the fault in its place, and nothing follows it.
A reader that walks the tree in order meets the first problem of the text first,
whether that is a fault of the text or a value of the wrong kind.

Two kinds of visitors see a fault differently: one that reads a value and one that
skips it.  A skipper accepts surrogate escapes without a partner, and it words some
faults in its own way.  `Break` holds what each of them meets.
-/

namespace Almanac.Json

/-- The fault at a place where the text goes wrong. -/
structure Break where
  /-- For a visitor that reads the value. -/
  read : Fault
  /-- For a visitor that skips it. -/
  skip : Fault
  deriving Repr, DecidableEq

/-- A fault that looks the same to every visitor. -/
def Break.both (f : Fault) : Break := ⟨f, f⟩

inductive Stop (α : Type) where
  /-- With its bracket. -/
  | closed
  /-- Its last part is itself broken off. -/
  | inside
  /-- Where a comma or the bracket should stand, or, after a comma, where the
  next part should. -/
  | cut (afterComma : Bool) (b : Break)
  /-- Where a field's name should stand, at a value of another kind. -/
  | badKey (key : α)
  deriving Repr

/-- A text between quotes: its characters, or the fault in its surrogate escapes. -/
abbrev TextToken := Except Fault String

/-- The syntax tree of a text, up to its first fault. -/
inductive Tree where
  | null
  | bool (b : Bool)
  | number (n : Numeral)
  | text (t : TextToken)
  | list (items : List Tree) (stop : Stop Tree)
  | object (fields : List (TextToken × Tree)) (stop : Stop Tree)
  /-- No value could be read here; `begun` tells whether a number or a word had
  begun. -/
  | broken (b : Break) (begun : Bool)

/-- The fault that a reading visitor meets at the end of a list or an object. -/
def Stop.readFault? {α : Type} : Stop α → Option Fault
  | .closed => none
  | .inside => none
  | .cut _ b => some b.read
  | .badKey _ => some .keyMustBeText

def Stop.skipFault? {α : Type} : Stop α → Option Fault
  | .closed => none
  | .inside => none
  | .cut _ b => some b.skip
  | .badKey _ => some .keyMustBeText

def Stop.finish (fault : Option Fault) : Except Fault Unit :=
  match fault with
  | none => .ok ()
  | some f => .error f

namespace Tree

/-! ## Skipping -/

mutual
def skip : Tree → Except Fault Unit
  | .null => .ok ()
  | .bool _ => .ok ()
  | .number _ => .ok ()
  | .text _ => .ok ()
  | .list items stop =>
      match skipItems items with
      | .ok _ => Stop.finish stop.skipFault?
      | .error f => .error f
  | .object fields stop =>
      match skipFields fields with
      | .ok _ => Stop.finish stop.skipFault?
      | .error f => .error f
  | .broken b _ => .error b.skip
def skipItems : List Tree → Except Fault Unit
  | [] => .ok ()
  | t :: ts =>
      match skip t with
      | .ok _ => skipItems ts
      | .error f => .error f
/-- Skips fields one after another; a name only has to be a text. -/
def skipFields : List (TextToken × Tree) → Except Fault Unit
  | [] => .ok ()
  | (_, t) :: fs =>
      match skip t with
      | .ok _ => skipFields fs
      | .error f => .error f
end

/-! ## Keeping a value for later -/

mutual
/-- Reads a value of any kind.  `room` is one more than the number of levels
that may still be entered. -/
def keep (room : Nat) : Tree → Except Fault Json
  | .null => .ok .null
  | .bool b => .ok (.bool b)
  | .number n =>
      match n.value with
      | .ok v => .ok (.number v)
      | .error f => .error f
  | .text (.ok s) => .ok (.text s)
  | .text (.error f) => .error f
  | .list items stop =>
      if room ≤ 1 then .error .tooDeep
      else match keepItems (room - 1) items with
        | .ok js => (Stop.finish stop.readFault?).map fun _ => .list js
        | .error f => .error f
  | .object fields stop =>
      if room ≤ 1 then .error .tooDeep
      else match keepFields (room - 1) fields with
        | .ok fs => (Stop.finish stop.readFault?).map fun _ => .object fs
        | .error f => .error f
  | .broken b _ => .error b.read
def keepItems (room : Nat) : List Tree → Except Fault (List Json)
  | [] => .ok []
  | t :: ts =>
      match keep room t with
      | .ok j => (keepItems room ts).map (j :: ·)
      | .error f => .error f
def keepFields (room : Nat) :
    List (TextToken × Tree) → Except Fault (List (String × Json))
  | [] => .ok []
  | (.error f, _) :: _ => .error f
  | (.ok k, t) :: fs =>
      match keep room t with
      | .ok j => (keepFields room fs).map ((k, j) :: ·)
      | .error f => .error f
end

end Tree

end Almanac.Json
