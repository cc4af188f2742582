import Almanac.Json.Codec

/-!
# Codecs of records

A record is written as an object with its fields in their order.  It is read from an
object, where unknown fields are skipped and the fields may stand in any order, or
from a list with the fields' values in their order.  The fields of a record are a
list of codecs with names (`Fields`); the record itself is handled as the tuple of
its fields (`Row`).

Two kinds of records need values kept for later: a record whose fields are spread
into another one (`spread`), and a choice between records whose name stands in a
field among the others (`tagged`).
-/

namespace Almanac.Json

/-- What a field is when it does not stand in the document. -/
inductive Absence (α : Type) where
  /-- A missing field is an error. -/
  | required
  /-- The field may be left out of an object. -/
  | optional (value : α)
  /-- The field may be left out of an object, and at the end of a list. -/
  | defaulted (value : α)

inductive Fields : List Type → Type 1 where
  | nil : Fields []
  | cons {α : Type} {αs : List Type} (name : String) (codec : Codec α) (absence : Absence α)
      (rest : Fields αs) : Fields (α :: αs)

def Row : List Type → Type
  | [] => Unit
  | α :: αs => α × Row αs

/-- The values of the fields met so far. -/
def Slots : List Type → Type
  | [] => Unit
  | α :: αs => Option α × Slots αs

def Slots.empty : (αs : List Type) → Slots αs
  | [] => ()
  | _ :: αs => (none, Slots.empty αs)

namespace Fields

variable {αs : List Type}

def size {αs : List Type} (_ : Fields αs) : Nat := αs.length

def elements (n : Nat) : String :=
  if n = 1 then "1 element" else Text.decimal n ++ " elements"

/-! ## Objects -/

/-- Reads one field, if the record has one of that name; it must not have been met
before. -/
def slot {αs : List Type} {ε : Type} (duplicate : String → ε)
    (use : {α : Type} → Codec α → Except ε α) (name : String) :
    Fields αs → Slots αs → Option (Except ε (Slots αs))
  | .nil, _ => none
  | .cons n c _ rest, (value, slots) =>
    if n = name then
      some (match value with
        | some _ => .error (duplicate n)
        | none => (use c).map fun v => (some v, slots))
    else
      (rest.slot duplicate use name slots).map fun result => result.map fun slots => (value, slots)

def readSlot (room : Nat) (name : String) (t : Tree) (fields : Fields αs) (slots : Slots αs) :
    Option (Except ReadError (Slots αs)) :=
  fields.slot (fun n => .mismatch (.duplicateField n)) (fun c => c.read room t) name slots

def takeSlot (name : String) (j : Json) (fields : Fields αs) (slots : Slots αs) :
    Option (Except Mismatch (Slots αs)) :=
  fields.slot .duplicateField (fun c => c.take j) name slots

/-- Reads the fields of an object in the text's order; unknown ones are skipped. -/
def readObject (room : Nat) (fields : Fields αs) :
    List (TextToken × Tree) → Slots αs → Except ReadError (Slots αs)
  | [], slots => .ok slots
  | (.error f, _) :: _, _ => .error (.fault f)
  | (.ok name, t) :: more, slots =>
    match fields.readSlot room name t slots with
    | some (.ok slots) => readObject room fields more slots
    | some (.error e) => .error e
    | none =>
      match t.skip with
      | .ok _ => readObject room fields more slots
      | .error f => .error (.fault f)

def takeObject (fields : Fields αs) :
    List (String × Json) → Slots αs → Except Mismatch (Slots αs)
  | [], slots => .ok slots
  | (name, j) :: more, slots =>
    match fields.takeSlot name j slots with
    | some (.ok slots) => takeObject fields more slots
    | some (.error m) => .error m
    | none => takeObject fields more slots

/-- The whole row, with the values of fields that were left out; the first required
one that is missing is an error. -/
def fill {αs : List Type} : Fields αs → Slots αs → Except Mismatch (Row αs)
  | .nil, _ => .ok ()
  | .cons name _ absence rest, (value, slots) =>
    match value, absence with
    | some v, _ => (rest.fill slots).map fun row => (v, row)
    | none, .required => .error (.missingField name)
    | none, .optional v => (rest.fill slots).map fun row => (v, row)
    | none, .defaulted v => (rest.fill slots).map fun row => (v, row)

/-! ## Lists -/

/-- The values of the fields from a position on, when the list has ended. -/
def leftOut {αs : List Type} (wanted : String) (position : Nat) :
    Fields αs → Except Mismatch (Row αs)
  | .nil => .ok ()
  | .cons _ _ (.defaulted v) rest => (leftOut wanted (position + 1) rest).map fun row => (v, row)
  | .cons _ _ _ _ => .error (.wrongLength position wanted)

/-- Reads fields from the items of a list; gives back the items left. -/
def readItems {αs : List Type} (room : Nat) (wanted : String) (stop : Stop Tree)
    (position : Nat) : Fields αs → List Tree → Except ReadError (Row αs × List Tree)
  | .nil, items => .ok ((), items)
  | fields@(.cons _ _ _ _), [] =>
    match stop.readFault? with
    | some f => .error (.fault f)
    | none => (liftMismatch (leftOut wanted position fields)).map fun row => (row, [])
  | .cons _ c _ rest, t :: items =>
    match c.read room t with
    | .error e => .error e
    | .ok v =>
      match readItems room wanted stop (position + 1) rest items with
      | .error e => .error e
      | .ok (row, left) => .ok ((v, row), left)

/-- The end of a list that holds a record: no item may be left. -/
def finishItems (left : List Tree) (stop : Stop Tree) : Except Fault Unit :=
  match left, stop with
  | _ :: _, _ => .error .trailingCharacters
  | [], .closed => .ok ()
  | [], .inside => .ok ()
  | [], .cut false b => .error (if b.read.isEnd then b.read else .trailingCharacters)
  | [], .cut true b =>
    .error (if b.read = .trailingComma then .trailingComma else .trailingCharacters)
  | [], .badKey _ => .error .trailingCharacters

def takeItems {αs : List Type} (wanted : String) (position : Nat) :
    Fields αs → List Json → Except Mismatch (Row αs × Nat)
  | .nil, items => .ok ((), items.length)
  | fields@(.cons _ _ _ _), [] => (leftOut wanted position fields).map fun row => (row, 0)
  | .cons _ c _ rest, j :: items =>
    match c.take j with
    | .error m => .error m
    | .ok v =>
      match takeItems wanted (position + 1) rest items with
      | .error m => .error m
      | .ok (row, left) => .ok ((v, row), left)

/-! ## Whole records -/

def read (name : String) (fields : Fields αs) (room : Nat) (t : Tree) :
    Except ReadError (Row αs) :=
  match t with
  | .object fs stop =>
    if room ≤ 1 then .error (.fault .tooDeep)
    else match fields.readObject (room - 1) fs (Slots.empty αs) with
      | .error e => .error e
      | .ok slots =>
        match stop.readFault? with
        | some f => .error (.fault f)
        | none => liftMismatch (fields.fill slots)
  | .list items stop =>
    if room ≤ 1 then .error (.fault .tooDeep)
    else
      let wanted := name ++ " with " ++ elements fields.size
      match fields.readItems (room - 1) wanted stop 0 items with
      | .error e => .error e
      | .ok (row, left) => (liftFault (finishItems left stop)).map fun _ => row
  | t => .error (t.unwanted name)

def take (name : String) (fields : Fields αs) (j : Json) : Except Mismatch (Row αs) :=
  match j with
  | .object fs =>
    match fields.takeObject fs (Slots.empty αs) with
    | .error m => .error m
    | .ok slots => fields.fill slots
  | .list items =>
    match fields.takeItems (name ++ " with " ++ elements fields.size) 0 items with
    | .error m => .error m
    | .ok (row, left) =>
      if left = 0 then .ok row
      else .error (.wrongLength (fields.size + left) (elements fields.size ++ " in sequence"))
  | j => .error (unwanted j name)

def write {αs : List Type} : Fields αs → Row αs → List (String × Json)
  | .nil, _ => []
  | .cons name c _ rest, (v, row) => (name, c.write v) :: rest.write row

end Fields

namespace Codec

/-- A record of the given name, with its fields and the two ways between it and the
tuple of its fields. -/
def record {αs : List Type} {α : Type} (name : String) (fields : Fields αs) (toRow : α → Row αs)
    (ofRow : Row αs → α) : Codec α where
  read room t := (fields.read ("struct " ++ name) room t).map ofRow
  take j := (fields.take ("struct " ++ name) j).map ofRow
  write a := .object (fields.write (toRow a))

/-! ## Records spread into others -/

/-- Reads the fields of an object: the record's own ones at once, the others kept
for later in their order. -/
def readSpread {αs : List Type} (room : Nat) (own : Fields αs) :
    List (TextToken × Tree) → Slots αs → Except ReadError (Slots αs × List (String × Json))
  | [], slots => .ok (slots, [])
  | (.error f, _) :: _, _ => .error (.fault f)
  | (.ok name, t) :: more, slots =>
    match own.readSlot room name t slots with
    | some (.ok slots) => readSpread room own more slots
    | some (.error e) => .error e
    | none =>
      match t.keep room with
      | .error f => .error (.fault f)
      | .ok j =>
        match readSpread room own more slots with
        | .error e => .error e
        | .ok (slots, kept) => .ok (slots, (name, j) :: kept)

/-- Takes the record's own fields and leaves the others. -/
def takeSpread {αs : List Type} (own : Fields αs) :
    List (String × Json) → Slots αs → Except Mismatch (Slots αs × List (String × Json))
  | [], slots => .ok (slots, [])
  | (name, j) :: more, slots =>
    match own.takeSlot name j slots with
    | some (.ok slots) => takeSpread own more slots
    | some (.error m) => .error m
    | none =>
      match takeSpread own more slots with
      | .error m => .error m
      | .ok (slots, kept) => .ok (slots, (name, j) :: kept)

/-- Both parts of a spread record: its own fields first, then those of the inner
record. -/
def fillSpread {αs βs : List Type} (inner : Fields αs) (own : Fields βs) (slots : Slots βs)
    (kept : List (String × Json)) : Except Mismatch (Row αs × Row βs) :=
  match own.fill slots with
  | .error m => .error m
  | .ok ownRow =>
    match inner.takeObject kept (Slots.empty αs) with
    | .error m => .error m
    | .ok innerSlots => (inner.fill innerSlots).map fun innerRow => (innerRow, ownRow)

/-- A record with another record's fields in front of its own.  It is read from an
object only. -/
def spread {αs βs : List Type} {α : Type} (name : String) (inner : Fields αs) (own : Fields βs)
    (toRows : α → Row αs × Row βs) (ofRows : Row αs × Row βs → α) : Codec α where
  read room t :=
    match t with
    | .object fs stop =>
      if room ≤ 1 then .error (.fault .tooDeep)
      else match readSpread (room - 1) own fs (Slots.empty βs) with
        | .error e => .error e
        | .ok (slots, kept) =>
          match stop.readFault? with
          | some f => .error (.fault f)
          | none => (liftMismatch (fillSpread inner own slots kept)).map ofRows
    | t => .error (t.unwanted ("struct " ++ name))
  take j :=
    match j with
    | .object fs =>
      match takeSpread own fs (Slots.empty βs) with
      | .error m => .error m
      | .ok (slots, kept) => (fillSpread inner own slots kept).map ofRows
    | j => .error (unwanted j ("struct " ++ name))
  write a := .object (inner.write (toRows a).1 ++ own.write (toRows a).2)

/-! ## Records with a name among their fields -/

def readTag {β : Type} (variants : List (String × β)) (t : Tree) : Except ReadError β :=
  match t with
  | .text (.ok s) => liftMismatch (ofName variants s)
  | t => .error (t.unwanted "variant identifier")

def takeTag {β : Type} (variants : List (String × β)) (j : Json) : Except Mismatch β :=
  match j with
  | .text s => ofName variants s
  | j => .error (unwanted j "variant identifier")

/-- Reads the fields of an object: the name at once, the others kept for later. -/
def readTagged {β : Type} (room : Nat) (tag : String) (variants : List (String × β)) :
    List (TextToken × Tree) → Option β → Except ReadError (Option β × List (String × Json))
  | [], variant => .ok (variant, [])
  | (.error f, _) :: _, _ => .error (.fault f)
  | (.ok name, t) :: more, variant =>
    if name = tag then
      match variant with
      | some _ => .error (.mismatch (.duplicateField tag))
      | none =>
        match readTag variants t with
        | .error e => .error e
        | .ok v => readTagged room tag variants more (some v)
    else
      match t.keep room with
      | .error f => .error (.fault f)
      | .ok j =>
        match readTagged room tag variants more variant with
        | .error e => .error e
        | .ok (variant, kept) => .ok (variant, (name, j) :: kept)

def takeTagged {β : Type} (tag : String) (variants : List (String × β)) :
    List (String × Json) → Option β → Except Mismatch (Option β × List (String × Json))
  | [], variant => .ok (variant, [])
  | (name, j) :: more, variant =>
    if name = tag then
      match variant with
      | some _ => .error (.duplicateField tag)
      | none =>
        match takeTag variants j with
        | .error m => .error m
        | .ok v => takeTagged tag variants more (some v)
    else
      match takeTagged tag variants more variant with
      | .error m => .error m
      | .ok (variant, kept) => .ok (variant, (name, j) :: kept)

/-- A choice between records.  The name of the chosen one stands in the field `tag`,
anywhere among its other fields, or in front of them in a list.  Each variant has a
name and a reader of its other fields. -/
def tagged {α : Type} (wanted tag : String) (variants : List (String × (Json → Except Mismatch α)))
    (write : α → String × List (String × Json)) : Codec α where
  read room t :=
    match t with
    | .object fs stop =>
      if room ≤ 1 then .error (.fault .tooDeep)
      else match readTagged (room - 1) tag variants fs none with
        | .error e => .error e
        | .ok (variant, kept) =>
          match stop.readFault?, variant with
          | some f, _ => .error (.fault f)
          | none, none => .error (.mismatch (.missingField tag))
          | none, some variant => liftMismatch (variant (.object kept))
    | .list [] stop =>
      if room ≤ 1 then .error (.fault .tooDeep)
      else match stop.readFault? with
        | some f => .error (.fault f)
        | none => .error (.mismatch (.missingField tag))
    | .list (t :: items) stop =>
      if room ≤ 1 then .error (.fault .tooDeep)
      else match readTag variants t with
        | .error e => .error e
        | .ok variant =>
          match Tree.keepItems (room - 1) items with
          | .error f => .error (.fault f)
          | .ok kept =>
            match stop.readFault? with
            | some f => .error (.fault f)
            | none => liftMismatch (variant (.list kept))
    | t => .error (t.unwanted wanted)
  take j :=
    match j with
    | .object fs =>
      match takeTagged tag variants fs none with
      | .error m => .error m
      | .ok (none, _) => .error (.missingField tag)
      | .ok (some variant, kept) => variant (.object kept)
    | .list [] => .error (.missingField tag)
    | .list (j :: items) =>
      match takeTag variants j with
      | .error m => .error m
      | .ok variant => variant (.list items)
    | j => .error (unwanted j wanted)
  write a :=
    let (name, fields) := write a
    .object ((tag, .text name) :: fields)

end Codec

end Almanac.Json
