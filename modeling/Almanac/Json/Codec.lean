import Almanac.Json.Reader
import Almanac.Json.Mismatch

/-!
# Codecs

A codec says how values of a type are written as JSON and read back.  There are two
readers: `read` walks the tree of a text, and `take` looks at a JSON value that was
kept for later because something that follows it decides what it means.  Both
report the first problem; in a text that is the first one in the text's order.

The combinators here make codecs for integers, texts, lists, optional values and
closed sets of names.  Records are in `Almanac.Json.Record`.
-/

namespace Almanac.Json

/-- How values of a type are written and read. -/
structure Codec (α : Type) where
  /-- Reads from the tree of a text; `room` is one more than the number of levels
  that may still be entered. -/
  read : (room : Nat) → Tree → Except ReadError α
  /-- Reads from a value kept for later. -/
  take : Json → Except Mismatch α
  write : α → Json

/-- The number of levels that a text may have, and one more. -/
def maxRoom : Nat := 128

def liftMismatch {α : Type} : Except Mismatch α → Except ReadError α
  | .ok a => .ok a
  | .error m => .error (.mismatch m)

def liftFault {α : Type} : Except Fault α → Except ReadError α
  | .ok a => .ok a
  | .error f => .error (.fault f)

namespace Codec

/-- A whole text read as a value: nothing but blanks may follow it. -/
def decode {α : Type} (c : Codec α) (cs : List Char) : Except ReadError α :=
  let (t, rest) := Tree.ofText cs
  match c.read maxRoom t with
  | .error e => .error e
  | .ok a =>
    match rest.map skipSpace with
    | some (_ :: _) => .error (.fault .trailingCharacters)
    | _ => .ok a

def decodeText {α : Type} (c : Codec α) (s : String) : Except ReadError α := c.decode s.toList

def decodeBytes {α : Type} (c : Codec α) (bytes : ByteArray) : Except ReadError α :=
  c.decode (charsFrom bytes 0)

def encode {α : Type} (c : Codec α) (a : α) : String := (c.write a).compact

/-! ## Scalars -/

/-- A value that is no list and no object, as it stands in a tree. -/
def scalar? : Tree → Except Fault (Option Json)
  | .null => .ok (some .null)
  | .bool b => .ok (some (.bool b))
  | .number n => n.value.map fun v => some (.number v)
  | .text t => t.map fun s => some (.text s)
  | .list _ _ => .ok none
  | .object _ _ => .ok none
  | .broken b _ => .error b.read

/-- A codec of values that are no list and no object; `of` may refuse a scalar. -/
def scalar {α : Type} (wanted : String) (of : Json → Except Mismatch α) (write : α → Json) :
    Codec α where
  read _ t :=
    match scalar? t with
    | .ok (some j) => liftMismatch (of j)
    | .ok none => .error (t.unwanted wanted)
    | .error f => .error (.fault f)
  take j :=
    match j with
    | .list _ => .error (unwanted j wanted)
    | .object _ => .error (unwanted j wanted)
    | j => of j
  write := write

def integer {α : Type} (name : String) (lo hi : Int) (ofInt : Int → α) (toInt : α → Int) :
    Codec α :=
  scalar name
    (fun j => match j with
      | .number (.int i) =>
        if lo ≤ i ∧ i ≤ hi then .ok (ofInt i) else .error (.wrongValue (.integer i) name)
      | j => .error (unwanted j name))
    fun a => .number (.int (toInt a))

def uint8 : Codec UInt8 :=
  integer "u8" 0 (UInt8.size - 1) (fun i => UInt8.ofNat i.toNat) fun n => n.toNat

def uint32 : Codec UInt32 :=
  integer "u32" 0 (UInt32.size - 1) (fun i => UInt32.ofNat i.toNat) fun n => n.toNat

def int32 : Codec Int32 :=
  integer "i32" Int32.minValue.toInt Int32.maxValue.toInt Int32.ofInt Int32.toInt

/-- Unsigned numbers of 64 bits, under a name of their own. -/
def word (name : String) : Codec UInt64 :=
  integer name 0 (UInt64.size - 1) (fun i => UInt64.ofNat i.toNat) fun n => n.toNat

def uint64 : Codec UInt64 := word "u64"

def count : Codec UInt64 := word "usize"

def realOfInt (i : Int) : Binary64 :=
  if i < 0 then (Binary64.ofNat i.natAbs).neg else Binary64.ofNat i.natAbs

/-- Binary numbers; an integer is taken for the nearest one. -/
def real : Codec Binary64 :=
  scalar "f64"
    (fun j => match j with
      | .number (.int i) => .ok (realOfInt i)
      | .number (.real x) => .ok x
      | j => .error (unwanted j "f64"))
    fun x => .number (.real x)

def text : Codec String :=
  scalar "a string"
    (fun j => match j with
      | .text s => .ok s
      | j => .error (unwanted j "a string"))
    .text

def spelled {α : Type} (wanted : String) (parse : String → Except String α) (show' : α → String) :
    Codec α :=
  scalar wanted
    (fun j => match j with
      | .text s =>
        match parse s with
        | .ok a => .ok a
        | .error why => .error (.refused why)
      | j => .error (unwanted j wanted))
    fun a => .text (show' a)

/-! ## Lists and optional values -/

/-- Reads values one after another, up to the first that fails. -/
def each {α β ε : Type} (f : α → Except ε β) : List α → Except ε (List β)
  | [] => .ok []
  | a :: as =>
    match f a with
    | .error e => .error e
    | .ok b =>
      match each f as with
      | .error e => .error e
      | .ok bs => .ok (b :: bs)

def list {α : Type} (c : Codec α) : Codec (List α) where
  read room t :=
    match t with
    | .list items stop =>
      if room ≤ 1 then .error (.fault .tooDeep)
      else match each (c.read (room - 1)) items with
        | .error e => .error e
        | .ok as =>
          match stop.readFault? with
          | some f => .error (.fault f)
          | none => .ok as
    | t => .error (t.unwanted "a sequence")
  take j :=
    match j with
    | .list items => each c.take items
    | j => .error (unwanted j "a sequence")
  write as := .list (as.map c.write)

def optional {α : Type} (c : Codec α) : Codec (Option α) where
  read room t :=
    match t with
    | .null => .ok none
    | t => (c.read room t).map some
  take j :=
    match j with
    | .null => .ok none
    | j => (c.take j).map some
  write a :=
    match a with
    | none => .null
    | some a => c.write a

/-! ## Closed sets of names -/

def ofName {α : Type} (variants : List (String × α)) (name : String) : Except Mismatch α :=
  match variants.find? (fun v => v.1 == name) with
  | some v => .ok v.2
  | none => .error (.unknownVariant name (variants.map (·.1)))

/-- The end of an object that holds a single name: the bracket has to follow. -/
def finishName (stop : Stop Tree) : Except Fault Unit :=
  match stop with
  | .closed => .ok ()
  | .cut false b => if b.read.isEnd then .error b.read else .error .expectedValue
  | _ => .error .expectedValue

/-- A name written as an object with one field that is `null`. -/
def readNamed {α : Type} (of : String → Except Mismatch α) (fields : List (TextToken × Tree))
    (stop : Stop Tree) : Except ReadError α :=
  match fields with
  | [] =>
    match stop with
    | .cut _ b => .error (.fault b.read)
    | .badKey key => .error (key.unwanted "variant identifier")
    | _ => .error (.fault .expectedValue)
  | (.error f, _) :: _ => .error (.fault f)
  | (.ok name, t) :: more =>
    match of name with
    | .error m => .error (.mismatch m)
    | .ok a =>
      match t, more with
      | .null, [] =>
        match finishName stop with
        | .ok _ => .ok a
        | .error f => .error (.fault f)
      | .null, _ :: _ => .error (.fault .expectedValue)
      | t, _ => .error (t.unwanted "unit")

/-- One of finitely many values, each with a name.  A name is a text, or an object
with the name as its only field. -/
def choice {α : Type} (variants : List (String × α)) (name : α → String) : Codec α where
  read room t :=
    match t with
    | .text (.ok s) => liftMismatch (ofName variants s)
    | .text (.error f) => .error (.fault f)
    | .object fields stop =>
      if room ≤ 1 then .error (.fault .tooDeep) else readNamed (ofName variants) fields stop
    | .broken b begun => .error (.fault (if begun then .expectedValue else b.read))
    | _ => .error (.fault .expectedValue)
  take j :=
    match j with
    | .text s => ofName variants s
    | .object [(k, v)] =>
      match ofName variants k with
      | .error m => .error m
      | .ok a =>
        match v with
        | .null => .ok a
        | .object [] => .ok a
        | v => .error (unwanted v "unit")
    | .object _ => .error (.wrongValue .object "map with a single key")
    | j => .error (unwanted j "string or map")
  write a := .text (name a)

end Codec

end Almanac.Json
