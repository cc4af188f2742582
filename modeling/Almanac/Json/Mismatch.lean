import Almanac.Text.Printable
import Almanac.Json.Tree

/-!
# Values of the wrong kind

What a reader says when a text is JSON but does not hold the record that was asked
for, and the two ways in which reading can fail.
-/

namespace Almanac.Json

/-- A value as a message names it. -/
inductive Found where
  | null
  | bool (b : Bool)
  | integer (i : Int)
  | real (x : Binary64)
  | text (s : String)
  | list
  | object
  deriving Repr, DecidableEq

def Found.describe : Found → String
  | .null => "null"
  | .bool b => "boolean `" ++ (if b then "true" else "false") ++ "`"
  | .integer i => "integer `" ++ Text.decimal i ++ "`"
  | .real x => "floating point `" ++ String.ofList (numberFormat.write x) ++ "`"
  | .text s => "string " ++ Text.quoted s
  | .list => "sequence"
  | .object => "map"

def Number.found : Number → Found
  | .int i => .integer i
  | .real x => .real x

def found : Json → Found
  | .null => .null
  | .bool b => .bool b
  | .number n => n.found
  | .text s => .text s
  | .list _ => .list
  | .object _ => .object

inductive Mismatch where
  | wrongKind (what : Found) (wanted : String)
  | wrongValue (what : Found) (wanted : String)
  | wrongLength (length : Nat) (wanted : String)
  | unknownVariant (name : String) (variants : List String)
  | missingField (name : String)
  | duplicateField (name : String)
  /-- A text that its own reader refuses, with that reader's wording. -/
  | refused (why : String)
  deriving Repr, DecidableEq

def describeChoice : List String → String
  | [] => "there are no variants"
  | [a] => "expected `" ++ a ++ "`"
  | [a, b] => "expected `" ++ a ++ "` or `" ++ b ++ "`"
  | names => "expected one of " ++ ", ".intercalate (names.map fun n => "`" ++ n ++ "`")

def Mismatch.message : Mismatch → String
  | .wrongKind what wanted => "invalid type: " ++ what.describe ++ ", expected " ++ wanted
  | .wrongValue what wanted => "invalid value: " ++ what.describe ++ ", expected " ++ wanted
  | .wrongLength n wanted =>
    "invalid length " ++ Text.decimal n ++ ", expected " ++ wanted
  | .unknownVariant name variants =>
    "unknown variant `" ++ name ++ "`, " ++ describeChoice variants
  | .missingField name => "missing field `" ++ name ++ "`"
  | .duplicateField name => "duplicate field `" ++ name ++ "`"
  | .refused why => why

inductive ReadError where
  | fault (f : Fault)
  | mismatch (m : Mismatch)
  deriving Repr, DecidableEq

def ReadError.message : ReadError → String
  | .fault f => f.message
  | .mismatch m => m.message

inductive Category where
  /-- The text ended too early. -/
  | unfinished
  /-- The text is not JSON. -/
  | notJson
  /-- The text is JSON of the wrong shape. -/
  | wrongShape
  deriving Repr, DecidableEq

def ReadError.category : ReadError → Category
  | .fault f => if f.isEnd then .unfinished else .notJson
  | .mismatch _ => .wrongShape

/-- A value as a message names it.  A list or an object is named by its bracket; any
other value has to be read first. -/
def Tree.found : Tree → Except Fault Found
  | .null => .ok .null
  | .bool b => .ok (.bool b)
  | .number n => n.value.map Number.found
  | .text (.ok s) => .ok (.text s)
  | .text (.error f) => .error f
  | .list _ _ => .ok .list
  | .object _ _ => .ok .object
  | .broken b _ => .error b.read

/-- The error of a reader that wanted another kind of value. -/
def Tree.unwanted (t : Tree) (wanted : String) : ReadError :=
  match t.found with
  | .ok what => .mismatch (.wrongKind what wanted)
  | .error f => .fault f

/-- The mismatch of a reader that wanted another kind of value. -/
def unwanted (j : Json) (wanted : String) : Mismatch := .wrongKind j.found wanted

end Almanac.Json
