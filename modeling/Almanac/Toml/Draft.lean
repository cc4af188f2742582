import Almanac.Toml.Value

/-!
# Tables in the making

The lines of a document add to its tables one after another.  How a table came to be
decides what may still be added: a table is headed once, and the tables that dotted keys
have made are open to dotted keys only.
-/

namespace Almanac.Toml

/-- A key: the names of the tables that it leads through, and its own name. -/
structure Key where
  parents : List String
  name : String
  deriving Repr, DecidableEq

def Key.names (k : Key) : List String := k.parents ++ [k.name]

inductive Origin where
  /-- By a header of its own. -/
  | header
  /-- On the way of a header to a table further down. -/
  | implied
  /-- On the way of a dotted key. -/
  | dotted
  deriving Repr, DecidableEq

/-- What a name stands for in a table in the making. -/
inductive Draft where
  | value (v : Value)
  | table (origin : Origin) (fields : List (String × Draft))
  /-- A list of tables; only the last of them is still in the making. -/
  | list (earlier : List Value) (last : List (String × Draft))

namespace Draft

/-- The fields of a table in the making; their names are distinct. -/
abbrev Fields := List (String × Draft)

mutual
def toValue : Draft → Value
  | .value v => v
  | .table _ fields => .table (fieldValues fields)
  | .list earlier last => .list (earlier ++ [.table (fieldValues last)])
def fieldValues : List (String × Draft) → List (String × Value)
  | [] => []
  | (name, d) :: fields => (name, d.toValue) :: fieldValues fields
end

def replace (fields : Fields) (name : String) (d : Draft) : Fields :=
  fields.map fun f => if f.1 = name then (name, d) else f

/-- Changes the table that the names lead to.  Tables that are missing on the way are made
with the origin `link`; dotted keys do not enter a table with a header. -/
def change (link : Origin) (act : Origin → Fields → Option Fields) :
    List String → Origin → Fields → Option Fields
  | [], here, fields => act here fields
  | name :: rest, _, fields =>
    match fields.lookup name with
    | none => (change link act rest link []).map fun inner => fields ++ [(name, .table link inner)]
    | some (.value _) => none
    | some (.table origin inner) =>
      if link = .dotted ∧ origin = .header then none
      else
        (change link act rest origin inner).map fun inner =>
          replace fields name (.table origin inner)
    | some (.list earlier last) =>
      (change link act rest .header last).map fun last => replace fields name (.list earlier last)

/-- Adds a value.  The key has to be free, and the table that a dotted key leads to has to
be made by dotted keys. -/
def add (k : Key) (v : Value) (fields : Fields) : Option Fields :=
  change .dotted
    (fun here fields =>
      if (k.parents ≠ [] ∧ here ≠ .dotted) ∨ (fields.lookup k.name).isSome then none
      else some (fields ++ [(k.name, .value v)]))
    k.parents .header fields

/-- Heads a table, which must not have a header yet. -/
def head (k : Key) (fields : Fields) : Option Fields :=
  change .implied
    (fun _ fields =>
      match fields.lookup k.name with
      | none => some (fields ++ [(k.name, .table .header [])])
      | some (.table .implied inner) => some (replace fields k.name (.table .header inner))
      | some _ => none)
    k.parents .header fields

/-- Begins a further table of a list of tables. -/
def headElement (k : Key) (fields : Fields) : Option Fields :=
  change .implied
    (fun _ fields =>
      match fields.lookup k.name with
      | none => some (fields ++ [(k.name, .list [] [])])
      | some (.list earlier last) =>
        some (replace fields k.name (.list (earlier ++ [.table (fieldValues last)]) []))
      | some _ => none)
    k.parents .header fields

/-- The table of a row of keys with their values. -/
def ofPairs (pairs : List (Key × Value)) : Option Value :=
  (pairs.foldlM (fun fields (k, v) => add k v fields) []).map fun fields =>
    .table (fieldValues fields)

end Draft

inductive Statement where
  | head (k : Key)
  | headElement (k : Key)
  | pair (k : Key) (v : Value)
  deriving Repr

/-- A document in the making, with the names of the table that pairs are added to. -/
structure Draft.Document where
  fields : Draft.Fields := []
  current : List String := []

namespace Draft.Document

def add (d : Document) : Statement → Option Document
  | .head k => (Draft.head k d.fields).map fun fields => ⟨fields, k.names⟩
  | .headElement k => (Draft.headElement k d.fields).map fun fields => ⟨fields, k.names⟩
  | .pair k v =>
    (change .implied (fun _ fields => Draft.add k v fields) d.current .header d.fields).map
      fun fields => { d with fields }

def ofStatements (lines : List Statement) : Option Value :=
  (lines.foldlM add {}).map fun d => .table (fieldValues d.fields)

end Draft.Document

end Almanac.Toml
