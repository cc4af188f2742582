import Almanac.Table

/-!
# The local tier

A table of values with a bounded number of entries and a bounded life.  An entry that
has outlived the tier's span is never answered, but it counts until it is read,
purged or pushed out.  A new name that finds the tier full pushes out the oldest
entry; a name that is already there only gets a new value and a new age.
-/

namespace Almanac

/-- A value with the time at which it was put, in nanoseconds. -/
structure Stamped (α : Type) where
  value : α
  time : Nat
  deriving Repr, DecidableEq

/-- A bounded table of values that grow old.  A capacity of zero keeps nothing; a
span of none lasts for ever. -/
structure LocalTier (α : Type) where
  capacity : Nat
  span : Option Nat
  entries : Table String (Stamped α)

namespace LocalTier

variable {α : Type}

def empty (capacity : Nat) (span : Option Nat) : LocalTier α := ⟨capacity, span, .empty⟩

def isFresh (t : LocalTier α) (now : Nat) (e : Stamped α) : Bool :=
  match t.span with
  | none => true
  | some span => now - e.time < span

/-- The number of entries, old ones included. -/
def size (t : LocalTier α) : Nat := t.entries.size

/-- The value of a name, if it is fresh; an entry that is not is dropped. -/
def get (t : LocalTier α) (now : Nat) (name : String) : Option α × LocalTier α :=
  match t.entries.get? name with
  | none => (none, t)
  | some e =>
    if t.isFresh now e then (some e.value, t)
    else (none, { t with entries := t.entries.erase name })

def remove (t : LocalTier α) (name : String) : Bool × LocalTier α :=
  ((t.entries.get? name).isSome, { t with entries := t.entries.erase name })

def purged (t : LocalTier α) (now : Nat) : LocalTier α :=
  { t with entries := t.entries.filter fun _ e => t.isFresh now e }

def purge (t : LocalTier α) (now : Nat) : Nat × LocalTier α :=
  (t.size - (t.purged now).size, t.purged now)

/-- The name that was put first among some entries. -/
def oldest? : List (String × Stamped α) → Option (String × Stamped α)
  | [] => none
  | e :: es =>
    match oldest? es with
    | none => some e
    | some o => if o.2.time < e.2.time then some o else some e

def evict (t : LocalTier α) : LocalTier α :=
  match oldest? t.entries.entries with
  | none => t
  | some e => { t with entries := t.entries.erase e.1 }

/-- A tier that can take one more name: if it is full, old entries go first, and the
oldest one if that is not enough. -/
def makeRoom (t : LocalTier α) (now : Nat) : LocalTier α :=
  if t.size < t.capacity then t
  else if (t.purged now).size < t.capacity then t.purged now
  else (t.purged now).evict

def insert (t : LocalTier α) (now : Nat) (name : String) (a : α) : LocalTier α :=
  if t.capacity = 0 then t
  else
    let t := if (t.entries.get? name).isSome then t else t.makeRoom now
    { t with entries := t.entries.put name ⟨a, now⟩ }

def clear (t : LocalTier α) : LocalTier α := { t with entries := .empty }

end LocalTier

end Almanac
