import Almanac.Failure
import Almanac.Table

/-!
# Shared stores

What a cache needs of a store that several caches share: payloads of bytes under
names, each with a life.  Every call may fail, and a call may change the store even
if it only reads.

`SharedStore` is such a store that lives in memory.  An entry whose life is over is
never answered; it is dropped when it is read, when the store is purged, and by a sweep
before every 64th accepted write.  A closed store is empty and refuses every call.
-/

namespace Almanac

/-- The operations of a shared store whose states are of type `σ`.  Times and spans
are in nanoseconds; a span of none lasts for ever. -/
structure Store (σ : Type) where
  get : (now : Nat) → (name : String) → σ → Except StoreFault (Option ByteArray) × σ
  set : (now : Nat) → (name : String) → (payload : ByteArray) → (span : Option Nat) → σ →
    Except StoreFault Unit × σ
  delete : (name : String) → σ → Except StoreFault Unit × σ
  ping : σ → Except StoreFault Unit × σ
  close : σ → σ

/-! ## The memory store -/

/-- A payload with the time at which its life ends. -/
structure Stored where
  payload : ByteArray
  /-- None means that it lives for ever. -/
  expiry : Option Nat

def Stored.isLive (now : Nat) (e : Stored) : Bool :=
  match e.expiry with
  | none => true
  | some expiry => now < expiry

structure SharedStore where
  entries : Table String Stored := .empty
  closed : Bool := false
  /-- The number of writes that were accepted. -/
  writes : Nat := 0

namespace SharedStore

/-- The number of accepted writes from one sweep to the next. -/
def sweepInterval : Nat := 64

def closedFault : StoreFault := ⟨"store closed"⟩

def name : String := "in-memory"

/-- The number of entries, dead ones included. -/
def size (s : SharedStore) : Nat := s.entries.size

def swept (s : SharedStore) (now : Nat) : SharedStore :=
  { s with entries := s.entries.filter fun _ e => e.isLive now }

def purge (s : SharedStore) (now : Nat) : Nat × SharedStore :=
  (s.size - (s.swept now).size, s.swept now)

/-- The payload of a name, if it is live; an entry that is not is dropped. -/
def get (now : Nat) (name : String) (s : SharedStore) :
    Except StoreFault (Option ByteArray) × SharedStore :=
  if s.closed then (.error closedFault, s)
  else
    match s.entries.get? name with
    | none => (.ok none, s)
    | some e =>
      if e.isLive now then (.ok (some e.payload), s)
      else (.ok none, { s with entries := s.entries.erase name })

/-- The store before its next accepted write is stored. -/
def counted (s : SharedStore) (now : Nat) : SharedStore :=
  let s' := if s.writes % sweepInterval = sweepInterval - 1 then s.swept now else s
  { s' with writes := s.writes + 1 }

def set (now : Nat) (name : String) (payload : ByteArray) (span : Option Nat) (s : SharedStore) :
    Except StoreFault Unit × SharedStore :=
  if s.closed then (.error closedFault, s)
  else
    let s := s.counted now
    (.ok (), { s with entries := s.entries.put name ⟨payload, span.map (now + ·)⟩ })

def delete (name : String) (s : SharedStore) : Except StoreFault Unit × SharedStore :=
  if s.closed then (.error closedFault, s)
  else (.ok (), { s with entries := s.entries.erase name })

def ping (s : SharedStore) : Except StoreFault Unit × SharedStore :=
  (if s.closed then .error closedFault else .ok (), s)

def close (s : SharedStore) : SharedStore := { s with entries := .empty, closed := true }

def store : Store SharedStore := ⟨get, set, delete, ping, close⟩

end SharedStore

end Almanac
