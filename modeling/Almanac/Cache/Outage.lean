import Almanac.Cache.SharedStore

/-!
# Outages

A memory store in front of which single operations can be refused, and switched on
again.  It cannot be closed: whoever closes it only stops using it.
-/

namespace Almanac

inductive StoreCall where
  | get
  | set
  | delete
  | ping
  deriving Repr, DecidableEq

def StoreCall.name : StoreCall → String
  | get => "get"
  | set => "set"
  | delete => "delete"
  | ping => "ping"

/-- A memory store with the operations that are refused. -/
structure Outage where
  memory : SharedStore := {}
  refused : List StoreCall := []

namespace Outage

def attempt {α : Type} (call : StoreCall)
    (act : SharedStore → Except StoreFault α × SharedStore) (s : Outage) :
    Except StoreFault α × Outage :=
  if call ∈ s.refused then (.error ⟨call.name ++ " refused"⟩, s)
  else
    let (result, memory) := act s.memory
    (result, { s with memory })

def store : Store Outage where
  get now name := attempt .get (SharedStore.get now name)
  set now name payload span := attempt .set (SharedStore.set now name payload span)
  delete name := attempt .delete (SharedStore.delete name)
  ping := attempt .ping SharedStore.ping
  close s := s

end Outage

end Almanac
