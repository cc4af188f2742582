import Almanac.Cache.LocalTier
import Almanac.Cache.SharedStore
import Almanac.Document.Chart

/-!
# The cache

Charts are looked up in the local tier, then in the shared store, and drawn only if
neither has them.  A store that fails, or that holds something that is no chart, only
makes the cache draw the chart again: it is counted, and never the answer.

A request that misses joins the cell of its key, so that concurrent requests share one
drawing (`Almanac.Cache.Flight`); `Cache.getOrDraw` is such a request that runs alone.
-/

namespace Almanac

/-- What a cache has done so far.  The counts are unbounded; none of them comes near
`2 ^ 64`, where a word would begin again. -/
structure Stats where
  localHits : Nat := 0
  sharedHits : Nat := 0
  computations : Nat := 0
  sharedFailures : Nat := 0
  deriving Repr, DecidableEq

/-- A cache without its shared store. -/
structure Layer where
  tier : LocalTier Chart
  /-- The life of a chart in the shared store. -/
  rawSpan : Option Nat
  stats : Stats := {}
  /-- The cells that requests for a key join. -/
  inflight : Table String Nat := .empty
  /-- The number of cells made so far, which is the name of the next one. -/
  cells : Nat := 0

namespace Layer

def spanOf (seconds : UInt64) : Option Nat := some (Span.ofSeconds seconds.toNat).nanos

/-- An empty cache.  A chart lives no longer in the local tier than in the store. -/
def ofSettings (s : CacheSettings) : Layer where
  tier := .empty s.localCapacity.toNat (spanOf (min s.localTtl s.rawTtl))
  rawSpan := spanOf s.rawTtl

def countLocalHit (l : Layer) : Layer :=
  { l with stats := { l.stats with localHits := l.stats.localHits + 1 } }

def countSharedHit (l : Layer) : Layer :=
  { l with stats := { l.stats with sharedHits := l.stats.sharedHits + 1 } }

def countComputation (l : Layer) : Layer :=
  { l with stats := { l.stats with computations := l.stats.computations + 1 } }

def countSharedFailure (l : Layer) : Layer :=
  { l with stats := { l.stats with sharedFailures := l.stats.sharedFailures + 1 } }

def countOutcome {α : Type} (l : Layer) : Except StoreFault α → Layer
  | .ok _ => l
  | .error _ => l.countSharedFailure

def keep (l : Layer) (now : Nat) (key : String) (chart : Chart) : Layer :=
  { l with tier := l.tier.insert now key chart }

def look (l : Layer) (now : Nat) (key : String) : Option Chart × Layer :=
  let (found, tier) := l.tier.get now key
  let l := { l with tier }
  match found with
  | some chart => (some chart, l.countLocalHit)
  | none => (none, l)

def decode (payload : ByteArray) : Option Chart := (Chart.codec.decodeBytes payload).toOption

def encode (chart : Chart) : ByteArray := (Chart.codec.encode chart).toUTF8

/-- Takes the store's answer to a look-up: a chart goes into the local tier, and
whatever else is not an empty answer is a failure. -/
def take (l : Layer) (now : Nat) (key : String) :
    Except StoreFault (Option ByteArray) → Option Chart × Layer
  | .error _ => (none, l.countSharedFailure)
  | .ok none => (none, l)
  | .ok (some payload) =>
    match decode payload with
    | some chart => (some chart, l.countSharedHit.keep now key chart)
    | none => (none, l.countSharedFailure)

/-! ## Cells -/

/-- The cell of a key; a new one if the key has none. -/
def join (l : Layer) (key : String) : Nat × Layer :=
  match l.inflight.get? key with
  | some cell => (cell, l)
  | none => (l.cells, { l with inflight := l.inflight.put key l.cells, cells := l.cells + 1 })

/-- A request leaves its cell: the key has no cell any more, if it was this one. -/
def leave (l : Layer) (key : String) (cell : Nat) : Layer :=
  if l.inflight.get? key = some cell then { l with inflight := l.inflight.erase key } else l

end Layer

structure Cache (σ : Type) where
  layer : Layer
  store : σ

namespace Cache

variable {σ : Type} (S : Store σ)

def ask (now : Nat) (key : String) (c : Cache σ) : Option Chart × Cache σ :=
  let (answer, store) := S.get now key c.store
  let (found, layer) := c.layer.take now key answer
  (found, ⟨layer, store⟩)

def lookup (now : Nat) (key : String) (c : Cache σ) : Option Chart × Cache σ :=
  match c.layer.look now key with
  | (some chart, layer) => (some chart, { c with layer })
  | (none, layer) => ask S now key { c with layer }

def publish (now : Nat) (key : String) (chart : Chart) (c : Cache σ) : Cache σ :=
  let (outcome, store) := S.set now key (Layer.encode chart) c.layer.rawSpan c.store
  ⟨c.layer.countOutcome outcome, store⟩

/-- A request for a chart that runs alone: looked up, looked up again once it has the
cell of its key, and then drawn, with the given result. -/
def getOrDraw (now : Nat) (key : String) (drawn : Except Failure Chart) (c : Cache σ) :
    Except Failure Chart × Cache σ :=
  match lookup S now key c with
  | (some chart, c) => (.ok chart, c)
  | (none, c) =>
    let (cell, layer) := c.layer.join key
    match lookup S now key { c with layer } with
    | (some chart, c) => (.ok chart, { c with layer := c.layer.leave key cell })
    | (none, c) =>
      let c := { c with layer := c.layer.countComputation }
      match drawn with
      | .error e => (.error e, { c with layer := c.layer.leave key cell })
      | .ok chart =>
        let c := publish S now key chart { c with layer := c.layer.keep now key chart }
        (.ok chart, { c with layer := c.layer.leave key cell })

def invalidate (key : String) (c : Cache σ) : Cache σ :=
  let tier := (c.layer.tier.remove key).2
  let (outcome, store) := S.delete key c.store
  ⟨{ c.layer with tier }.countOutcome outcome, store⟩

def purge (now : Nat) (c : Cache σ) : Nat × Cache σ :=
  let (count, tier) := c.layer.tier.purge now
  (count, { c with layer := { c.layer with tier } })

/-- Empties the local tier, forgets all cells and closes the store. -/
def shutdown (c : Cache σ) : Cache σ where
  layer := { c.layer with tier := c.layer.tier.clear, inflight := .empty }
  store := S.close c.store

/-- A cache that has tried to reach its store.  It works whether or not the store
answered. -/
def connect (layer : Layer) (store : σ) : Cache σ := ⟨layer, (S.ping store).2⟩

end Cache

end Almanac
