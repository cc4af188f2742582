import Mathlib
import Almanac.Proofs.Cache.Transparency

/-!
# Stores that keep a record

A store may write down every call that it gets, with its answer.  Nobody who calls it can
tell: caches over a store that keeps a record do what they do over the store itself,
`Caches.forget_step`.  So `Caches.exchanges` says what a call on a cache asks of its store.
-/

namespace Almanac

/-- A call that a store has got, with its answer. -/
inductive Exchange where
  | get (name : String) (answer : Except StoreFault (Option ByteArray))
  | set (name : String) (payload : ByteArray) (outcome : Except StoreFault Unit)
  | delete (name : String) (outcome : Except StoreFault Unit)

namespace Exchange

def isFault : Exchange → Bool
  | get _ (.error _) => true
  | set _ _ (.error _) => true
  | delete _ (.error _) => true
  | _ => false

def isUndecodable : Exchange → Bool
  | get _ (.ok (some payload)) => (Layer.decode payload).isNone
  | _ => false

end Exchange

/-- A store with the record of its calls, the latest one last. -/
structure Recorded (σ : Type) where
  store : σ
  record : List Exchange := []

namespace Recorded

variable {σ : Type}

def note (r : Recorded σ) (store : σ) (x : Exchange) : Recorded σ := ⟨store, r.record ++ [x]⟩

end Recorded

def Store.recorded {σ : Type} (S : Store σ) : Store (Recorded σ) where
  get now name r :=
    let (answer, store) := S.get now name r.store
    (answer, r.note store (.get name answer))
  set now name payload span r :=
    let (outcome, store) := S.set now name payload span r.store
    (outcome, r.note store (.set name payload outcome))
  delete name r :=
    let (outcome, store) := S.delete name r.store
    (outcome, r.note store (.delete name outcome))
  ping r :=
    let (outcome, store) := S.ping r.store
    (outcome, { r with store })
  close r := { r with store := S.close r.store }

namespace Recorded

variable {σ : Type} (S : Store σ) (now : Nat) (name : String) (r : Recorded σ)

theorem get_recorded : S.recorded.get now name r = ((S.get now name r.store).1,
    r.note (S.get now name r.store).2 (.get name (S.get now name r.store).1)) := rfl

theorem set_recorded (payload : ByteArray) (span : Option Nat) :
    S.recorded.set now name payload span r = ((S.set now name payload span r.store).1,
      r.note (S.set now name payload span r.store).2
        (.set name payload (S.set now name payload span r.store).1)) := rfl

theorem delete_recorded : S.recorded.delete name r = ((S.delete name r.store).1,
    r.note (S.delete name r.store).2 (.delete name (S.delete name r.store).1)) := rfl

end Recorded

/-! ## Nobody notices -/

namespace Cache

variable {σ : Type} (S : Store σ) (c : Cache (Recorded σ)) (now : Nat) (key : String)

def forget (c : Cache (Recorded σ)) : Cache σ := ⟨c.layer, c.store.store⟩

theorem forget_lookup :
    c.forget.lookup S now key = Prod.map id forget (c.lookup S.recorded now key) := by
  unfold lookup forget
  split
  · rename_i hlook
    simp only [hlook, Prod.map, id]
  · rename_i hlook
    simp only [hlook]
    rfl

theorem forget_getOrDraw (drawn : Except Failure Chart) :
    c.forget.getOrDraw S now key drawn
      = Prod.map id forget (c.getOrDraw S.recorded now key drawn) := by
  unfold getOrDraw
  rw [forget_lookup]
  rcases c.lookup S.recorded now key with ⟨_ | chart, c₁⟩
  · have hagain := forget_lookup S { c₁ with layer := (c₁.layer.join key).2 } now key
    simp only [Prod.map, id] at hagain ⊢
    rw [show ({ c₁.forget with layer := (c₁.forget.layer.join key).2 } : Cache σ)
      = forget { c₁ with layer := (c₁.layer.join key).2 } from rfl, hagain]
    rcases lookup S.recorded now key { c₁ with layer := (c₁.layer.join key).2 } with
      ⟨_ | chart, c₂⟩
    · cases drawn <;> rfl
    · rfl
  · rfl

end Cache

namespace Caches

variable {n : Nat} {σ : Type}

def forget (cs : Caches n (Recorded σ)) : Caches n σ := ⟨cs.layers, cs.store.store⟩

def recorded (cs : Caches n σ) : Caches n (Recorded σ) := ⟨cs.layers, ⟨cs.store, []⟩⟩

/-- **Nobody notices that a store keeps a record.** -/
theorem forget_step (S : Store σ) (cs : Caches n (Recorded σ)) (call : Call n) :
    cs.forget.step S call = Prod.map id forget (cs.step S.recorded call) := by
  cases call with
  | getOrDraw i now key drawn =>
      have hrequest := (cs.cache i).forget_getOrDraw S now key drawn
      rw [step, show cs.forget.cache i = (cs.cache i).forget from rfl, hrequest]
      rfl
  | invalidate i key => rfl
  | purge i now => rfl
  | shutdown i => rfl

def Call.target : Call n → Fin n
  | .getOrDraw i _ _ _ => i
  | .invalidate i _ => i
  | .purge i _ => i
  | .shutdown i => i

theorem layers_step_of_ne (S : Store σ) (cs : Caches n σ) (call : Call n) {j : Fin n}
    (h : j ≠ call.target) : (cs.step S call).2.layers j = cs.layers j := by
  cases call <;> exact if_neg h

/-- What a call on one of the caches asks of the store, and what it is answered. -/
def exchanges (S : Store σ) (cs : Caches n σ) (call : Call n) : List Exchange :=
  (cs.recorded.step S.recorded call).2.store.record

/-- All that one of the caches asks of the store in some calls. -/
def record (S : Store σ) (i : Fin n) (cs : Caches n σ) : List (Call n) → List Exchange
  | [] => []
  | call :: calls =>
    (if call.target = i then cs.exchanges S call else []) ++ record S i (cs.step S call).2 calls

end Caches

end Almanac
