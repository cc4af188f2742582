import Mathlib
import Almanac.Proofs.Cache.Likeness
import Almanac.Proofs.Cache.Record
import Almanac.Proofs.Cache.Request

/-!
# Failures leave no trace

A request that is answered with a failure has looked twice into both tiers and found nothing.
That may have dropped entries that no longer show, and nothing else has been touched: whatever
is asked later is answered as if the request had not been made,
`Caches.failure_leaves_no_trace`.  Of the store it is only supposed that the same calls fail.
-/

namespace Almanac

/-! ## Stores whose calls may fail -/

inductive Fate where
  | served
  /-- It fails, and nothing is done. -/
  | refused (fault : StoreFault)
  /-- It is done, and then its answer is lost. -/
  | lost (fault : StoreFault)

/-- A store with the fates of its calls to come. -/
structure Fated (σ : Type) where
  store : σ
  fates : Stream' Fate

namespace Fated

variable {σ : Type} {α : Type}

def attempt (act : σ → Except StoreFault α × σ) (f : Fated σ) : Except StoreFault α × Fated σ :=
  match f.fates.head with
  | .served => ((act f.store).1, ⟨(act f.store).2, f.fates.tail⟩)
  | .refused fault => (.error fault, ⟨f.store, f.fates.tail⟩)
  | .lost fault => (.error fault, ⟨(act f.store).2, f.fates.tail⟩)

end Fated

/-- The operations of a store whose calls may fail.  Closing it is always possible. -/
def Store.fated {σ : Type} (S : Store σ) : Store (Fated σ) where
  get now name := Fated.attempt (S.get now name)
  set now name payload span := Fated.attempt (S.set now name payload span)
  delete name := Fated.attempt (S.delete name)
  ping := Fated.attempt S.ping
  close f := { f with store := S.close f.store }

namespace Fated

variable {σ α : Type} {S : Store σ} {R : Nat → σ → σ → Prop} {now : Nat} {f f' : Fated σ}

/-- Stores that are alike and have the same fates ahead. -/
structure Like (R : Nat → σ → σ → Prop) (now : Nat) (f f' : Fated σ) : Prop where
  store : R now f.store f'.store
  fates : f.fates = f'.fates

theorem Like.attempt (h : f.Like R now f') {act : σ → Except StoreFault α × σ}
    (hact : (act f.store).1 = (act f'.store).1 ∧ R now (act f.store).2 (act f'.store).2) :
    (f.attempt act).1 = (f'.attempt act).1 ∧
      (f.attempt act).2.Like R now (f'.attempt act).2 := by
  obtain ⟨hanswer, hstore⟩ := hact
  unfold Fated.attempt
  rw [← h.fates]
  cases f.fates.head with
  | served => exact ⟨hanswer, hstore, rfl⟩
  | refused fault => exact ⟨rfl, h.store, rfl⟩
  | lost fault => exact ⟨rfl, hstore, rfl⟩

theorem store_attempt (f : Fated σ) (act : σ → Except StoreFault α × σ) :
    (f.attempt act).2.store = f.store ∨ (f.attempt act).2.store = (act f.store).2 := by
  unfold attempt
  cases f.fates.head with
  | served => exact .inr rfl
  | refused fault => exact .inl rfl
  | lost fault => exact .inr rfl

end Fated

/-- **Failures do not tell likes apart.** -/
theorem Store.Respects.fated {σ : Type} {S : Store σ} {R : Nat → σ → σ → Prop}
    (hS : S.Respects R) : S.fated.Respects (Fated.Like R) where
  refl := fun now f => ⟨hS.refl now f.store, rfl⟩
  trans := fun h h' => ⟨hS.trans h.store h'.store, h.fates.trans h'.fates⟩
  mono := fun hle h => ⟨hS.mono hle h.store, h.fates⟩
  get := fun h name => h.attempt (hS.get h.store name)
  set := fun h name payload span => h.attempt (hS.set h.store name payload span)
  delete := fun h name => h.attempt (hS.delete h.store name)
  close := fun h => ⟨hS.close h.store, h.fates⟩

/-! ## What a failing request does -/

namespace Cache

variable {σ : Type} {S : Store σ} {now : Nat} {key : String} {drawn : Except Failure Chart}
  {e : Failure} {c c' c₁ c₂ : Cache σ}

structure Failed (S : Store σ) (now : Nat) (key : String) (c c' : Cache σ) : Prop where
  tier : c'.layer.tier = ((c.layer.tier.get now key).2.get now key).2
  rawSpan : c'.layer.rawSpan = c.layer.rawSpan
  inflight : c'.layer.inflight.get? key = none
  stats : c'.layer.stats = { c.layer.stats with
    computations := c.layer.stats.computations + 1
    sharedFailures := c'.layer.stats.sharedFailures }
  store : c'.store = (S.get now key (S.get now key c.store).2).2

/-- Two look-ups without result, and the cell of the key in between. -/
theorem Missed.failed (h : Missed S now key c c₁)
    (h' : Missed S now key { c₁ with layer := (c₁.layer.join key).2 } c₂) :
    Failed S now key c
      { c₂ with layer := c₂.layer.countComputation.leave key (c₁.layer.join key).1 } := by
  have hcell : c₂.layer.countComputation.inflight.get? key = some (c₁.layer.join key).1 := by
    rw [show c₂.layer.countComputation.inflight = c₂.layer.inflight from rfl, h'.inflight]
    exact c₁.layer.get?_join key
  have hjoin : (c₁.layer.join key).2.tier = c₁.layer.tier ∧
      (c₁.layer.join key).2.rawSpan = c₁.layer.rawSpan ∧
      (c₁.layer.join key).2.stats = c₁.layer.stats := by
    unfold Layer.join
    split <;> exact ⟨rfl, rfl, rfl⟩
  have hleave : c₂.layer.countComputation.leave key (c₁.layer.join key).1
      = { c₂.layer.countComputation with
          inflight := c₂.layer.countComputation.inflight.erase key } := if_pos hcell
  rw [hleave]
  refine ⟨?_, ?_, ?_, ?_, ?_⟩
  · exact h'.tier.trans (by rw [hjoin.1, h.tier])
  · exact h'.rawSpan.trans (hjoin.2.1.trans h.rawSpan)
  · exact (Table.get?_erase _ _ _).trans (if_pos rfl)
  · have hstats := h'.stats
    rw [hjoin.2.2, h.stats] at hstats
    exact congrArg (fun s : Stats => { s with computations := s.computations + 1 }) hstats
  · exact h'.store.trans (by rw [h.store])

/-- **A request that fails has found nothing, twice, and has kept nothing.** -/
theorem failed_getOrDraw (h : (c.getOrDraw S now key drawn).1 = .error e) :
    Failed S now key c (c.getOrDraw S now key drawn).2 := by
  cases c.way_getOrDraw S now key drawn with
  | found _ result => cases h.symm.trans (congrArg Prod.fst result)
  | foundLater _ _ result => cases h.symm.trans (congrArg Prod.fst result)
  | failed _ miss again result =>
      rw [result]
      exact (missed_lookup miss).failed (missed_lookup again)
  | sent _ _ _ _ result => cases h.symm.trans (congrArg Prod.fst result)

/-- A request that fails does not show in its layer, but for one more drawing in the
counters. -/
theorem Failed.like_layer (h : Failed S now key c c')
    (hroom : c.layer.tier.size ≤ c.layer.tier.capacity) : c.layer.Like now 1 c'.layer := by
  have htier : c.layer.tier.Like now c'.layer.tier := by
    have hfirst := LocalTier.like_get hroom now key
    rw [h.tier]
    exact hfirst.trans (LocalTier.like_get hfirst.room' now key)
  refine ⟨htier, h.rawSpan, ?_, ?_, ?_⟩ <;> rw [h.stats]

end Cache

/-! ## Nothing shows -/

namespace Caches

variable {n : Nat} {σ : Type} {S : Store σ} {R : Nat → σ → σ → Prop} {i : Fin n} {now : Nat}
  {key : String} {drawn : Except Failure Chart} {e : Failure}

theorem failed_step {cs : Caches n σ}
    (h : (cs.step S (.getOrDraw i now key drawn)).1 = some (.error e)) :
    (cs.cache i).Failed S now key ((cs.step S (.getOrDraw i now key drawn)).2.cache i) := by
  have hfailed := Cache.failed_getOrDraw (Option.some.inj h)
  rw [step_getOrDraw]
  show Cache.Failed S now key (cs.cache i) ⟨(cs.update i _).layers i, _⟩
  rw [layers_update_self]
  exact hfailed

theorem exchanges_of_error {cs : Caches n σ}
    (h : (cs.step S (.getOrDraw i now key drawn)).1 = some (.error e)) :
    ∃ answer answer', cs.exchanges S (.getOrDraw i now key drawn)
      = [.get key answer, .get key answer'] := by
  have hrecorded : (cs.recorded.step S.recorded (.getOrDraw i now key drawn)).1
      = some (.error e) := by
    have hforget := forget_step S cs.recorded (.getOrDraw i now key drawn)
    exact (congrArg Prod.fst hforget).symm.trans h
  exact ⟨_, _, congrArg Recorded.record (failed_step hrecorded).store⟩

def facing (cs : Caches n (Fated σ)) (fates : Stream' Fate) : Caches n (Fated σ) :=
  ⟨cs.layers, ⟨cs.store.store, fates⟩⟩

/-- **A failure does not show**, whatever the store does to the calls that follow. -/
theorem like_of_error (hS : S.Respects R)
    (hget : ∀ now name s, R now s (S.get now name s).2) {cs : Caches n (Fated σ)}
    (hroom : ∀ j, (cs.layers j).tier.size ≤ (cs.layers j).tier.capacity)
    (h : (cs.step S.fated (.getOrDraw i now key drawn)).1 = some (.error e))
    (fates : Stream' Fate) :
    (cs.facing fates).Like (Fated.Like R) now (fun j => if j = i then 1 else 0)
      ((cs.step S.fated (.getOrDraw i now key drawn)).2.facing fates) := by
  have hfailed := failed_step h
  have hunseen : ∀ f : Fated σ, R now f.store (S.fated.get now key f).2.store := by
    intro f
    rcases f.store_attempt (S.get now key) with hstore | hstore
    · exact hstore ▸ hS.refl now f.store
    · exact hstore ▸ hget now key f.store
  have hstore : R now cs.store.store
      (cs.step S.fated (.getOrDraw i now key drawn)).2.store.store := by
    have hlast := congrArg Fated.store hfailed.store
    rw [show (cs.step S.fated (.getOrDraw i now key drawn)).2.store.store = _ from hlast]
    exact hS.trans (hunseen _) (hunseen _)
  refine ⟨fun j => ?_, hstore, rfl⟩
  by_cases hj : j = i
  · subst hj
    rw [if_pos rfl]
    exact hfailed.like_layer (hroom j)
  · have hsame := layers_step_of_ne S.fated cs (.getOrDraw i now key drawn) hj
    rw [if_neg hj]
    show (cs.layers j).Like now 0 ((cs.step S.fated (.getOrDraw i now key drawn)).2.layers j)
    rw [hsame]
    exact Layer.like_refl (hroom j) now

/-- **A request that fails leaves no trace.**  Whatever has been asked before of caches that
share a memory store, and whatever becomes of the calls of the store: if a request is answered
with a failure, then later requests are answered, and charts drawn for them, as if it had not
been made.  No cell is left, the store has only been read, and the counters differ by one
drawing and the failures of the store. -/
theorem failure_leaves_no_trace {cs : Caches n (Fated SharedStore)}
    (hreached : cs.Reached SharedStore.store.fated)
    (hfailed : (cs.step SharedStore.store.fated (.getOrDraw i now key drawn)).1
      = some (.error e)) :
    let cs' := (cs.step SharedStore.store.fated (.getOrDraw i now key drawn)).2
    (∀ fates later, Timely now later →
      (cs'.facing fates).trace SharedStore.store.fated later
          = (cs.facing fates).trace SharedStore.store.fated later ∧
        ∀ before call more, later = before ++ call :: more →
          (((cs'.facing fates).after SharedStore.store.fated before).Draws
              SharedStore.store.fated call ↔
            ((cs.facing fates).after SharedStore.store.fated before).Draws
              SharedStore.store.fated call)) ∧
      (cs'.layers i).inflight.get? key = none ∧
      (∃ answer answer', cs.exchanges SharedStore.store.fated (.getOrDraw i now key drawn)
        = [.get key answer, .get key answer']) ∧
      (cs'.layers i).stats = { (cs.layers i).stats with
        computations := (cs.layers i).stats.computations + 1
        sharedFailures := (cs'.layers i).stats.sharedFailures } ∧
      ∀ j, j ≠ i → cs'.layers j = cs.layers j := by
  have hdone := failed_step hfailed
  refine ⟨fun fates later htime => ?_, hdone.inflight, exchanges_of_error hfailed, hdone.stats,
    fun j hj => layers_step_of_ne _ cs (.getOrDraw i now key drawn) hj⟩
  have hunread : ∀ now name s, SharedStore.Like now s (SharedStore.store.get now name s).2 :=
    fun now name s => s.like_get now name
  have hlike := like_of_error SharedStore.respects hunread hreached.room hfailed fates
  exact hlike.run SharedStore.respects.fated htime

/-- A cache that has kept a chart, over a store that holds it too and refuses the next call. -/
def keptOnce : Caches 1 (Fated SharedStore) :=
  (ofSettings (fun _ => {}) ⟨{}, fun k => if k = 3 then .refused ⟨"down"⟩ else .served⟩).after
    SharedStore.store.fated [.getOrDraw 0 0 "old" (.ok (keyed "old"))]

/-- A request that comes when the chart has grown old in both tiers. -/
def lateRequest : Call 1 := .getOrDraw 0 (10 ^ 18) "old" (.error (.missingChart "down"))

/-- The local tier is emptied by the request, but nobody can see it. -/
theorem failure_leaves_no_trace_lateRequest :
    let emptied := (keptOnce.step SharedStore.store.fated lateRequest).2
    (keptOnce.step SharedStore.store.fated lateRequest).1
        = some (.error (.missingChart "down")) ∧
      (keptOnce.layers 0).tier.size = 1 ∧ (emptied.layers 0).tier.size = 0 ∧
      ∀ fates later, Timely (10 ^ 18) later →
        (emptied.facing fates).trace SharedStore.store.fated later
          = (keptOnce.facing fates).trace SharedStore.store.fated later := by
  have hreached : keptOnce.Reached SharedStore.store.fated := ⟨_, _, _, rfl⟩
  have hfailed : (keptOnce.step SharedStore.store.fated lateRequest).1
      = some (.error (.missingChart "down")) := rfl
  obtain ⟨hunseen, -⟩ := failure_leaves_no_trace hreached hfailed
  exact ⟨hfailed, rfl, rfl, fun fates later htime => (hunseen fates later htime).1⟩

end Caches

end Almanac
