import Mathlib
import Almanac.Proofs.Cache.Epochs
import Almanac.Proofs.Cache.Record
import Almanac.Proofs.Cache.Request

/-!
# What the counters of a cache say

Every request is counted once: as a hit in one of the tiers, be it at the first look or at
the second, or as a computation.  Every store call that fails and every payload that is no
chart is counted as a failure of the store, whichever of its calls it was:
`Caches.counters_account`.
-/

namespace Almanac

/-- The number of requests that were counted in one way or another. -/
def Stats.served (s : Stats) : Nat := s.localHits + s.sharedHits + s.computations

namespace Exchange

/-- How often a cache has to count a call as a failure. -/
def weight (x : Exchange) : Nat := x.isFault.toNat + x.isUndecodable.toNat

def failures (record : List Exchange) : Nat :=
  record.countP isFault + record.countP isUndecodable

theorem failures_append (record more : List Exchange) :
    failures (record ++ more) = failures record + failures more := by
  simp only [failures, List.countP_append]
  omega

theorem failures_singleton (x : Exchange) : failures [x] = x.weight := by
  simp only [failures, weight, List.countP_singleton]
  cases x.isFault <;> cases x.isUndecodable <;> rfl

end Exchange

/-! ## One layer -/

namespace Layer

theorem stats_look (l : Layer) (now : Nat) (key : String) :
    (l.look now key).2.stats.served = l.stats.served + (l.look now key).1.isSome.toNat ∧
      (l.look now key).2.stats.sharedFailures = l.stats.sharedFailures := by
  unfold look
  rcases l.tier.get now key with ⟨_ | chart, tier⟩
  · exact ⟨rfl, rfl⟩
  · refine ⟨?_, rfl⟩
    simp only [countLocalHit, Stats.served, Option.isSome_some, Bool.toNat_true]
    omega

/-- An answer of the store is counted as a hit if it is a chart, as a failure if it is no
answer or no chart, and not at all if nothing was there. -/
theorem stats_take (l : Layer) (now : Nat) (key : String)
    (answer : Except StoreFault (Option ByteArray)) :
    (l.take now key answer).2.stats.served
        = l.stats.served + (l.take now key answer).1.isSome.toNat ∧
      (l.take now key answer).2.stats.sharedFailures
        = l.stats.sharedFailures + (Exchange.get key answer).weight := by
  rcases answer with e | _ | payload
  · exact ⟨rfl, rfl⟩
  · exact ⟨rfl, rfl⟩
  · simp only [take, Exchange.weight, Exchange.isFault, Exchange.isUndecodable]
    rcases decode payload with _ | chart
    · exact ⟨rfl, rfl⟩
    · refine ⟨?_, rfl⟩
      simp only [keep, countSharedHit, Stats.served, Option.isSome_some, Bool.toNat_true]
      omega

theorem stats_countOutcome (l : Layer) (outcome : Except StoreFault Unit) :
    (l.countOutcome outcome).stats.served = l.stats.served ∧
      (∀ key payload, (l.countOutcome outcome).stats.sharedFailures
        = l.stats.sharedFailures + (Exchange.set key payload outcome).weight) ∧
      ∀ key, (l.countOutcome outcome).stats.sharedFailures
        = l.stats.sharedFailures + (Exchange.delete key outcome).weight := by
  cases outcome with
  | ok u => exact ⟨rfl, fun _ _ => rfl, fun _ => rfl⟩
  | error e => exact ⟨rfl, fun _ _ => rfl, fun _ => rfl⟩

end Layer

/-! ## One call -/

namespace Cache

variable {σ : Type} {S : Store σ} {c c' c'' : Cache (Recorded σ)} {k l : Nat}

/-- On the way from one state of a cache to another some requests are counted, and all the
failures that come into the record. -/
structure Tallies (k : Nat) (c c' : Cache (Recorded σ)) : Prop where
  served : c'.layer.stats.served = c.layer.stats.served + k
  failures : c'.layer.stats.sharedFailures + Exchange.failures c.store.record
    = c.layer.stats.sharedFailures + Exchange.failures c'.store.record

theorem Tallies.trans (h : Tallies k c c') (h' : Tallies l c' c'') : Tallies (k + l) c c'' := by
  refine ⟨?_, ?_⟩
  · rw [h'.served, h.served, Nat.add_assoc]
  · have hfirst := h.failures
    have hsecond := h'.failures
    omega

/-- Whoever counts nothing may change the rest of the layer. -/
theorem tallies_of_stats {layer : Layer} (h : layer.stats = c.layer.stats) :
    Tallies 0 c { c with layer } :=
  ⟨congrArg Stats.served h, by rw [h]⟩

theorem tallies_join (c : Cache (Recorded σ)) (key : String) :
    Tallies 0 c { c with layer := (c.layer.join key).2 } := by
  apply tallies_of_stats
  unfold Layer.join
  split <;> rfl

theorem tallies_leave (c : Cache (Recorded σ)) (key : String) (cell : Nat) :
    Tallies 0 c { c with layer := c.layer.leave key cell } := by
  apply tallies_of_stats
  unfold Layer.leave
  split <;> rfl

theorem tallies_keep (c : Cache (Recorded σ)) (now : Nat) (key : String) (chart : Chart) :
    Tallies 0 c { c with layer := c.layer.keep now key chart } := tallies_of_stats rfl

theorem tallies_countComputation (c : Cache (Recorded σ)) :
    Tallies 1 c { c with layer := c.layer.countComputation } := ⟨rfl, rfl⟩

theorem tallies_lookup (c : Cache (Recorded σ)) (now : Nat) (key : String) :
    Tallies (c.lookup S.recorded now key).1.isSome.toNat c (c.lookup S.recorded now key).2 := by
  obtain ⟨hserved, hfailures⟩ := c.layer.stats_look now key
  unfold lookup
  rcases hlook : c.layer.look now key with ⟨_ | chart, layer⟩
  · simp only [hlook] at hserved hfailures
    -- The local tier has counted nothing, so everything is counted by the answer.
    obtain ⟨hserved', hfailures'⟩ := layer.stats_take now key (S.get now key c.store.store).1
    refine ⟨hserved'.trans (congrArg (· + _) hserved), ?_⟩
    simp only [ask, Recorded.get_recorded, Recorded.note, Exchange.failures_append,
      Exchange.failures_singleton, hfailures', hfailures]
    omega
  · rw [hlook] at hserved hfailures
    exact ⟨hserved, congrArg (· + _) hfailures⟩

theorem tallies_publish (c : Cache (Recorded σ)) (now : Nat) (key : String) (chart : Chart) :
    Tallies 0 c (c.publish S.recorded now key chart) := by
  obtain ⟨hserved, hfailures, -⟩ := c.layer.stats_countOutcome
    (S.set now key (Layer.encode chart) c.layer.rawSpan c.store.store).1
  refine ⟨hserved, ?_⟩
  simp only [publish, Recorded.set_recorded, Recorded.note, Exchange.failures_append,
    Exchange.failures_singleton, hfailures key (Layer.encode chart)]
  omega

theorem tallies_invalidate (c : Cache (Recorded σ)) (key : String) :
    Tallies 0 c (c.invalidate S.recorded key) := by
  obtain ⟨hserved, -, hfailures⟩ := Layer.stats_countOutcome
    { c.layer with tier := (c.layer.tier.remove key).2 } (S.delete key c.store.store).1
  refine ⟨hserved, ?_⟩
  simp only [invalidate, Recorded.delete_recorded, Recorded.note, Exchange.failures_append,
    Exchange.failures_singleton, hfailures key]
  omega

/-- **A request is counted once**, whichever way it goes. -/
theorem tallies_getOrDraw (c : Cache (Recorded σ)) (now : Nat) (key : String)
    (drawn : Except Failure Chart) :
    Tallies 1 c (c.getOrDraw S.recorded now key drawn).2 := by
  have hlookup : ∀ {c c' : Cache (Recorded σ)} {found : Option Chart},
      c.lookup S.recorded now key = (found, c') → Tallies found.isSome.toNat c c' := by
    intro c c' found hlook
    have htallies := tallies_lookup (S := S) c now key
    rwa [hlook] at htallies
  cases c.way_getOrDraw S.recorded now key drawn with
  | found hit result =>
      rw [result]
      exact hlookup hit
  | foundLater miss hit result =>
      rw [result]
      have hjoined := (hlookup miss).trans (tallies_join _ key)
      exact (hjoined.trans (hlookup hit)).trans (tallies_leave _ key _)
  -- In the other cases both looks have missed, so it is the computation that is counted.
  | failed _ miss again result =>
      rw [result]
      have hjoined := (hlookup miss).trans (tallies_join _ key)
      have hcounted := (hjoined.trans (hlookup again)).trans (tallies_countComputation _)
      exact hcounted.trans (tallies_leave _ key _)
  | @sent _ _ _ chart _ miss again publish result =>
      rw [result, ← publish]
      have hjoined := (hlookup miss).trans (tallies_join _ key)
      have hcounted := (hjoined.trans (hlookup again)).trans (tallies_countComputation _)
      have hkept := hcounted.trans (tallies_keep _ now key chart)
      exact (hkept.trans (tallies_publish _ now key chart)).trans (tallies_leave _ key _)

end Cache

/-! ## Runs -/

namespace Caches

variable {n : Nat} {σ : Type} {S : Store σ}

def Call.asks (i : Fin n) : Call n → Bool
  | .getOrDraw j _ _ _ => j == i
  | _ => false

theorem tallies_update (cs : Caches n σ) {j : Fin n} {k : Nat} {c : Cache (Recorded σ)}
    (h : (cs.recorded.cache j).Tallies k c) (i : Fin n) :
    ((cs.recorded.update j c).layers i).stats.served
        = (cs.layers i).stats.served + (if j = i then k else 0) ∧
      ((cs.recorded.update j c).layers i).stats.sharedFailures
        = (cs.layers i).stats.sharedFailures
          + Exchange.failures (if j = i then c.store.record else []) := by
  by_cases hi : j = i
  · subst hi
    rw [layers_update_self, if_pos rfl, if_pos rfl]
    exact ⟨h.served, h.failures⟩
  · rw [if_neg hi, if_neg hi,
      show (cs.recorded.update j c).layers i = cs.layers i from if_neg (Ne.symm hi)]
    exact ⟨rfl, rfl⟩

/-- A call is counted by its own cache only, and there with all its failures. -/
theorem tallies_step (S : Store σ) (cs : Caches n σ) (call : Call n) (i : Fin n) :
    ((cs.step S call).2.layers i).stats.served
        = (cs.layers i).stats.served + (call.asks i).toNat ∧
      ((cs.step S call).2.layers i).stats.sharedFailures
        = (cs.layers i).stats.sharedFailures
          + Exchange.failures (if call.target = i then cs.exchanges S call else []) := by
  have hforget : (cs.step S call).2.layers = (cs.recorded.step S.recorded call).2.layers := by
    rw [show cs.step S call = cs.recorded.forget.step S call from rfl, forget_step]
    rfl
  rw [hforget, exchanges]
  cases call with
  | getOrDraw j now key drawn =>
      obtain ⟨hserved, hfailures⟩ := cs.tallies_update
        (Cache.tallies_getOrDraw (cs.recorded.cache j) now key drawn) i
      refine ⟨hserved.trans ?_, hfailures⟩
      by_cases hi : j = i
      · simp [Call.asks, hi]
      · simp [Call.asks, hi]
  | invalidate j key =>
      have h := cs.tallies_update (Cache.tallies_invalidate (S := S) (cs.recorded.cache j) key) i
      rwa [ite_self] at h
  | purge j now =>
      have htallies : (cs.recorded.cache j).Tallies 0 ((cs.recorded.cache j).purge now).2 :=
        ⟨rfl, rfl⟩
      have h := cs.tallies_update htallies i
      rwa [ite_self] at h
  | shutdown j =>
      have htallies : (cs.recorded.cache j).Tallies 0 ((cs.recorded.cache j).shutdown S.recorded) :=
        ⟨rfl, rfl⟩
      have h := cs.tallies_update htallies i
      rwa [ite_self] at h

theorem tallies_after (S : Store σ) (cs : Caches n σ) (calls : List (Call n)) (i : Fin n) :
    ((cs.after S calls).layers i).stats.served
        = (cs.layers i).stats.served + calls.countP (Call.asks i) ∧
      ((cs.after S calls).layers i).stats.sharedFailures
        = (cs.layers i).stats.sharedFailures + Exchange.failures (cs.record S i calls) := by
  induction calls generalizing cs with
  | nil => exact ⟨rfl, rfl⟩
  | cons call calls ih =>
      obtain ⟨hserved, hfailures⟩ := cs.tallies_step S call i
      obtain ⟨hserved', hfailures'⟩ := ih (cs.step S call).2
      rw [hserved] at hserved'
      rw [hfailures] at hfailures'
      refine ⟨hserved'.trans ?_, hfailures'.trans ?_⟩
      · rw [List.countP_cons]
        cases call.asks i
        · simp
        · simp only [Bool.toNat_true, if_true]
          omega
      · rw [record, Exchange.failures_append, Nat.add_assoc]

/-- **The counters account for every request and every failure.**  After any calls on any
caches, a cache has counted each of its requests once, as a hit or as a computation; and of
the store calls that it has made, it has counted those that failed and those that were
answered with bytes that are no chart. -/
theorem counters_account (S : Store σ) (settings : Fin n → CacheSettings) (store : σ)
    (calls : List (Call n)) (i : Fin n) :
    let stats := (((ofSettings settings store).after S calls).layers i).stats
    let record := (ofSettings settings store).record S i calls
    stats.localHits + stats.sharedHits + stats.computations = calls.countP (Call.asks i) ∧
      stats.sharedFailures
        = record.countP Exchange.isFault + record.countP Exchange.isUndecodable := by
  obtain ⟨hserved, hfailures⟩ := tallies_after S (ofSettings settings store) calls i
  exact ⟨hserved.trans (Nat.zero_add _), hfailures.trans (Nat.zero_add _)⟩

end Caches

end Almanac
