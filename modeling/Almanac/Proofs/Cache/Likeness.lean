import Mathlib
import Almanac.Proofs.Cache.Epochs
import Almanac.Proofs.Cache.FreshEntries
import Almanac.Proofs.Cache.Request

/-!
# Caches that cannot be told apart

Caches are alike if their tiers show the same and no call tells their stores apart.  They
answer every call alike, draw for the same calls, and stay alike: `Caches.Like.run`.
-/

namespace Almanac

/-! ## Stores -/

/-- A relation of states of a store that no call can tell apart: related states give the
same answers, and stay related for all times to come. -/
structure Store.Respects {σ : Type} (S : Store σ) (R : Nat → σ → σ → Prop) : Prop where
  refl : ∀ now s, R now s s
  trans : ∀ {now s s' s''}, R now s s' → R now s' s'' → R now s s''
  mono : ∀ {now later s s'}, now ≤ later → R now s s' → R later s s'
  get : ∀ {now s s'}, R now s s' → ∀ name,
    (S.get now name s).1 = (S.get now name s').1 ∧ R now (S.get now name s).2 (S.get now name s').2
  set : ∀ {now s s'}, R now s s' → ∀ name payload span,
    (S.set now name payload span s).1 = (S.set now name payload span s').1 ∧
      R now (S.set now name payload span s).2 (S.set now name payload span s').2
  delete : ∀ {now s s'}, R now s s' → ∀ name,
    (S.delete name s).1 = (S.delete name s').1 ∧ R now (S.delete name s).2 (S.delete name s').2
  close : ∀ {now s s'}, R now s s' → R now (S.close s) (S.close s')

theorem Store.respects_eq {σ : Type} (S : Store σ) : S.Respects fun _ => Eq where
  refl := fun _ _ => rfl
  trans := Eq.trans
  mono := fun _ h => h
  get := fun h _ => h ▸ ⟨rfl, rfl⟩
  set := fun h _ _ _ => h ▸ ⟨rfl, rfl⟩
  delete := fun h _ => h ▸ ⟨rfl, rfl⟩
  close := fun h => congrArg S.close h

namespace SharedStore

variable {s s' : SharedStore} {now : Nat}

/-- Two stores that are both open or both closed, and show the same from a time on. -/
structure Like (now : Nat) (s s' : SharedStore) : Prop where
  closed : s.closed = s'.closed
  shown : ∀ later, now ≤ later → ∀ name, s.shown later name = s'.shown later name

theorem like_refl (now : Nat) (s : SharedStore) : s.Like now s := ⟨rfl, fun _ _ _ => rfl⟩

theorem Like.symm (h : s.Like now s') : s'.Like now s :=
  ⟨h.closed.symm, fun later hle name => (h.shown later hle name).symm⟩

theorem Like.trans {s'' : SharedStore} (h : s.Like now s') (h' : s'.Like now s'') :
    s.Like now s'' :=
  ⟨h.closed.trans h'.closed, fun later hle name =>
    (h.shown later hle name).trans (h'.shown later hle name)⟩

theorem get_of_closed (hclosed : s.closed = true) (now : Nat) (name : String) :
    get now name s = (.error closedFault, s) := if_pos hclosed

theorem set_of_closed (hclosed : s.closed = true) (now : Nat) (name : String)
    (payload : ByteArray) (span : Option Nat) :
    set now name payload span s = (.error closedFault, s) := if_pos hclosed

theorem delete_of_closed (hclosed : s.closed = true) (name : String) :
    delete name s = (.error closedFault, s) := if_pos hclosed

theorem like_get (s : SharedStore) (now : Nat) (name : String) : s.Like now (get now name s).2 := by
  cases hclosed : s.closed with
  | true =>
      rw [get_of_closed hclosed]
      exact like_refl now s
  | false =>
      obtain ⟨-, hopen, hshown⟩ := get_of_open hclosed now name
      exact ⟨hclosed.trans hopen.symm, fun later hle n => (hshown later hle n).symm⟩

theorem Like.get (h : s.Like now s') (name : String) :
    (get now name s).1 = (get now name s').1 ∧ (get now name s).2.Like now (get now name s').2 := by
  have hback := (s.like_get now name).symm
  refine ⟨?_, (hback.trans h).trans (s'.like_get now name)⟩
  cases hclosed : s.closed with
  | true => rw [get_of_closed hclosed, get_of_closed (h.closed.symm.trans hclosed)]
  | false =>
      rw [(get_of_open hclosed now name).1, (get_of_open (h.closed.symm.trans hclosed) now name).1,
        h.shown now (Nat.le_refl now)]

theorem Like.set (h : s.Like now s') (name : String) (payload : ByteArray) (span : Option Nat) :
    (set now name payload span s).1 = (set now name payload span s').1 ∧
      (set now name payload span s).2.Like now (set now name payload span s').2 := by
  cases hclosed : s.closed with
  | true =>
      rw [set_of_closed hclosed, set_of_closed (h.closed.symm.trans hclosed)]
      exact ⟨rfl, h⟩
  | false =>
      rw [set_of_open hclosed, set_of_open (h.closed.symm.trans hclosed)]
      refine ⟨rfl, ?_, ?_⟩
      · exact (closed_counted s now).trans (h.closed.trans (closed_counted s' now).symm)
      -- A sweep may be due in one of the stores and not in the other.
      · intro later hle n
        rw [shown_put, shown_put, shown_counted hle, shown_counted hle, h.shown later hle]

theorem Like.delete (h : s.Like now s') (name : String) :
    (delete name s).1 = (delete name s').1 ∧ (delete name s).2.Like now (delete name s').2 := by
  cases hclosed : s.closed with
  | true =>
      rw [delete_of_closed hclosed, delete_of_closed (h.closed.symm.trans hclosed)]
      exact ⟨rfl, h⟩
  | false =>
      rw [delete_of_open hclosed, delete_of_open (h.closed.symm.trans hclosed)]
      refine ⟨rfl, h.closed, ?_⟩
      intro later hle n
      rw [shown_erase, shown_erase, h.shown later hle]

/-- **The memory store cannot tell likes apart.** -/
theorem respects : store.Respects Like where
  refl := like_refl
  trans := Like.trans
  mono := fun hle h => ⟨h.closed, fun later hlater => h.shown later (Nat.le_trans hle hlater)⟩
  get := Like.get
  set := Like.set
  delete := Like.delete
  close := fun _ => ⟨rfl, fun _ _ _ => rfl⟩

end SharedStore

/-! ## Layers -/

namespace Layer

variable {l l' : Layer} {now k : Nat}

/-- Two layers whose tiers show the same; they have counted the same hits, and the second
has counted some more computations. -/
structure Like (now k : Nat) (l l' : Layer) : Prop where
  tier : l.tier.Like now l'.tier
  rawSpan : l'.rawSpan = l.rawSpan
  localHits : l'.stats.localHits = l.stats.localHits
  sharedHits : l'.stats.sharedHits = l.stats.sharedHits
  computations : l'.stats.computations = l.stats.computations + k

theorem like_refl (hroom : l.tier.size ≤ l.tier.capacity) (now : Nat) : l.Like now 0 l :=
  ⟨LocalTier.like_refl hroom now, rfl, rfl, rfl, rfl⟩

theorem Like.mono {later : Nat} (h : l.Like now k l') (hle : now ≤ later) : l.Like later k l' :=
  { h with tier := h.tier.mono hle }

theorem Like.withTier (h : l.Like now k l') {t t' : LocalTier Chart} (ht : t.Like now t') :
    ({ l with tier := t } : Layer).Like now k { l' with tier := t' } :=
  ⟨ht, h.rawSpan, h.localHits, h.sharedHits, h.computations⟩

theorem Like.countLocalHit (h : l.Like now k l') :
    l.countLocalHit.Like now k l'.countLocalHit :=
  { h with localHits := congrArg (· + 1) h.localHits }

theorem Like.countSharedHit (h : l.Like now k l') :
    l.countSharedHit.Like now k l'.countSharedHit :=
  { h with sharedHits := congrArg (· + 1) h.sharedHits }

theorem Like.countSharedFailure (h : l.Like now k l') :
    l.countSharedFailure.Like now k l'.countSharedFailure := { h with }

theorem Like.countComputation (h : l.Like now k l') :
    l.countComputation.Like now k l'.countComputation := by
  refine { h with computations := ?_ }
  show l'.stats.computations + 1 = l.stats.computations + 1 + k
  rw [h.computations]
  omega

theorem Like.countOutcome {α : Type} (h : l.Like now k l') (outcome : Except StoreFault α) :
    (l.countOutcome outcome).Like now k (l'.countOutcome outcome) := by
  cases outcome with
  | ok a => exact h
  | error e => exact h.countSharedFailure

theorem Like.keep (h : l.Like now k l') (key : String) (chart : Chart) :
    (l.keep now key chart).Like now k (l'.keep now key chart) :=
  h.withTier (h.tier.insert key chart)

theorem Like.look (h : l.Like now k l') (key : String) :
    (l.look now key).1 = (l'.look now key).1 ∧
      (l.look now key).2.Like now k (l'.look now key).2 := by
  obtain ⟨hfound, htier⟩ := h.tier.get key
  unfold Layer.look
  rcases ht : l.tier.get now key with ⟨_ | chart, t⟩ <;>
    rcases ht' : l'.tier.get now key with ⟨found, t'⟩ <;>
    rw [ht, ht'] at hfound htier <;> cases hfound
  · exact ⟨rfl, h.withTier htier⟩
  · exact ⟨rfl, (h.withTier htier).countLocalHit⟩

theorem Like.take (h : l.Like now k l') (key : String)
    (answer : Except StoreFault (Option ByteArray)) :
    (l.take now key answer).1 = (l'.take now key answer).1 ∧
      (l.take now key answer).2.Like now k (l'.take now key answer).2 := by
  rcases answer with e | _ | payload
  · exact ⟨rfl, h.countSharedFailure⟩
  · exact ⟨rfl, h⟩
  · simp only [Layer.take]
    rcases decode payload with _ | chart
    · exact ⟨rfl, h.countSharedFailure⟩
    · exact ⟨rfl, h.countSharedHit.keep key chart⟩

theorem Like.join (h : l.Like now k l') (key : String) :
    (l.join key).2.Like now k (l'.join key).2 := by
  unfold Layer.join
  split <;> split <;> exact ⟨h.tier, h.rawSpan, h.localHits, h.sharedHits, h.computations⟩

theorem Like.leave (h : l.Like now k l') (key : String) (cell cell' : Nat) :
    (l.leave key cell).Like now k (l'.leave key cell') := by
  unfold Layer.leave
  split <;> split <;> exact ⟨h.tier, h.rawSpan, h.localHits, h.sharedHits, h.computations⟩

end Layer

/-! ## Caches -/

namespace Cache

variable {σ : Type} {S : Store σ} {R : Nat → σ → σ → Prop} {c c' : Cache σ} {now k : Nat}

/-- Two caches with layers and stores that show the same. -/
structure Like (R : Nat → σ → σ → Prop) (now k : Nat) (c c' : Cache σ) : Prop where
  layer : c.layer.Like now k c'.layer
  store : R now c.store c'.store

theorem Like.onLayer (h : c.Like R now k c') {l l' : Layer} (hl : l.Like now k l') :
    Cache.Like R now k { c with layer := l } { c' with layer := l' } := ⟨hl, h.store⟩

theorem Like.ask (hS : S.Respects R) (h : c.Like R now k c') (key : String) :
    (c.ask S now key).1 = (c'.ask S now key).1 ∧
      (c.ask S now key).2.Like R now k (c'.ask S now key).2 := by
  obtain ⟨hanswer, hstore⟩ := hS.get h.store key
  obtain ⟨hfound, hlayer⟩ := h.layer.take key (S.get now key c.store).1
  rw [ask_eq, ask_eq, ← hanswer]
  exact ⟨hfound, hlayer, hstore⟩

theorem Like.lookup (hS : S.Respects R) (h : c.Like R now k c') (key : String) :
    (c.lookup S now key).1 = (c'.lookup S now key).1 ∧
      (c.lookup S now key).2.Like R now k (c'.lookup S now key).2 := by
  obtain ⟨hfound, hlayer⟩ := h.layer.look key
  unfold Cache.lookup
  rcases hl : c.layer.look now key with ⟨_ | chart, l⟩ <;>
    rcases hl' : c'.layer.look now key with ⟨found, l'⟩ <;>
    rw [hl, hl'] at hfound hlayer <;> cases hfound
  · exact (h.onLayer hlayer).ask hS key
  · exact ⟨rfl, h.onLayer hlayer⟩

theorem Like.publish (hS : S.Respects R) (h : c.Like R now k c') (key : String) (chart : Chart) :
    (c.publish S now key chart).Like R now k (c'.publish S now key chart) := by
  obtain ⟨houtcome, hstore⟩ := hS.set h.store key (Layer.encode chart) c.layer.rawSpan
  rw [publish_eq, publish_eq, h.layer.rawSpan, ← houtcome]
  exact ⟨h.layer.countOutcome _, hstore⟩

/-- **Caches that show the same answer a request alike, and draw for it alike.** -/
theorem Like.getOrDraw (hS : S.Respects R) (h : c.Like R now k c') (key : String)
    (drawn : Except Failure Chart) :
    (c.getOrDraw S now key drawn).1 = (c'.getOrDraw S now key drawn).1 ∧
      (c.getOrDraw S now key drawn).2.Like R now k (c'.getOrDraw S now key drawn).2 := by
  obtain ⟨hfound, hfirst⟩ := h.lookup hS key
  unfold Cache.getOrDraw
  rcases hc : c.lookup S now key with ⟨_ | chart, c₁⟩ <;>
    rcases hc' : c'.lookup S now key with ⟨found, c₁'⟩ <;>
    rw [hc, hc'] at hfound hfirst <;> cases hfound
  · obtain ⟨hfound, hsecond⟩ := (hfirst.onLayer (hfirst.layer.join key)).lookup hS key
    rcases hc₂ : Cache.lookup S now key { c₁ with layer := (c₁.layer.join key).2 } with
      ⟨_ | chart, c₂⟩ <;>
      rcases hc₂' : Cache.lookup S now key { c₁' with layer := (c₁'.layer.join key).2 } with
        ⟨found, c₂'⟩ <;>
      rw [hc₂, hc₂'] at hfound hsecond <;> cases hfound <;> simp only [hc₂, hc₂']
    · have hcounted := hsecond.onLayer hsecond.layer.countComputation
      rcases drawn with e | chart
      · exact ⟨rfl, hcounted.onLayer (hcounted.layer.leave key _ _)⟩
      · have hsent := (hcounted.onLayer (hcounted.layer.keep key chart)).publish hS key chart
        exact ⟨rfl, hsent.onLayer (hsent.layer.leave key _ _)⟩
    · exact ⟨trivial, hsecond.onLayer (hsecond.layer.leave key _ _)⟩
  · exact ⟨rfl, hfirst⟩

theorem Like.invalidate (hS : S.Respects R) (h : c.Like R now k c') (key : String) :
    (c.invalidate S key).Like R now k (c'.invalidate S key) := by
  obtain ⟨houtcome, hstore⟩ := hS.delete h.store key
  rw [invalidate_eq, invalidate_eq, ← houtcome]
  exact ⟨(h.layer.withTier (h.layer.tier.remove key)).countOutcome _, hstore⟩

theorem Like.purge (h : c.Like R now k c') :
    (c.purge now).2.Like R now k (c'.purge now).2 :=
  h.onLayer (h.layer.withTier h.layer.tier.purge)

theorem Like.shutdown (hS : S.Respects R) (h : c.Like R now k c') :
    (c.shutdown S).Like R now k (c'.shutdown S) :=
  ⟨⟨h.layer.tier.clear, h.layer.rawSpan, h.layer.localHits, h.layer.sharedHits,
    h.layer.computations⟩, hS.close h.store⟩

end Cache

/-! ## Several caches -/

namespace Caches

variable {n : Nat} {σ : Type} {S : Store σ} {R : Nat → σ → σ → Prop} {cs cs' : Caches n σ}
  {now : Nat} {extra : Fin n → Nat}

/-- The time after a call that is made at a time or later. -/
def Call.clock (now : Nat) : Call n → Nat
  | .getOrDraw _ t _ _ => t
  | .purge _ t => t
  | _ => now

def Timely (now : Nat) : List (Call n) → Prop
  | [] => True
  | call :: calls => now ≤ call.clock now ∧ Timely (call.clock now) calls

structure Like (R : Nat → σ → σ → Prop) (now : Nat) (extra : Fin n → Nat) (cs cs' : Caches n σ) :
    Prop where
  layers : ∀ i, (cs.layers i).Like now (extra i) (cs'.layers i)
  store : R now cs.store cs'.store

theorem Like.mono {later : Nat} (hS : S.Respects R) (h : cs.Like R now extra cs')
    (hle : now ≤ later) : cs.Like R later extra cs' :=
  ⟨fun i => (h.layers i).mono hle, hS.mono hle h.store⟩

theorem Like.cache (h : cs.Like R now extra cs') (i : Fin n) :
    (cs.cache i).Like R now (extra i) (cs'.cache i) := ⟨h.layers i, h.store⟩

theorem Like.update (h : cs.Like R now extra cs') {i : Fin n} {c c' : Cache σ}
    (hc : c.Like R now (extra i) c') : (cs.update i c).Like R now extra (cs'.update i c') := by
  refine ⟨fun j => ?_, hc.store⟩
  show (if j = i then c.layer else cs.layers j).Like now (extra j)
    (if j = i then c'.layer else cs'.layers j)
  split
  · rename_i hj
    rw [hj]
    exact hc.layer
  · exact h.layers j

/-- A call does not tell likes apart, nor make them differ. -/
theorem Like.step (hS : S.Respects R) (h : cs.Like R now extra cs') (call : Call n)
    (hle : now ≤ call.clock now) :
    (cs.step S call).1 = (cs'.step S call).1 ∧
      (cs.step S call).2.Like R (call.clock now) extra (cs'.step S call).2 := by
  cases call with
  | getOrDraw i t key drawn =>
      have ht := h.mono hS hle
      obtain ⟨hanswer, hc⟩ := (ht.cache i).getOrDraw hS key drawn
      exact ⟨congrArg some hanswer, ht.update hc⟩
  | invalidate i key => exact ⟨rfl, h.update ((h.cache i).invalidate hS key)⟩
  | purge i t =>
      have ht := h.mono hS hle
      exact ⟨rfl, ht.update (ht.cache i).purge⟩
  | shutdown i => exact ⟨rfl, h.update ((h.cache i).shutdown hS)⟩

theorem Like.draws_iff (hS : S.Respects R) (h : cs.Like R now extra cs') (call : Call n)
    (hle : now ≤ call.clock now) : cs'.Draws S call ↔ cs.Draws S call := by
  cases call with
  | getOrDraw i t key drawn =>
      have ht : cs.Like R t extra cs' := h.mono hS hle
      have hafter := ((ht.cache i).getOrDraw hS key drawn).2.layer.computations
      have hbefore := (h.layers i).computations
      rw [Caches.draws_iff, Caches.draws_iff, hafter, hbefore]
      omega
  | _ => exact Iff.rfl

/-- **Likes stay alike in all calls to come**: they answer every call in the same way, and
draw for the same. -/
theorem Like.run (hS : S.Respects R) (h : cs.Like R now extra cs') {calls : List (Call n)}
    (htime : Timely now calls) :
    cs'.trace S calls = cs.trace S calls ∧
      ∀ before call more, calls = before ++ call :: more →
        ((cs'.after S before).Draws S call ↔ (cs.after S before).Draws S call) := by
  induction calls generalizing cs cs' now with
  | nil => exact ⟨rfl, fun before call more he => by simp at he⟩
  | cons call calls ih =>
      obtain ⟨hanswer, hnext⟩ := h.step hS call htime.1
      obtain ⟨htrace, hdraws⟩ := ih hnext htime.2
      refine ⟨by rw [trace, trace, hanswer, htrace], ?_⟩
      intro before d more he
      cases before with
      | nil =>
          obtain ⟨rfl, -⟩ := List.cons.inj he
          exact h.draws_iff hS call htime.1
      | cons b before =>
          obtain ⟨rfl, hcalls⟩ := List.cons.inj he
          exact hdraws before d more hcalls

/-- Caches that some calls have made of empty ones. -/
def Reached (S : Store σ) (cs : Caches n σ) : Prop :=
  ∃ settings store calls, cs = (ofSettings settings store).after S calls

theorem Reached.room (h : cs.Reached S) (i : Fin n) :
    (cs.layers i).tier.size ≤ (cs.layers i).tier.capacity := by
  obtain ⟨settings, store, calls, rfl⟩ := h
  have hempty : ∀ i, ((ofSettings settings store).layers i).tier.size
      ≤ ((ofSettings settings store).layers i).tier.capacity := fun i => Nat.zero_le _
  generalize ofSettings settings store = cs at hempty
  induction calls generalizing cs with
  | nil => exact hempty i
  | cons call calls ih =>
      -- A cache shows what it shows itself, so it still does after the call.
      have hself : cs.Like (fun _ => Eq) 0 (fun _ => 0) cs :=
        ⟨fun i => Layer.like_refl (hempty i) 0, rfl⟩
      exact ih _ fun i => ((hself.step S.respects_eq call (Nat.zero_le _)).2.layers i).tier.room

end Caches

end Almanac
