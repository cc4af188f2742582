import Mathlib
import Almanac.Proofs.Cache.MemoryStore
import Almanac.Proofs.Cache.Request
import Almanac.Proofs.Cache.Transparency

/-!
# A chart is drawn once until it is dropped

Caches with layers of their own share one open memory store in which nothing grows old.
Once a chart has been drawn for a key it stays in the store, whatever the local tiers
push out, until one of the caches drops the key; and a cache that drops a key draws its
chart again: `Caches.draws_once_until_dropped`.
-/

namespace Almanac

namespace SharedStore

variable {s s' s'' : SharedStore} {alive : Stored → Prop} {now : Nat} {name other : String}

/-! ## What a store keeps of a name -/

/-- The second store has of a name what the first has, unless that is not alive. -/
structure Spares (alive : Stored → Prop) (name : String) (s s' : SharedStore) : Prop where
  closed : s'.closed = s.closed
  old : ∀ e, s'.entries.get? name = some e → s.entries.get? name = some e
  kept : ∀ e, s.entries.get? name = some e → alive e → s'.entries.get? name = some e

theorem Spares.refl (s : SharedStore) : s.Spares alive name s :=
  ⟨rfl, fun _ h => h, fun _ h _ => h⟩

theorem Spares.trans (h : s.Spares alive name s') (h' : s'.Spares alive name s'') :
    s.Spares alive name s'' :=
  ⟨h'.closed.trans h.closed, fun e he => h.old e (h'.old e he),
    fun e he ha => h'.kept e (h.kept e he ha) ha⟩

theorem Spares.mono {alive' : Stored → Prop} (h : s.Spares alive name s')
    (himp : ∀ e, alive' e → alive e) : s.Spares alive' name s' :=
  ⟨h.closed, h.old, fun e he ha => h.kept e he (himp e ha)⟩

theorem Spares.of_absent (h : s.Spares alive name s') (hname : s.entries.get? name = none) :
    s'.entries.get? name = none := by
  rw [Option.eq_none_iff_forall_ne_some]
  intro e he
  rw [h.old e he] at hname
  contradiction

theorem spares_filter {keep : String → Stored → Bool} (h : ∀ e, alive e → keep name e = true) :
    s.Spares alive name { s with entries := s.entries.filter keep } := by
  refine ⟨rfl, ?_, ?_⟩
  · intro e he
    rw [Table.get?_filter, Option.filter_eq_some_iff] at he
    exact he.1
  · intro e he ha
    rw [Table.get?_filter, Option.filter_eq_some_iff]
    exact ⟨he, h e ha⟩

theorem spares_erase (hne : name ≠ other) :
    s.Spares alive name { s with entries := s.entries.erase other } :=
  spares_filter fun _ _ => bne_iff_ne.mpr hne

theorem spares_counted (s : SharedStore) (now : Nat) (name : String) :
    s.Spares (Stored.isLive now · = true) name (s.counted now) := by
  unfold counted
  split
  · have hswept : s.Spares (Stored.isLive now · = true) name
        { s with entries := s.entries.filter fun _ e => e.isLive now } :=
      spares_filter fun _ he => he
    exact ⟨rfl, hswept.old, hswept.kept⟩
  · exact ⟨rfl, fun _ h => h, fun _ h _ => h⟩

theorem spares_get (s : SharedStore) (now : Nat) (other name : String) :
    s.Spares (Stored.isLive now · = true) name (s.get now other).2 := by
  unfold get
  split
  · exact .refl s
  · split
    · exact .refl s
    · rename_i d hd
      split
      · exact .refl s
      · rename_i hdead
        by_cases hne : name = other
        · subst hne
          refine ⟨rfl, ?_, ?_⟩
          · intro e he
            simp only [Table.get?_erase, if_true] at he
            contradiction
          · intro e he ha
            rw [← Option.some.inj (hd.symm.trans he)] at ha
            exact absurd ha hdead
        · exact spares_erase hne

theorem spares_set (s : SharedStore) (hne : name ≠ other) (now : Nat) (payload : ByteArray)
    (span : Option Nat) :
    s.Spares (Stored.isLive now · = true) name (s.set now other payload span).2 := by
  unfold set
  split
  · exact .refl s
  · refine (spares_counted s now name).trans ⟨rfl, ?_, ?_⟩
    · intro e he
      rwa [Table.get?_put, if_neg hne] at he
    · intro e he _
      rwa [Table.get?_put, if_neg hne]

theorem spares_delete (s : SharedStore) (hne : name ≠ other) :
    s.Spares alive name (s.delete other).2 := by
  unfold delete
  split
  · exact .refl s
  · exact spares_erase hne

end SharedStore

/-! ## Drawings and spans of a layer -/

namespace Layer

/-- Two layers that have drawn as often and keep charts in the store as long. -/
def SameCount (l l' : Layer) : Prop :=
  l'.stats.computations = l.stats.computations ∧ l'.rawSpan = l.rawSpan

theorem SameCount.trans {l l' l'' : Layer} (h : l.SameCount l') (h' : l'.SameCount l'') :
    l.SameCount l'' := ⟨h'.1.trans h.1, h'.2.trans h.2⟩

theorem sameCount_look (l : Layer) (now : Nat) (key : String) :
    l.SameCount (l.look now key).2 := by
  unfold look
  rcases l.tier.get now key with ⟨_ | chart, tier⟩
  · exact ⟨rfl, rfl⟩
  · exact ⟨rfl, rfl⟩

theorem sameCount_take (l : Layer) (now : Nat) (key : String)
    (answer : Except StoreFault (Option ByteArray)) : l.SameCount (l.take now key answer).2 := by
  rcases answer with e | _ | payload
  · exact ⟨rfl, rfl⟩
  · exact ⟨rfl, rfl⟩
  · rw [take]
    split <;> exact ⟨rfl, rfl⟩

theorem sameCount_join (l : Layer) (key : String) : l.SameCount (l.join key).2 := by
  unfold join
  split <;> exact ⟨rfl, rfl⟩

theorem sameCount_leave (l : Layer) (key : String) (cell : Nat) :
    l.SameCount (l.leave key cell) := by
  unfold leave
  split <;> exact ⟨rfl, rfl⟩

theorem sameCount_countOutcome {α : Type} (l : Layer) (outcome : Except StoreFault α) :
    l.SameCount (l.countOutcome outcome) := by
  cases outcome <;> exact ⟨rfl, rfl⟩

end Layer

/-! ## Requests -/

namespace Cache

section

variable {σ : Type} (S : Store σ) (c : Cache σ) (now : Nat) (key : String)

theorem sameCount_lookup : c.layer.SameCount (c.lookup S now key).2.layer := by
  have hlook := c.layer.sameCount_look now key
  unfold lookup
  split
  · rename_i he
    rw [he] at hlook
    exact hlook
  · rename_i layer he
    rw [he] at hlook
    exact hlook.trans (layer.sameCount_take now key _)

theorem sameCount_invalidate : c.layer.SameCount (c.invalidate S key).layer := by
  obtain ⟨hcount, hspan⟩ := Layer.sameCount_countOutcome
    { c.layer with tier := (c.layer.tier.remove key).2 } (S.delete key c.store).1
  exact ⟨hcount, hspan⟩

theorem sameCount_publish (chart : Chart) :
    c.layer.SameCount (c.publish S now key chart).layer :=
  c.layer.sameCount_countOutcome _

end

variable {c c' : Cache SharedStore} {now : Nat} {key : String} {drawn : Except Failure Chart}

theorem spares_lookup (c : Cache SharedStore) (now : Nat) (key name : String) :
    c.store.Spares (Stored.isLive now · = true) name
      (c.lookup SharedStore.store now key).2.store := by
  unfold lookup
  split
  · exact .refl _
  · exact SharedStore.spares_get c.store now key name

/-- Everything that a request can do to the count of drawings and to the store, and what
it is answered with. -/
inductive Request (now : Nat) (key : String) (drawn : Except Failure Chart)
    (c c' : Cache SharedStore) : Prop where
  /-- A chart is found, and the drawing is not looked at. -/
  | hit (count : c'.layer.stats.computations = c.layer.stats.computations)
      (spared : ∀ name, c.store.Spares (Stored.isLive now · = true) name c'.store)
      (same : ∀ other, c.getOrDraw SharedStore.store now key other
        = c.getOrDraw SharedStore.store now key drawn)
  /-- Nothing is found, and the drawing fails. -/
  | failed {e : Failure} (drew : drawn = .error e)
      (missed : (c.lookup SharedStore.store now key).1 = none)
      (count : c'.layer.stats.computations = c.layer.stats.computations + 1)
      (spared : ∀ name, c.store.Spares (Stored.isLive now · = true) name c'.store)
      (answer : (c.getOrDraw SharedStore.store now key drawn).1 = drawn)
  /-- Nothing is found, and a chart is drawn and sent to the store. -/
  | sent {chart : Chart} {s : SharedStore} (drew : drawn = .ok chart)
      (missed : (c.lookup SharedStore.store now key).1 = none)
      (count : c'.layer.stats.computations = c.layer.stats.computations + 1)
      (spared : ∀ name, c.store.Spares (Stored.isLive now · = true) name s)
      (set : c'.store = (s.set now key (Layer.encode chart) c.layer.rawSpan).2)
      (answer : (c.getOrDraw SharedStore.store now key drawn).1 = drawn)

/-- Looking up again, once the key has a cell, does as little as looking up. -/
theorem again_lookup {c₁ c₂ : Cache SharedStore} {found : Option Chart}
    (miss : c.lookup SharedStore.store now key = (none, c₁))
    (again : lookup SharedStore.store now key { c₁ with layer := (c₁.layer.join key).2 }
      = (found, c₂)) :
    c.layer.SameCount c₂.layer ∧
      ∀ name, c.store.Spares (Stored.isLive now · = true) name c₂.store := by
  have hcount := c.sameCount_lookup SharedStore.store now key
  have hspare := c.spares_lookup now key
  have hcount₂ := sameCount_lookup SharedStore.store
    { c₁ with layer := (c₁.layer.join key).2 } now key
  have hspare₂ := spares_lookup { c₁ with layer := (c₁.layer.join key).2 } now key
  rw [miss] at hcount hspare
  rw [again] at hcount₂ hspare₂
  exact ⟨(hcount.trans (c₁.layer.sameCount_join key)).trans hcount₂,
    fun name => (hspare name).trans (hspare₂ name)⟩

theorem request_getOrDraw (c : Cache SharedStore) (now : Nat) (key : String)
    (drawn : Except Failure Chart) :
    Request now key drawn c (c.getOrDraw SharedStore.store now key drawn).2 ∧
      (c.getOrDraw SharedStore.store now key drawn).2.layer.rawSpan = c.layer.rawSpan := by
  cases way_getOrDraw SharedStore.store c now key drawn with
  | found hit result =>
      have hcount := c.sameCount_lookup SharedStore.store now key
      have hspare := c.spares_lookup now key
      rw [hit] at hcount hspare
      have hsame := fun other => (getOrDraw_of_found hit other).trans result.symm
      rw [result]
      exact ⟨.hit hcount.1 hspare hsame, hcount.2⟩
  | foundLater miss hit result =>
      obtain ⟨hcount, hspare⟩ := again_lookup miss hit
      obtain ⟨hdrawings, hspan⟩ := hcount.trans (Layer.sameCount_leave _ key _)
      have hsame := fun other => (getOrDraw_of_foundLater miss hit other).trans result.symm
      rw [result]
      exact ⟨.hit hdrawings hspare hsame, hspan⟩
  | @failed c₁ c₂ e drew miss again result =>
      obtain ⟨⟨hdrawings, hspan⟩, hspare⟩ := again_lookup miss again
      obtain ⟨hleave, hspan'⟩ :=
        c₂.layer.countComputation.sameCount_leave key (c₁.layer.join key).1
      have hmissed : (c.lookup SharedStore.store now key).1 = none := by rw [miss]
      have hanswer : (c.getOrDraw SharedStore.store now key drawn).1 = drawn := by rw [result, drew]
      rw [result]
      exact ⟨.failed drew hmissed (hleave.trans (congrArg (· + 1) hdrawings)) hspare hanswer,
        hspan'.trans hspan⟩
  | @sent c₁ c₂ c₃ chart drew miss again publish result =>
      obtain ⟨⟨hdrawings, hspan⟩, hspare⟩ := again_lookup miss again
      have hsent := (Cache.sameCount_publish SharedStore.store
        { c₂ with layer := c₂.layer.countComputation.keep now key chart } now key chart).trans
        (Layer.sameCount_leave _ key (c₁.layer.join key).1)
      have hmissed : (c.lookup SharedStore.store now key).1 = none := by rw [miss]
      have hanswer : (c.getOrDraw SharedStore.store now key drawn).1 = drawn := by rw [result, drew]
      rw [result]
      subst publish
      refine ⟨.sent drew hmissed (hsent.1.trans (congrArg (· + 1) hdrawings)) hspare ?_ hanswer,
        hsent.2.trans hspan⟩
      rw [← hspan]
      rfl

theorem lookup_ne_none {e : Stored} {chart : Chart} (hopen : c.store.closed = false)
    (he : c.store.entries.get? key = some e) (hlive : e.isLive now = true)
    (hdecode : Layer.decode e.payload = some chart) :
    (c.lookup SharedStore.store now key).1 ≠ none := by
  have hget : c.store.get now key = (.ok (some e.payload), c.store) := by
    simp [SharedStore.get, hopen, he, hlive]
  unfold lookup
  split
  · simp
  · simp [ask, SharedStore.store, hget, Layer.take, hdecode]

theorem lookup_of_absent (htier : c.layer.tier.entries.get? key = none)
    (hopen : c.store.closed = false) (hstore : c.store.entries.get? key = none) :
    c.lookup SharedStore.store now key = (none, c) := by
  have hlook : c.layer.look now key = (none, c.layer) := by
    simp [Layer.look, LocalTier.get, htier]
  have hget : c.store.get now key = (.ok none, c.store) := by
    simp [SharedStore.get, hopen, hstore]
  unfold lookup
  rw [hlook]
  simp [ask, SharedStore.store, hget, Layer.take]

theorem draws_of_absent (htier : c.layer.tier.entries.get? key = none)
    (hopen : c.store.closed = false) (hstore : c.store.entries.get? key = none) :
    (c.getOrDraw SharedStore.store now key drawn).2.layer.stats.computations
      = c.layer.stats.computations + 1 := by
  have hagain : lookup SharedStore.store now key { c with layer := (c.layer.join key).2 }
      = (none, { c with layer := (c.layer.join key).2 }) := by
    refine lookup_of_absent ?_ hopen hstore
    rw [Layer.tier_join]
    exact htier
  have hjoin := (c.layer.sameCount_join key).1
  unfold getOrDraw
  rw [lookup_of_absent htier hopen hstore]
  simp only [hagain]
  rcases drawn with e | chart
  · exact (Layer.sameCount_leave _ _ _).1.trans (congrArg (· + 1) hjoin)
  · exact ((Layer.sameCount_leave _ _ _).1.trans (Layer.sameCount_countOutcome _ _).1).trans
      (congrArg (· + 1) hjoin)

end Cache

/-! ## Several caches -/

namespace Caches

variable {n : Nat} {σ : Type}

def Call.time? : Call n → Option Nat
  | .getOrDraw _ now _ _ => some now
  | _ => none

/-- A request draws a chart if its cache counts a drawing more. -/
def Draws (S : Store σ) (cs : Caches n σ) : Call n → Prop
  | .getOrDraw i now key drawn =>
    ((cs.step S (.getOrDraw i now key drawn)).2.layers i).stats.computations
      = (cs.layers i).stats.computations + 1
  | _ => False

def after (S : Store σ) (cs : Caches n σ) (calls : List (Call n)) : Caches n σ :=
  calls.foldl (fun cs call => (cs.step S call).2) cs

/-- What is sent to the store at the time of one call is alive at those of all later
calls. -/
def Lasting (cs : Caches n σ) (calls : List (Call n)) : Prop :=
  calls.Pairwise fun call later => ∀ s t, call.time? = some s → later.time? = some t →
    ∀ i life, (cs.layers i).rawSpan = some life → t < s + life

theorem after_append (S : Store σ) (cs : Caches n σ) (calls more : List (Call n)) :
    cs.after S (calls ++ more) = (cs.after S calls).after S more := List.foldl_append

theorem store_update (cs : Caches n σ) (i : Fin n) (c : Cache σ) :
    (cs.update i c).store = c.store := rfl

theorem layers_update_self (cs : Caches n σ) (i : Fin n) (c : Cache σ) :
    (cs.update i c).layers i = c.layer := if_pos rfl

theorem step_getOrDraw (S : Store σ) (cs : Caches n σ) (i : Fin n) (now : Nat) (key : String)
    (drawn : Except Failure Chart) :
    cs.step S (.getOrDraw i now key drawn)
      = (some ((cs.cache i).getOrDraw S now key drawn).1,
        cs.update i ((cs.cache i).getOrDraw S now key drawn).2) := rfl

theorem draws_iff {S : Store σ} {cs : Caches n σ} {i : Fin n} {now : Nat} {key : String}
    {drawn : Except Failure Chart} :
    cs.Draws S (.getOrDraw i now key drawn) ↔
      ((cs.cache i).getOrDraw S now key drawn).2.layer.stats.computations
        = (cs.layers i).stats.computations + 1 := by
  rw [Draws, step_getOrDraw, layers_update_self]

theorem rawSpan_update {cs : Caches n σ} {i : Fin n} {c : Cache σ}
    (h : c.layer.rawSpan = (cs.layers i).rawSpan) (j : Fin n) :
    ((cs.update i c).layers j).rawSpan = (cs.layers j).rawSpan := by
  show (if j = i then c.layer else cs.layers j).rawSpan = _
  split
  · rename_i hj
    rw [hj, h]
  · rfl

variable {cs : Caches n SharedStore} {call : Call n} {key : String}

/-- A request that draws is answered with its drawing; whoever does not draw would be
answered alike, and leave the caches alike, with any other drawing. -/
theorem draws_or_ignores (cs : Caches n SharedStore) (i : Fin n) (now : Nat) (key : String)
    (drawn : Except Failure Chart) :
    cs.Draws SharedStore.store (.getOrDraw i now key drawn) ∧
        (cs.step SharedStore.store (.getOrDraw i now key drawn)).1 = some drawn ∨
      ¬cs.Draws SharedStore.store (.getOrDraw i now key drawn) ∧
        ∀ other, cs.step SharedStore.store (.getOrDraw i now key other)
          = cs.step SharedStore.store (.getOrDraw i now key drawn) := by
  rw [draws_iff]
  cases ((cs.cache i).request_getOrDraw now key drawn).1 with
  | hit count _ same =>
      right
      constructor
      · rw [count]
        exact Nat.ne_of_lt (Nat.lt_succ_self _)
      · intro other
        rw [step_getOrDraw, step_getOrDraw, same]
  | failed _ _ count _ answer => exact .inl ⟨count, congrArg some answer⟩
  | sent _ _ count _ _ answer => exact .inl ⟨count, congrArg some answer⟩

theorem rawSpan_step (cs : Caches n SharedStore) (call : Call n) (j : Fin n) :
    ((cs.step SharedStore.store call).2.layers j).rawSpan = (cs.layers j).rawSpan := by
  cases call with
  | getOrDraw i now k drawn =>
      rw [step_getOrDraw]
      exact rawSpan_update ((cs.cache i).request_getOrDraw now k drawn).2 j
  | invalidate i k =>
      exact rawSpan_update ((cs.cache i).sameCount_invalidate SharedStore.store k).2 j
  | purge i now => exact rawSpan_update rfl j
  | shutdown i => exact rawSpan_update rfl j

theorem rawSpan_after (cs : Caches n SharedStore) (calls : List (Call n)) (j : Fin n) :
    ((cs.after SharedStore.store calls).layers j).rawSpan = (cs.layers j).rawSpan := by
  induction calls generalizing cs with
  | nil => rfl
  | cons call calls ih => exact (ih _).trans (cs.rawSpan_step call j)

theorem isOpen_step (h : cs.store.closed = false) (hcall : ∀ i, call ≠ .shutdown i) :
    (cs.step SharedStore.store call).2.store.closed = false := by
  cases call with
  | getOrDraw i now k drawn =>
      rw [step_getOrDraw, store_update]
      cases ((cs.cache i).request_getOrDraw now k drawn).1 with
      | hit _ spared _ => exact (spared k).closed.trans h
      | failed _ _ _ spared _ => exact (spared k).closed.trans h
      | sent _ _ _ spared set _ =>
          have hopen := (spared k).closed.trans h
          rw [set, SharedStore.set_of_open hopen]
          exact (SharedStore.closed_counted _ now).trans hopen
  | invalidate i k =>
      show (cs.store.delete k).2.closed = false
      rw [SharedStore.delete_of_open h]
      exact h
  | purge i now => exact h
  | shutdown i => exact absurd rfl (hcall i)

theorem isOpen_after (h : cs.store.closed = false) {calls : List (Call n)}
    (hcalls : ∀ i, .shutdown i ∉ calls) :
    (cs.after SharedStore.store calls).store.closed = false := by
  induction calls generalizing cs with
  | nil => exact h
  | cons call calls ih =>
      refine ih (isOpen_step h ?_) fun i hi => hcalls i (List.mem_cons_of_mem _ hi)
      rintro i rfl
      exact hcalls i List.mem_cons_self

/-- The store keeps what it has of a key until a cache drops the key or draws for it. -/
theorem spares_step (cs : Caches n SharedStore) (hshut : ∀ i, call ≠ .shutdown i)
    (hdrop : ∀ i, call ≠ .invalidate i key)
    (hdraw : ∀ i now drawn, call = .getOrDraw i now key drawn →
      ¬cs.Draws SharedStore.store call) :
    cs.store.Spares (fun e => ∀ t, call.time? = some t → e.isLive t = true) key
      (cs.step SharedStore.store call).2.store := by
  cases call with
  | getOrDraw i now k drawn =>
      have hlive : ∀ e : Stored, (∀ t, (Call.getOrDraw i now k drawn).time? = some t →
          e.isLive t = true) → e.isLive now = true := fun e h => h now rfl
      refine SharedStore.Spares.mono ?_ hlive
      rw [step_getOrDraw, store_update]
      cases ((cs.cache i).request_getOrDraw now k drawn).1 with
      | hit _ spared _ => exact spared key
      | failed _ _ _ spared _ => exact spared key
      | sent _ _ count spared set _ =>
          have hne : key ≠ k := by
            rintro rfl
            exact hdraw i now drawn rfl (draws_iff.mpr count)
          refine (spared key).trans ?_
          rw [set]
          exact SharedStore.spares_set _ hne now _ _
  | invalidate i k =>
      have hne : key ≠ k := fun h => hdrop i (h ▸ rfl)
      exact cs.store.spares_delete hne
  | purge i now => exact .refl _
  | shutdown i => exact absurd rfl (hshut i)

/-! ## A chart that is in the store -/

/-- The store has a chart for a key, which is alive in all calls to come. -/
structure Settled (cs : Caches n SharedStore) (key : String) (calls : List (Call n)) : Prop where
  isOpen : cs.store.closed = false
  kept : ∃ e chart, cs.store.entries.get? key = some e ∧ Layer.decode e.payload = some chart ∧
    ∀ call ∈ calls, ∀ t, call.time? = some t → e.isLive t = true

theorem Settled.not_draws {calls : List (Call n)} {i : Fin n} {now : Nat}
    {drawn : Except Failure Chart} (h : cs.Settled key (.getOrDraw i now key drawn :: calls)) :
    ¬cs.Draws SharedStore.store (.getOrDraw i now key drawn) := by
  intro hdraws
  obtain ⟨e, chart, he, hdecode, hlive⟩ := h.kept
  have hnow := hlive _ List.mem_cons_self now rfl
  have hfound := (cs.cache i).lookup_ne_none h.isOpen he hnow hdecode
  have hcount := draws_iff.mp hdraws
  cases ((cs.cache i).request_getOrDraw now key drawn).1 with
  | hit count _ _ =>
      have : (cs.layers i).stats.computations = (cs.layers i).stats.computations + 1 :=
        count.symm.trans hcount
      omega
  | failed _ missed _ _ _ => exact hfound missed
  | sent _ missed _ _ _ _ => exact hfound missed

theorem Settled.step {calls : List (Call n)} (h : cs.Settled key (call :: calls))
    (hshut : ∀ i, call ≠ .shutdown i) (hdrop : ∀ i, call ≠ .invalidate i key) :
    (cs.step SharedStore.store call).2.Settled key calls := by
  have hspared := cs.spares_step hshut hdrop (by
    rintro i now drawn rfl
    exact h.not_draws)
  obtain ⟨e, chart, he, hdecode, hlive⟩ := h.kept
  refine ⟨isOpen_step h.isOpen hshut, e, chart, ?_, hdecode, ?_⟩
  · exact hspared.kept e he (hlive call List.mem_cons_self)
  · exact fun later hmem => hlive later (List.mem_cons_of_mem _ hmem)

theorem Settled.after {mid calls : List (Call n)} (h : cs.Settled key (mid ++ calls))
    (hshut : ∀ i, .shutdown i ∉ mid) (hdrop : ∀ i, .invalidate i key ∉ mid) :
    (cs.after SharedStore.store mid).Settled key calls := by
  induction mid generalizing cs with
  | nil => exact h
  | cons call mid ih =>
      have hnext := h.step (fun i hi => hshut i (hi ▸ List.mem_cons_self))
        (fun i hi => hdrop i (hi ▸ List.mem_cons_self))
      exact ih hnext (fun i hi => hshut i (List.mem_cons_of_mem _ hi))
        (fun i hi => hdrop i (List.mem_cons_of_mem _ hi))

theorem settled_of_draws {calls : List (Call n)} {i : Fin n} {now : Nat} {chart : Chart}
    (hopen : cs.store.closed = false)
    (hdraws : cs.Draws SharedStore.store (.getOrDraw i now key (.ok chart)))
    (hlast : cs.Lasting (.getOrDraw i now key (.ok chart) :: calls)) :
    (cs.step SharedStore.store (.getOrDraw i now key (.ok chart))).2.Settled key calls := by
  have hcount := draws_iff.mp hdraws
  rw [step_getOrDraw]
  cases ((cs.cache i).request_getOrDraw now key (.ok chart)).1 with
  | hit count _ _ =>
      have : (cs.layers i).stats.computations = (cs.layers i).stats.computations + 1 :=
        count.symm.trans hcount
      omega
  | failed drew _ _ _ _ => cases drew
  | @sent d s drew _ _ spared set _ =>
      rw [← Except.ok.inj drew] at set
      have hstill : s.closed = false := (spared key).closed.trans hopen
      rw [SharedStore.set_of_open hstill] at set
      -- Only that the payload is decoded again matters from here on.
      have hdecode := Layer.decode_encode chart
      generalize Layer.encode chart = payload at set hdecode
      refine ⟨?_, ⟨payload, (cs.layers i).rawSpan.map (now + ·)⟩, chart, ?_, hdecode, ?_⟩
      · rw [store_update, set]
        exact (SharedStore.closed_counted s now).trans hstill
      · rw [store_update, set, Table.get?_put, if_pos rfl]
        rfl
      · intro later hmem t ht
        have hlife := (List.pairwise_cons.mp hlast).1 later hmem now t rfl ht i
        unfold Stored.isLive
        cases hspan : (cs.layers i).rawSpan with
        | none => rfl
        | some life => exact decide_eq_true (hlife life hspan)

/-! ## A chart that is nowhere to be found -/

/-- Neither the store nor the local tier of one of the caches has a chart for a key. -/
structure Barren (cs : Caches n SharedStore) (i : Fin n) (key : String) : Prop where
  isOpen : cs.store.closed = false
  tier : (cs.layers i).tier.All fun name _ => name ≠ key
  store : cs.store.entries.get? key = none

variable {i : Fin n}

theorem Barren.draws (h : cs.Barren i key) (now : Nat) (drawn : Except Failure Chart) :
    cs.Draws SharedStore.store (.getOrDraw i now key drawn) := by
  have htier : (cs.layers i).tier.entries.get? key = none := by
    rw [Option.eq_none_iff_forall_ne_some]
    exact fun e he => h.tier key e he rfl
  exact draws_iff.mpr (Cache.draws_of_absent htier h.isOpen h.store)

theorem barren_invalidate (h : cs.store.closed = false) (i : Fin n) (key : String) :
    (cs.step SharedStore.store (.invalidate i key)).2.Barren i key := by
  refine ⟨isOpen_step h (by simp), ?_, ?_⟩
  · show ((cs.update i _).layers i).tier.All _
    rw [layers_update_self, Cache.invalidate, Layer.tier_countOutcome]
    intro name e he
    simp only [LocalTier.remove, Table.get?_erase] at he
    split at he
    · contradiction
    · assumption
  · show (cs.store.delete key).2.entries.get? key = none
    rw [SharedStore.delete_of_open h]
    simp only [Table.get?_erase, if_true]

/-- A cache that has nothing for a key gets something only by a request for the key. -/
theorem Barren.tier_step (h : cs.Barren i key)
    (hdraw : ∀ j now drawn, call ≠ .getOrDraw j now key drawn) :
    ((cs.step SharedStore.store call).2.layers i).tier.All fun name _ => name ≠ key := by
  have hsound : (cs.cache i).Sound SharedStore.Holds fun name _ => name ≠ key := by
    refine ⟨h.tier, ?_⟩
    rintro name payload chart ⟨e, he, -⟩ - rfl
    cases h.store.symm.trans he
  have hothers : ∀ {j : Fin n} {c : Cache SharedStore},
      (j = i → c.layer.tier.All fun name _ => name ≠ key) →
        ((cs.update j c).layers i).tier.All fun name _ => name ≠ key := by
    intro j c hc
    by_cases hj : i = j
    · subst hj
      rw [layers_update_self]
      exact hc rfl
    · rw [show (cs.update j c).layers i = cs.layers i from if_neg hj]
      exact h.tier
  cases call with
  | getOrDraw j now k drawn =>
      refine hothers ?_
      rintro rfl
      have hne : ∀ chart, drawn = .ok chart → k ≠ key := by
        rintro - - rfl
        exact hdraw j now drawn rfl
      exact (hsound.getOrDraw SharedStore.faithful now k hne).2.tier
  | invalidate j k =>
      refine hothers ?_
      rintro rfl
      exact (hsound.invalidate SharedStore.faithful k).tier
  | purge j now =>
      refine hothers ?_
      rintro rfl
      exact (hsound.purge now).tier
  | shutdown j =>
      refine hothers ?_
      rintro rfl
      exact (hsound.shutdown SharedStore.faithful).tier

theorem Barren.step (h : cs.Barren i key) (hshut : ∀ j, call ≠ .shutdown j)
    (hdraw : ∀ j now drawn, call ≠ .getOrDraw j now key drawn) :
    (cs.step SharedStore.store call).2.Barren i key := by
  refine ⟨isOpen_step h.isOpen hshut, h.tier_step hdraw, ?_⟩
  by_cases hdrop : ∃ j, call = .invalidate j key
  · obtain ⟨j, rfl⟩ := hdrop
    exact (barren_invalidate h.isOpen j key).store
  · rw [not_exists] at hdrop
    exact (cs.spares_step hshut hdrop fun j now drawn he => absurd he (hdraw j now drawn)).of_absent
      h.store

theorem Barren.after {mid : List (Call n)} (h : cs.Barren i key)
    (hshut : ∀ j, .shutdown j ∉ mid) (hdraw : ∀ j now drawn, .getOrDraw j now key drawn ∉ mid) :
    (cs.after SharedStore.store mid).Barren i key := by
  induction mid generalizing cs with
  | nil => exact h
  | cons call mid ih =>
      have hnext := h.step (fun j hj => hshut j (hj ▸ List.mem_cons_self))
        (fun j now drawn hj => hdraw j now drawn (hj ▸ List.mem_cons_self))
      exact ih hnext (fun j hj => hshut j (List.mem_cons_of_mem _ hj))
        (fun j now drawn hj => hdraw j now drawn (List.mem_cons_of_mem _ hj))

/-! ## Drawings -/

theorem Lasting.after {before calls : List (Call n)} (h : cs.Lasting (before ++ calls)) :
    (cs.after SharedStore.store before).Lasting calls := by
  have hcalls := (List.pairwise_append.mp h).2.1
  refine hcalls.imp ?_
  intro call later hlater s t hs ht i life hlife
  rw [rawSpan_after] at hlife
  exact hlater s t hs ht i life hlife

/-- **A chart is drawn once until it is dropped.**  Once a request has drawn the chart of
a key, no other draws it before one of the caches drops the key.  The first request after
that, made of the cache that dropped it, draws again.  Who draws is answered with the
drawing, and whoever does not has no use for it. -/
theorem draws_once_until_dropped (hopen : cs.store.closed = false) {calls : List (Call n)}
    (hshut : ∀ i, .shutdown i ∉ calls) (hlast : cs.Lasting calls) :
    (∀ before mid more i j s t key chart drawn,
      calls = before ++ Call.getOrDraw i s key (.ok chart) ::
        (mid ++ Call.getOrDraw j t key drawn :: more) →
      (cs.after SharedStore.store before).Draws SharedStore.store
        (.getOrDraw i s key (.ok chart)) →
      (∀ k, .invalidate k key ∉ mid) →
        ¬(cs.after SharedStore.store (before ++ Call.getOrDraw i s key (.ok chart) :: mid)).Draws
          SharedStore.store (.getOrDraw j t key drawn)) ∧
    (∀ before mid more i t key drawn,
      calls = before ++ Call.invalidate i key :: (mid ++ Call.getOrDraw i t key drawn :: more) →
      (∀ j s d, .getOrDraw j s key d ∉ mid) →
        (cs.after SharedStore.store (before ++ Call.invalidate i key :: mid)).Draws
          SharedStore.store (.getOrDraw i t key drawn)) ∧
    ∀ before more i t key drawn, calls = before ++ Call.getOrDraw i t key drawn :: more →
      let cs' := cs.after SharedStore.store before
      cs'.Draws SharedStore.store (.getOrDraw i t key drawn) ∧
          (cs'.step SharedStore.store (.getOrDraw i t key drawn)).1 = some drawn ∨
        ¬cs'.Draws SharedStore.store (.getOrDraw i t key drawn) ∧
          ∀ other, cs'.step SharedStore.store (.getOrDraw i t key other)
            = cs'.step SharedStore.store (.getOrDraw i t key drawn) := by
  refine ⟨?_, ?_, ?_⟩
  · rintro before mid more i j s t key chart drawn rfl hdraws hdrop
    have hbefore := isOpen_after hopen fun k hk => hshut k (List.mem_append_left _ hk)
    have hsettled := settled_of_draws hbefore hdraws hlast.after
    rw [after_append]
    refine (hsettled.after ?_ hdrop).not_draws
    intro k hk
    exact hshut k (by simp [hk])
  · rintro before mid more i t key drawn rfl hdraw
    have hbefore := isOpen_after hopen fun k hk => hshut k (List.mem_append_left _ hk)
    have hbarren := barren_invalidate hbefore i key
    rw [after_append]
    refine (hbarren.after ?_ hdraw).draws t drawn
    intro k hk
    exact hshut k (by simp [hk])
  · intro before more i t key drawn _
    exact draws_or_ignores _ i t key drawn

/-- A request for a chart whose bytes in the store are torn. -/
def tornRequest (i : Fin n) : Call n := .getOrDraw i 0 "torn" (.error (.missingChart "down"))

/-- The second cache finds in the store what the first has drawn. -/
def droppedCalls (i j : Fin n) : List (Call n) :=
  [tornRequest i, .invalidate i "torn", .getOrDraw i 1 "torn" (.ok (keyed "torn")), .purge j 2,
    .getOrDraw j 3 "torn" (.error (.missingChart "down"))]

theorem draws_once_over_tornStore :
    let cs := ofSettings (fun i : Fin 2 => { localCapacity := i.val.toUInt64 }) tornStore
    cs.store.closed = false ∧ (∀ i : Fin 2, .shutdown i ∉ droppedCalls 0 1) ∧
      cs.Lasting (droppedCalls 0 1) ∧
      (cs.after SharedStore.store ([tornRequest 0] ++ [Call.invalidate 0 "torn"])).Draws
        SharedStore.store (.getOrDraw 0 1 "torn" (.ok (keyed "torn"))) ∧
      ¬(cs.after SharedStore.store ([tornRequest 0, Call.invalidate 0 "torn"] ++
        [Call.getOrDraw 0 1 "torn" (.ok (keyed "torn")), Call.purge 1 2])).Draws
          SharedStore.store (.getOrDraw 1 3 "torn" (.error (.missingChart "down"))) := by
  intro cs
  have hopen : cs.store.closed = false := rfl
  have hshut : ∀ i : Fin 2, .shutdown i ∉ droppedCalls 0 1 := by simp [droppedCalls, tornRequest]
  have hlast : cs.Lasting (droppedCalls 0 1) := by
    have hspan : ∀ i, (cs.layers i).rawSpan = some 2592000000000000 := by decide
    simp [Lasting, droppedCalls, tornRequest, Call.time?, hspan]
  obtain ⟨honce, hagain, -⟩ := draws_once_until_dropped hopen hshut hlast
  have hdraws := hagain [tornRequest 0] [] [.purge 1 2, .getOrDraw 1 3 "torn"
    (.error (.missingChart "down"))] 0 1 "torn" (.ok (keyed "torn")) rfl (by simp)
  refine ⟨hopen, hshut, hlast, hdraws, ?_⟩
  exact honce [tornRequest 0, .invalidate 0 "torn"] [.purge 1 2] [] 0 1 1 3 "torn" (keyed "torn")
    (.error (.missingChart "down")) rfl hdraws (by simp)

end Caches

end Almanac
