import Mathlib
import Almanac.Cache.Outage
import Almanac.Proofs.Document.Chart

/-!
# What a cache may answer

Fix which charts are good for which key.  A cache is sound if both of its tiers hold
good charts only, garbage in the store apart.  Every operation keeps a cache sound, if
the charts that are drawn are good, and a sound cache answers good charts only:
`Cache.Sound.getOrDraw`.  About the store nothing is assumed but that it makes nothing
up (`Store.Faithful`); any of its calls may fail.
-/

namespace Almanac

/-! ## Tables -/

namespace Table

variable {κ α : Type} [DecidableEq κ] {P : κ → α → Prop} {t : Table κ α}

def All (P : κ → α → Prop) (t : Table κ α) : Prop := ∀ name a, t.get? name = some a → P name a

theorem all_empty : (empty : Table κ α).All P := by
  intro name a h
  rw [get?_empty] at h
  contradiction

theorem All.filter (h : t.All P) (keep : κ → α → Bool) : (t.filter keep).All P := by
  intro name a ha
  rw [get?_filter, Option.filter_eq_some_iff] at ha
  exact h name a ha.1

theorem All.erase (h : t.All P) (name : κ) : (t.erase name).All P := h.filter _

theorem All.put (h : t.All P) {name : κ} {a : α} (ha : P name a) : (t.put name a).All P := by
  intro n b hb
  rw [get?_put] at hb
  split at hb
  · rename_i he
    rw [he, ← Option.some.inj hb]
    exact ha
  · exact h n b hb

end Table

/-! ## The local tier -/

namespace LocalTier

variable {α : Type} {P : String → α → Prop} {t : LocalTier α}

/-- Every value of the tier has a property, fresh or not. -/
def All (P : String → α → Prop) (t : LocalTier α) : Prop :=
  t.entries.All fun name e => P name e.value

theorem all_empty (capacity : Nat) (span : Option Nat) :
    (empty capacity span : LocalTier α).All P := Table.all_empty

theorem All.get (h : t.All P) (now : Nat) (name : String) :
    (∀ a, (t.get now name).1 = some a → P name a) ∧ (t.get now name).2.All P := by
  unfold LocalTier.get
  split
  · exact ⟨by simp, h⟩
  · rename_i e he
    split
    · refine ⟨?_, h⟩
      intro a ha
      rw [← Option.some.inj ha]
      exact h name e he
    · exact ⟨by simp, Table.All.erase h name⟩

theorem All.remove (h : t.All P) (name : String) : (t.remove name).2.All P :=
  Table.All.erase h name

theorem All.purged (h : t.All P) (now : Nat) : (t.purged now).All P := Table.All.filter h _

theorem All.clear (_ : t.All P) : t.clear.All P := Table.all_empty

theorem All.makeRoom (h : t.All P) (now : Nat) : (t.makeRoom now).All P := by
  have evicted : ∀ {t : LocalTier α}, t.All P → t.evict.All P := by
    intro t h
    unfold evict
    split
    · exact h
    · exact Table.All.erase h _
  unfold LocalTier.makeRoom
  split
  · exact h
  · split
    · exact h.purged now
    · exact evicted (h.purged now)

theorem All.insert (h : t.All P) (now : Nat) {name : String} {a : α} (ha : P name a) :
    (t.insert now name a).All P := by
  unfold LocalTier.insert
  split
  · exact h
  · refine Table.All.put ?_ ha
    split
    · exact h
    · exact h.makeRoom now

end LocalTier

/-! ## Stores -/

/-- A store that makes nothing up.  `Holds` says which bytes it may answer for a name;
a failing call may have any of the effects that it has when it succeeds. -/
structure Store.Faithful {σ : Type} (S : Store σ) (Holds : σ → String → ByteArray → Prop) :
    Prop where
  /-- Only bytes that are held are answered. -/
  answer : ∀ {now name s payload}, (S.get now name s).1 = .ok (some payload) → Holds s name payload
  get : ∀ {now name s n payload}, Holds (S.get now name s).2 n payload → Holds s n payload
  /-- A write adds nothing but what is written. -/
  set : ∀ {now name bytes span s n payload}, Holds (S.set now name bytes span s).2 n payload →
    Holds s n payload ∨ n = name ∧ payload = bytes
  delete : ∀ {name s n payload}, Holds (S.delete name s).2 n payload → Holds s n payload
  ping : ∀ {s n payload}, Holds (S.ping s).2 n payload → Holds s n payload
  close : ∀ {s n payload}, Holds (S.close s) n payload → Holds s n payload

namespace SharedStore

def Holds (s : SharedStore) (name : String) (payload : ByteArray) : Prop :=
  ∃ e, s.entries.get? name = some e ∧ e.payload = payload

theorem holds_of_filter {s : SharedStore} {keep : String → Stored → Bool} {name : String}
    {payload : ByteArray} (h : Holds { s with entries := s.entries.filter keep } name payload) :
    Holds s name payload := by
  obtain ⟨e, he, hp⟩ := h
  rw [Table.get?_filter, Option.filter_eq_some_iff] at he
  exact ⟨e, he.1, hp⟩

theorem holds_of_counted {s : SharedStore} {now : Nat} {name : String} {payload : ByteArray}
    (h : Holds (s.counted now) name payload) : Holds s name payload := by
  rw [counted] at h
  split at h
  · exact holds_of_filter h
  · exact h

theorem faithful : store.Faithful Holds where
  answer := by
    intro now name s payload h
    simp only [store, get] at h
    split at h
    · contradiction
    · split at h
      · cases Except.ok.inj h
      · rename_i e he
        split at h
        · exact ⟨e, he, Option.some.inj (Except.ok.inj h)⟩
        · cases Except.ok.inj h
  get := by
    intro now name s n payload h
    simp only [store, get] at h
    split at h
    · exact h
    · split at h
      · exact h
      · split at h
        · exact h
        · exact holds_of_filter h
  set := by
    intro now name bytes span s n payload h
    simp only [store, set] at h
    split at h
    · exact .inl h
    · obtain ⟨e, he, hp⟩ := h
      rw [Table.get?_put] at he
      split at he
      · rename_i hn
        rw [← Option.some.inj he] at hp
        exact .inr ⟨hn, hp.symm⟩
      · exact .inl (holds_of_counted ⟨e, he, hp⟩)
  delete := by
    intro name s n payload h
    simp only [store, delete] at h
    split at h
    · exact h
    · exact holds_of_filter h
  ping := fun h => h
  close := by
    rintro s n payload ⟨e, he, -⟩
    simp only [store, close, Table.get?_empty] at he
    contradiction

end SharedStore

namespace Outage

theorem memory_attempt {α : Type} (call : StoreCall)
    (act : SharedStore → Except StoreFault α × SharedStore) (s : Outage) :
    (attempt call act s).2.memory = s.memory ∨
      (attempt call act s).2.memory = (act s.memory).2 := by
  unfold attempt
  split
  · exact .inl rfl
  · exact .inr rfl

theorem faithful : store.Faithful fun s => SharedStore.Holds s.memory where
  answer := by
    intro now name s payload h
    simp only [store, attempt] at h
    split at h
    · contradiction
    · exact SharedStore.faithful.answer h
  get := by
    intro now name s n payload h
    rcases memory_attempt .get (SharedStore.get now name) s with he | he
    · exact he ▸ h
    · exact SharedStore.faithful.get (he ▸ h)
  set := by
    intro now name bytes span s n payload h
    rcases memory_attempt .set (SharedStore.set now name bytes span) s with he | he
    · exact .inl (he ▸ h)
    · exact SharedStore.faithful.set (he ▸ h)
  delete := by
    intro name s n payload h
    rcases memory_attempt .delete (SharedStore.delete name) s with he | he
    · exact he ▸ h
    · exact SharedStore.faithful.delete (he ▸ h)
  ping := by
    intro s n payload h
    rcases memory_attempt .ping SharedStore.ping s with he | he
    · exact he ▸ h
    · exact SharedStore.faithful.ping (he ▸ h)
  close := fun h => h

end Outage

/-! ## Layers whose tier stays the same -/

namespace Layer

theorem tier_join (l : Layer) (key : String) : (l.join key).2.tier = l.tier := by
  unfold join
  split <;> rfl

theorem tier_leave (l : Layer) (key : String) (cell : Nat) : (l.leave key cell).tier = l.tier := by
  unfold leave
  split <;> rfl

theorem tier_countOutcome {α : Type} (l : Layer) (outcome : Except StoreFault α) :
    (l.countOutcome outcome).tier = l.tier := by
  cases outcome <;> rfl

/-! ## What comes out of the local tier, and into it -/

variable {P : String → Chart → Prop} {l : Layer}

theorem all_look (h : l.tier.All P) (now : Nat) (key : String) :
    (∀ chart, (l.look now key).1 = some chart → P key chart) ∧ (l.look now key).2.tier.All P := by
  obtain ⟨hfound, htier⟩ := h.get now key
  rw [look]
  rcases hget : l.tier.get now key with ⟨_ | chart, tier⟩ <;> rw [hget] at hfound htier
  · exact ⟨by simp, htier⟩
  · exact ⟨hfound, htier⟩

/-- Only a chart that the store has answered with is taken from it. -/
theorem all_take (h : l.tier.All P) (now : Nat) (key : String)
    {a : Except StoreFault (Option ByteArray)}
    (hanswer : ∀ payload chart, a = .ok (some payload) → decode payload = some chart →
      P key chart) :
    (∀ chart, (l.take now key a).1 = some chart → P key chart) ∧
      (l.take now key a).2.tier.All P := by
  rcases a with e | _ | payload
  · exact ⟨by simp [take], h⟩
  · exact ⟨by simp [take], h⟩
  · rw [take]
    rcases hd : decode payload with _ | chart
    · exact ⟨by simp, h⟩
    · have hgood : P key chart := hanswer payload chart rfl hd
      refine ⟨?_, h.insert now hgood⟩
      intro c he
      rw [← Option.some.inj he]
      exact hgood

end Layer

/-! ## Caches -/

/-- What is kept in both tiers is good: every chart in the local tier, and every chart
that is written in the store.  Bytes in the store that are no chart do not matter. -/
structure Cache.Sound {σ : Type} (Holds : σ → String → ByteArray → Prop)
    (Good : String → Chart → Prop) (c : Cache σ) : Prop where
  tier : c.layer.tier.All Good
  store : ∀ key payload chart, Holds c.store key payload → Layer.decode payload = some chart →
    Good key chart

namespace Cache.Sound

variable {σ : Type} {S : Store σ} {Holds : σ → String → ByteArray → Prop}
  {Good : String → Chart → Prop} {c : Cache σ}

theorem onLayer (h : c.Sound Holds Good) {layer : Layer} (ht : layer.tier = c.layer.tier) :
    Cache.Sound Holds Good { c with layer } :=
  ⟨ht ▸ h.tier, h.store⟩

theorem keep (h : c.Sound Holds Good) (now : Nat) {key : String} {chart : Chart}
    (hgood : Good key chart) :
    Cache.Sound Holds Good { c with layer := c.layer.keep now key chart } :=
  ⟨h.tier.insert now hgood, h.store⟩

theorem look (h : c.Sound Holds Good) (now : Nat) (key : String) :
    (∀ chart, (c.layer.look now key).1 = some chart → Good key chart) ∧
      Cache.Sound Holds Good { c with layer := (c.layer.look now key).2 } := by
  obtain ⟨hfound, htier⟩ := Layer.all_look h.tier now key
  exact ⟨hfound, htier, h.store⟩

/-- Whatever the store answers, only a good chart is taken from it. -/
theorem ask (hS : S.Faithful Holds) (h : c.Sound Holds Good) (now : Nat) (key : String) :
    (∀ chart, (c.ask S now key).1 = some chart → Good key chart) ∧
      (c.ask S now key).2.Sound Holds Good := by
  -- What is decoded has been in the store, and comes into the local tier.
  obtain ⟨hfound, htier⟩ := Layer.all_take h.tier now key (a := (S.get now key c.store).1)
    fun payload chart ha => h.store key payload chart (hS.answer ha)
  exact ⟨hfound, htier, fun k payload chart hk => h.store k payload chart (hS.get hk)⟩

theorem lookup (hS : S.Faithful Holds) (h : c.Sound Holds Good) (now : Nat) (key : String) :
    (∀ chart, (c.lookup S now key).1 = some chart → Good key chart) ∧
      (c.lookup S now key).2.Sound Holds Good := by
  obtain ⟨hfound, hc⟩ := h.look now key
  rw [Cache.lookup]
  rcases hlook : c.layer.look now key with ⟨_ | chart, layer⟩
  · rw [hlook] at hc
    exact hc.ask hS now key
  · rw [hlook] at hfound hc
    exact ⟨hfound, hc⟩

/-- What is published is the text of a good chart, and it is read back as that chart. -/
theorem publish (hS : S.Faithful Holds) (h : c.Sound Holds Good) (now : Nat) {key : String}
    {chart : Chart} (hgood : Good key chart) :
    (c.publish S now key chart).Sound Holds Good := by
  constructor
  · rw [Cache.publish, Layer.tier_countOutcome]
    exact h.tier
  · intro k payload d hk hd
    rcases hS.set hk with hk | ⟨rfl, rfl⟩
    · exact h.store k payload d hk hd
    · rw [Layer.decode_encode] at hd
      rw [← Option.some.inj hd]
      exact hgood

/-- **A request is answered with a good chart, or with the failure of its own
drawing**, and the cache stays sound. -/
theorem getOrDraw (hS : S.Faithful Holds) (h : c.Sound Holds Good) (now : Nat) (key : String)
    {drawn : Except Failure Chart} (hdrawn : ∀ chart, drawn = .ok chart → Good key chart) :
    (match (c.getOrDraw S now key drawn).1 with
      | .ok chart => Good key chart
      | .error e => drawn = .error e) ∧
      (c.getOrDraw S now key drawn).2.Sound Holds Good := by
  obtain ⟨hfound, hc⟩ := h.lookup hS now key
  rw [Cache.getOrDraw]
  rcases hlook : c.lookup S now key with ⟨_ | chart, c₁⟩
  · rw [hlook] at hc
    -- Both tiers missed, so the cell is joined and both are asked again.
    have hjoin : Cache.Sound Holds Good { c₁ with layer := (c₁.layer.join key).2 } :=
      hc.onLayer (Layer.tier_join c₁.layer key)
    obtain ⟨hfound, hc⟩ := hjoin.lookup hS now key
    rcases hagain : Cache.lookup S now key { c₁ with layer := (c₁.layer.join key).2 } with
      ⟨_ | chart, c₂⟩
    · rw [hagain] at hc
      simp only [hagain]
      have hcount : Cache.Sound Holds Good { c₂ with layer := c₂.layer.countComputation } :=
        hc.onLayer rfl
      rcases drawn with e | chart
      · exact ⟨rfl, hcount.onLayer (Layer.tier_leave _ _ _)⟩
      · have hgood : Good key chart := hdrawn chart rfl
        have hkept := (hcount.keep now hgood).publish hS now hgood
        exact ⟨hgood, hkept.onLayer (Layer.tier_leave _ _ _)⟩
    · rw [hagain] at hfound hc
      simp only [hagain]
      exact ⟨hfound chart rfl, hc.onLayer (Layer.tier_leave _ _ _)⟩
  · rw [hlook] at hfound hc
    exact ⟨hfound chart rfl, hc⟩

theorem invalidate (hS : S.Faithful Holds) (h : c.Sound Holds Good) (key : String) :
    (c.invalidate S key).Sound Holds Good := by
  refine ⟨?_, fun k payload chart hk => h.store k payload chart (hS.delete hk)⟩
  rw [Cache.invalidate, Layer.tier_countOutcome]
  exact h.tier.remove key

theorem purge (h : c.Sound Holds Good) (now : Nat) : (c.purge now).2.Sound Holds Good :=
  ⟨h.tier.purged now, h.store⟩

theorem shutdown (hS : S.Faithful Holds) (h : c.Sound Holds Good) :
    (c.shutdown S).Sound Holds Good :=
  ⟨h.tier.clear, fun k payload chart hk => h.store k payload chart (hS.close hk)⟩

end Cache.Sound

end Almanac
