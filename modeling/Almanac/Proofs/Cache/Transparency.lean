import Mathlib
import Almanac.Proofs.Cache.Soundness

/-!
# Caches do not show

Several caches with layers of their own share one store.  Whatever calls are made on
them, and however often the store fails or holds garbage, a request is answered with
the chart of its key, or with the failure of its own drawing.
-/

namespace Almanac

/-- Caches over one shared store. -/
structure Caches (n : Nat) (σ : Type) where
  layers : Fin n → Layer
  store : σ

namespace Caches

variable {n : Nat} {σ : Type}

inductive Call (n : Nat) where
  | getOrDraw (i : Fin n) (now : Nat) (key : String) (drawn : Except Failure Chart)
  | invalidate (i : Fin n) (key : String)
  | purge (i : Fin n) (now : Nat)
  | shutdown (i : Fin n)

/-- What a call is answered with, if it asks for a chart. -/
abbrev Answer := Option (Except Failure Chart)

def ofSettings (settings : Fin n → CacheSettings) (store : σ) : Caches n σ :=
  ⟨fun i => .ofSettings (settings i), store⟩

def cache (cs : Caches n σ) (i : Fin n) : Cache σ := ⟨cs.layers i, cs.store⟩

/-- One of the caches has changed, and with it the store. -/
def update (cs : Caches n σ) (i : Fin n) (c : Cache σ) : Caches n σ :=
  ⟨fun j => if j = i then c.layer else cs.layers j, c.store⟩

def step (S : Store σ) (cs : Caches n σ) : Call n → Answer × Caches n σ
  | .getOrDraw i now key drawn =>
    let (answer, c) := (cs.cache i).getOrDraw S now key drawn
    (some answer, cs.update i c)
  | .invalidate i key => (none, cs.update i ((cs.cache i).invalidate S key))
  | .purge i now => (none, cs.update i ((cs.cache i).purge now).2)
  | .shutdown i => (none, cs.update i ((cs.cache i).shutdown S))

def trace (S : Store σ) (cs : Caches n σ) : List (Call n) → List (Call n × Answer)
  | [] => []
  | call :: calls => (call, (cs.step S call).1) :: trace S (cs.step S call).2 calls

/-! ## Soundness -/

def Sound (Holds : σ → String → ByteArray → Prop) (Good : String → Chart → Prop)
    (cs : Caches n σ) : Prop := ∀ i, (cs.cache i).Sound Holds Good

def Call.DrawsGood (Good : String → Chart → Prop) : Call n → Prop
  | .getOrDraw _ _ key drawn => ∀ chart, drawn = .ok chart → Good key chart
  | _ => True

/-- A request is answered with a good chart or with the failure of its drawing; nothing
else is answered. -/
def Call.AnsweredWith (Good : String → Chart → Prop) : Call n → Answer → Prop
  | .getOrDraw _ _ key _, some (.ok chart) => Good key chart
  | .getOrDraw _ _ _ drawn, some (.error e) => drawn = .error e
  | .getOrDraw _ _ _ _, none => False
  | _, answer => answer = none

variable {S : Store σ} {Holds : σ → String → ByteArray → Prop} {Good : String → Chart → Prop}
  {cs : Caches n σ}

theorem Sound.update (h : cs.Sound Holds Good) (i : Fin n) {c : Cache σ}
    (hc : c.Sound Holds Good) : (cs.update i c).Sound Holds Good := by
  intro j
  refine ⟨?_, hc.store⟩
  by_cases hj : j = i
  · simp only [cache, Caches.update, if_pos hj]
    exact hc.tier
  · simp only [cache, Caches.update, if_neg hj]
    exact (h j).tier

/-- A call on sound caches is answered well and leaves them sound. -/
theorem Sound.step (hS : S.Faithful Holds) (h : cs.Sound Holds Good) {call : Call n}
    (hcall : call.DrawsGood Good) :
    call.AnsweredWith Good (cs.step S call).1 ∧ (cs.step S call).2.Sound Holds Good := by
  cases call with
  | getOrDraw i now key drawn =>
      obtain ⟨hanswer, hc⟩ := (h i).getOrDraw hS now key hcall
      refine ⟨?_, h.update i hc⟩
      rw [Caches.step]
      rcases hget : ((cs.cache i).getOrDraw S now key drawn).1 with e | chart
      · rw [hget] at hanswer
        simpa only [Call.AnsweredWith, hget] using hanswer
      · rw [hget] at hanswer
        simpa only [Call.AnsweredWith, hget] using hanswer
  | invalidate i key => exact ⟨rfl, h.update i ((h i).invalidate hS key)⟩
  | purge i now => exact ⟨rfl, h.update i ((h i).purge now)⟩
  | shutdown i => exact ⟨rfl, h.update i ((h i).shutdown hS)⟩

theorem Sound.trace (hS : S.Faithful Holds) (h : cs.Sound Holds Good) {calls : List (Call n)}
    (hcalls : ∀ call ∈ calls, call.DrawsGood Good) :
    ∀ call answer, (call, answer) ∈ cs.trace S calls → call.AnsweredWith Good answer := by
  induction calls generalizing cs with
  | nil => simp [Caches.trace]
  | cons call calls ih =>
      obtain ⟨hanswer, hnext⟩ := h.step hS (hcalls call List.mem_cons_self)
      intro d answer hd
      rcases List.mem_cons.mp hd with hd | hd
      · obtain ⟨rfl, rfl⟩ := Prod.mk.inj hd
        exact hanswer
      · exact ih hnext (fun c hc => hcalls c (List.mem_cons_of_mem _ hc)) d answer hd

/-- Caches with empty tiers are sound over a store that holds good charts and garbage. -/
theorem sound_ofSettings (settings : Fin n → CacheSettings) {store : σ}
    (h : ∀ key payload chart, Holds store key payload → Layer.decode payload = some chart →
      Good key chart) : (ofSettings settings store).Sound Holds Good :=
  fun _ => ⟨LocalTier.all_empty _ _, h⟩

/-! ## Transparency -/

/-- **Every request is answered with the chart of its key, or with the failure of its
own drawing.**  The store may fail at any call, and hold anything that is no chart. -/
theorem answers_eq_chart_or_failure (hS : S.Faithful Holds) (chart : String → Chart)
    (settings : Fin n → CacheSettings) {store : σ}
    (hstore : ∀ key payload, Holds store key payload →
      Layer.decode payload = none ∨ Layer.decode payload = some (chart key))
    {calls : List (Call n)}
    (hcalls : ∀ i now key drawn, Call.getOrDraw i now key drawn ∈ calls →
      drawn = .ok (chart key) ∨ ∃ e, drawn = .error e) :
    ∀ i now key drawn answer,
      (Call.getOrDraw i now key drawn, answer) ∈ (ofSettings settings store).trace S calls →
        answer = some (.ok (chart key)) ∨ ∃ e, drawn = .error e ∧ answer = some (.error e) := by
  intro i now key drawn answer hmem
  have hsound : (ofSettings settings store).Sound Holds fun key c => c = chart key := by
    apply sound_ofSettings settings
    intro key payload c hk hd
    rcases hstore key payload hk with he | he
    · rw [he] at hd
      contradiction
    · exact Option.some.inj (hd.symm.trans he)
  have hdraws : ∀ call ∈ calls, call.DrawsGood fun key c => c = chart key := by
    intro call hc
    cases call with
    | getOrDraw i now key drawn =>
        intro c hok
        rcases hcalls i now key drawn hc with he | ⟨e, he⟩
        · exact Except.ok.inj (hok.symm.trans he)
        · rw [he] at hok
          contradiction
    | invalidate i key => trivial
    | purge i now => trivial
    | shutdown i => trivial
  have hanswer := hsound.trace hS hdraws _ _ hmem
  match answer, hanswer with
  | some (.ok c), hok => exact .inl (by rw [show c = chart key from hok])
  | some (.error e), herr => exact .inr ⟨e, herr, rfl⟩

/-- A chart without content that carries its key. -/
def keyed (key : String) : Chart := ⟨⟨"", "", "", ""⟩, key, [], []⟩

/-- A store that holds torn bytes for one key and a chart for another. -/
def tornStore : SharedStore where
  entries := (Table.empty.put "torn" ⟨⟨#[0xff]⟩, none⟩).put "kept"
    ⟨Layer.encode (keyed "kept"), none⟩

theorem decode_torn : Layer.decode ⟨#[0xff]⟩ = none := by decide +kernel

/-- Calls on two caches, the first of which keeps nothing nearby. -/
def tornCalls : List (Call 2) :=
  [.getOrDraw 0 0 "torn" (.error (.missingChart "down")),
    .getOrDraw 1 1 "kept" (.error (.missingChart "down")),
    .getOrDraw 1 2 "torn" (.ok (keyed "torn")), .invalidate 0 "torn", .shutdown 1,
    .getOrDraw 0 3 "torn" (.ok (keyed "torn"))]

theorem answers_over_tornStore :
    ∃ answer, (Call.getOrDraw 1 1 "kept" (.error (.missingChart "down")), answer) ∈
        (ofSettings (fun i : Fin 2 => { localCapacity := i.val.toUInt64 }) tornStore).trace
          SharedStore.store tornCalls ∧
      (answer = some (.ok (keyed "kept")) ∨
        ∃ e, Except.error (Failure.missingChart "down") = Except.error (α := Chart) e ∧
          answer = some (.error e)) := by
  have hstore : ∀ key payload, tornStore.Holds key payload →
      Layer.decode payload = none ∨ Layer.decode payload = some (keyed key) := by
    rintro key payload ⟨e, he, rfl⟩
    simp only [tornStore, Table.get?_put, Table.get?_empty] at he
    split at he
    · rename_i hk
      subst hk
      simp only [← Option.some.inj he, Layer.decode_encode (keyed "kept"), or_true]
    · split at he
      · simp only [← Option.some.inj he, decode_torn, true_or]
      · contradiction
  have hcalls : ∀ i now key drawn, Call.getOrDraw i now key drawn ∈ tornCalls →
      drawn = .ok (keyed key) ∨ ∃ e, drawn = .error e := by
    intro i now key drawn hmem
    simp [tornCalls] at hmem
    rcases hmem with ⟨-, -, rfl, rfl⟩ | ⟨-, -, rfl, rfl⟩ | ⟨-, -, rfl, rfl⟩ | ⟨-, -, rfl, rfl⟩
    · exact .inr ⟨_, rfl⟩
    · exact .inr ⟨_, rfl⟩
    · exact .inl rfl
    · exact .inl rfl
  refine ⟨_, .tail _ (.head _), ?_⟩
  exact answers_eq_chart_or_failure SharedStore.faithful keyed
    (fun i : Fin 2 => { localCapacity := i.val.toUInt64 }) hstore hcalls 1 1 "kept"
    (.error (.missingChart "down")) _ (.tail _ (.head _))

end Caches

end Almanac
