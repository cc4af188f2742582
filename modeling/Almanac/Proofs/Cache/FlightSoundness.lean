import Mathlib
import Almanac.Proofs.Cache.Ownership
import Almanac.Proofs.Cache.Soundness

/-!
# What a flight may end with

A chart comes to the flights by a drawing or by an answer of the store
(`Flights.Brings`).  Whatever is true of all charts that come is true of every chart that
a flight has got, be it found, drawn or handed on: `Flights.Stocked.step`.  So flights
over a sound cache have good charts only, and a flight fails only with the failure of its
own drawing: `Board.Step.failure`.
-/

namespace Almanac

def Flight.Phase.chart? : Phase → Option Chart
  | publishing _ chart => some chart
  | handed _ chart => some chart
  | done (.ok chart) => some chart
  | _ => none

namespace Board

variable {b b' : Board} {Good : String → Chart → Prop} {i j cell : Nat} {key : String}
  {p q : Flight.Phase} {chart : Chart}

def HasGood (Good : String → Chart → Prop) (b : Board) : Prop :=
  ∀ i key p chart, b.IsAt i key p → p.chart? = some chart → Good key chart

theorem HasGood.set (h : b.HasGood Good) (hat : b.IsAt i key p)
    (hq : ∀ chart, q.chart? = some chart → Good key chart) : (b.set i q).HasGood Good := by
  intro j k r chart hr hc
  obtain ⟨r', hat', rfl⟩ := isAt_set.mp hr
  split at hc
  · rename_i he
    subst he
    rw [← (hat.unique hat').1]
    exact hq chart hc
  · exact h j k r' chart hat' hc

/-- A chart that is good for its key may be handed to all that wait for the key's
cell. -/
theorem HasGood.hand (h : b.HasGood Good) (howned : b.Owned) (hat : b.IsAt i key p)
    (hcell : p.cell? = some cell) (hgood : Good key chart) : (b.hand cell chart).HasGood Good := by
  intro j k r c hr hc
  obtain ⟨r', hat', rfl⟩ := isAt_hand.mp hr
  cases r' with
  | queued d =>
      rw [Flight.Phase.taking] at hc
      split at hc
      · rename_i hd
        -- It waits for the same cell, so it waits for the same key.
        have hjoined : b.Has (·.cell?) j k cell := hat'.has (by rw [← hd]; rfl)
        have hkey : k = key := howned.same_key hjoined (hat.has hcell)
        rw [hkey, ← Option.some.inj hc]
        exact hgood
      · cases hc
  | _ => exact h j k _ c hat' hc

/-! ## Keys and failures -/

def keys (b : Board) : List String := b.flights.map (·.key)

theorem IsAt.getElem?_keys (h : b.IsAt i key p) : b.keys[i]? = some key := by
  rw [keys, List.getElem?_map, h]
  rfl

theorem keys_set (b : Board) (i : Nat) (p : Flight.Phase) : (b.set i p).keys = b.keys := by
  refine List.ext_getElem? fun j => ?_
  simp only [keys, set, List.getElem?_map, List.getElem?_modify]
  rcases b.flights[j]? with _ | f
  · rfl
  · simp only [Option.map_some, Option.map_eq_map]
    split <;> rfl

theorem keys_hand (b : Board) (cell : Nat) (chart : Chart) : (b.hand cell chart).keys = b.keys := by
  simp only [keys, hand, List.map_map]
  rfl

theorem Step.keys {m : Flights.Move} (hs : b.Step m b') :
    b'.keys = b.keys ∨ ∃ key, m = .call key ∧ b'.keys = b.keys ++ [key] := by
  cases hs with
  | idle => exact .inl rfl
  | @call key => exact .inr ⟨key, rfl, List.map_append⟩
  | roam => exact .inl (keys_set _ _ _)
  | join => exact .inl (keys_set _ _ _)
  | found => exact .inl (keys_set _ _ _)
  | lead => exact .inl (keys_set _ _ _)
  | work => exact .inl (keys_set _ _ _)
  | land => exact .inl (keys_set _ _ _)
  | deliver => exact .inl ((keys_set _ _ _).trans (keys_hand b _ _))
  | shutdown => exact .inl rfl

theorem isAt_failed_of_set {e : Failure} (hq : q.failure? = none)
    (h : (b.set i q).IsAt j key (.done (.error e))) : b.IsAt j key (.done (.error e)) := by
  obtain ⟨p, hat, he⟩ := isAt_set.mp h
  split at he
  · rw [← he] at hq
    contradiction
  · rw [he]
    exact hat

theorem isAt_failed_of_hand {e : Failure}
    (h : (b.hand cell chart).IsAt j key (.done (.error e))) : b.IsAt j key (.done (.error e)) := by
  obtain ⟨p, hat, he⟩ := isAt_hand.mp h
  cases p with
  | queued d =>
      rw [Flight.Phase.taking] at he
      split at he <;> cases he
  | _ => exact he ▸ hat

/-- A flight lands with a failure only at the end of its drawing. -/
theorem Lands.eq_conclude {m : Flights.Move} {e : Failure}
    (h : Lands i m p (.done (.error e))) :
    m = .conclude i (.error e) ∧ ∃ cell, p = .drawing cell := by
  cases m with
  | conclude i' drawn =>
      cases drawn with
      | error e' =>
          cases p with
          | drawing d =>
              obtain ⟨rfl, he⟩ := h
              cases he
              exact ⟨rfl, d, rfl⟩
          | _ => exact h.elim
      | ok chart => cases p <;> exact h.elim
  | cancel i' => cases p <;> cases h.2
  | proceed i' =>
      cases p with
      | handed d chart => cases h.2
      | _ => exact h.elim
  | call k => cases p <;> exact h.elim
  | shutdown => cases p <;> exact h.elim

/-- A flight that has failed has failed before, or its own drawing has failed. -/
theorem Step.failure {m : Flights.Move} {e : Failure} (hs : b.Step m b')
    (hfail : b'.IsAt j key (.done (.error e))) :
    b.IsAt j key (.done (.error e)) ∨
      m = .conclude j (.error e) ∧ ∃ cell, b.IsAt j key (.drawing cell) := by
  cases hs with
  | idle => exact .inl hfail
  | @call k =>
      rcases hfail.of_call with hat | ⟨-, -, he⟩
      · exact .inl hat
      · contradiction
  | roam at' before after fine => exact .inl (isAt_failed_of_set fine hfail)
  | join at' registered => exact .inl (isAt_failed_of_set rfl hfail)
  | found at' unregistered => exact .inl (isAt_failed_of_set (b := b.register _) rfl hfail)
  | lead at' unled => exact .inl (isAt_failed_of_set rfl hfail)
  | @work _ _ _ _ _ q at' before after =>
      -- Whoever leads a cell is not done.
      have hq : q.failure? = none := by cases q <;> first | rfl | cases after
      exact .inl (isAt_failed_of_set hq hfail)
  | @land _ i c k p q at' joined lands =>
      obtain ⟨p', hat, he⟩ := isAt_set.mp hfail
      split at he
      · rename_i hij
        subst hij
        subst he
        obtain ⟨hm, d, rfl⟩ := lands.eq_conclude
        rw [← (hat.unique at').1] at at'
        exact .inr ⟨hm, d, at'⟩
      · exact .inl (he ▸ hat)
  | @deliver _ i c k p chart at' joined alone =>
      exact .inl (isAt_failed_of_hand
        (isAt_failed_of_set (b := (b.hand c chart).leave k c) rfl hfail))
  | shutdown => exact .inl hfail

end Board

/-! ## Where charts come from -/

def Flight.Phase.isAsking : Phase → Bool
  | asking => true
  | rechecking _ => true
  | _ => false

namespace Flights

variable {σ : Type} {S : Store σ} {Good : String → Chart → Prop} {fs fs' : Flights σ} {now : Nat}
  {m : Move}

/-- By a move a chart comes to the flights: a drawing ends with it, or the store answers
with it when it is asked for its key. -/
inductive Brings (S : Store σ) (fs : Flights σ) (now : Nat) : Move → String → Chart → Prop where
  | drawn {i cell : Nat} {key : String} {chart : Chart}
      (at' : fs.board.IsAt i key (.drawing cell)) :
      Brings S fs now (.conclude i (.ok chart)) key chart
  | answered {i : Nat} {key : String} {p : Flight.Phase} {payload : ByteArray} {chart : Chart}
      (at' : fs.board.IsAt i key p) (asking : p.isAsking = true)
      (answer : (S.get now key fs.cache.store).1 = .ok (some payload))
      (decoded : Layer.decode payload = some chart) :
      Brings S fs now (.proceed i) key chart

/-- Every chart that is in the local tier, or that a flight has got, is good. -/
structure Stocked (Good : String → Chart → Prop) (fs : Flights σ) : Prop where
  tier : fs.cache.layer.tier.All Good
  valid : fs.board.Valid
  charts : fs.board.HasGood Good

theorem Stocked.set (h : fs.Stocked Good) (cache : Cache σ) {i : Nat} {key : String}
    {p q : Flight.Phase} (htier : cache.layer.tier.All Good) (hat : fs.board.IsAt i key p)
    (hq : ∀ chart, q.chart? = some chart → Good key chart)
    (hvalid : ((fs.onCache cache).set i q).board.Valid) :
    ((fs.onCache cache).set i q).Stocked Good := by
  refine ⟨htier, hvalid, ?_⟩
  -- The charts are those of the flights: what the cache did to the cells does not matter.
  intro j k r chart hr
  exact h.charts.set hat hq j k r chart hr

theorem Stocked.setDone (h : fs.Stocked Good) (cache : Cache σ) {i : Nat} {key : String}
    {p : Flight.Phase} {chart : Chart} (htier : cache.layer.tier.All Good)
    (hat : fs.board.IsAt i key p) (hgood : Good key chart) :
    ((fs.onCache cache).set i (.done (.ok chart))).board.Valid →
      ((fs.onCache cache).set i (.done (.ok chart))).Stocked Good := by
  apply h.set cache htier hat
  rintro c ⟨⟩
  exact hgood

theorem Stocked.deliver (h : fs.Stocked Good) (cache : Cache σ) {i cell : Nat} {key : String}
    {p : Flight.Phase} {chart : Chart} (htier : cache.layer.tier.All Good)
    (hat : fs.board.IsAt i key p) (hcell : p.cell? = some cell) (hgood : Good key chart)
    (hvalid : ((fs.onCache cache).deliver i key cell chart).board.Valid) :
    ((fs.onCache cache).deliver i key cell chart).Stocked Good := by
  refine ⟨Layer.tier_leave cache.layer key cell ▸ htier, hvalid, ?_⟩
  rw [board_deliver]
  have hhand : ((fs.onCache cache).board.hand cell chart).HasGood Good :=
    h.charts.hand h.valid.owned hat hcell hgood
  have hat' : (fs.board.hand cell chart).IsAt i key (p.taking cell chart) :=
    Board.isAt_hand.mpr ⟨p, hat, rfl⟩
  intro j k r c hr
  refine hhand.set hat' ?_ j k r c hr
  rintro c ⟨⟩
  exact hgood

theorem Stocked.look (h : fs.Stocked Good) {key : String} {found : Option Chart} {layer : Layer}
    (looked : fs.cache.layer.look now key = (found, layer)) :
    (∀ chart, found = some chart → Good key chart) ∧ layer.tier.All Good := by
  have hlook := Layer.all_look h.tier now key
  rw [looked] at hlook
  exact hlook

theorem Stocked.ask (h : fs.Stocked Good) {i : Nat} {key : String} {p : Flight.Phase}
    (hgood : ∀ key chart, fs.Brings S now (.proceed i) key chart → Good key chart)
    (hat : fs.board.IsAt i key p) (hp : p.isAsking = true) {found : Option Chart}
    {cache : Cache σ} (asked : fs.cache.ask S now key = (found, cache)) :
    (∀ chart, found = some chart → Good key chart) ∧ cache.layer.tier.All Good := by
  have hask : (∀ chart, (fs.cache.ask S now key).1 = some chart → Good key chart) ∧
      (fs.cache.ask S now key).2.layer.tier.All Good :=
    Layer.all_take h.tier now key fun payload chart ha hd =>
      hgood key chart (.answered hat hp ha hd)
  rw [asked] at hask
  exact hask

/-- **No move makes up a chart**: if those that come by it are good, all are good. -/
theorem Stocked.step (h : fs.Stocked Good) (hs : fs.Goes S now m fs')
    (hgood : ∀ key chart, fs.Brings S now m key chart → Good key chart) : fs'.Stocked Good := by
  have hvalid : fs'.board.Valid := h.valid.step hs.board
  cases hs with
  | idle => exact h
  | @call key =>
      refine ⟨h.tier, hvalid, ?_⟩
      intro i k p chart hat hc
      have hat : (fs.board.call key).IsAt i k p := hat
      rcases hat.of_call with hold | ⟨-, -, rfl⟩
      · exact h.charts i k p chart hold hc
      · cases hc
  | @miss _ _ layer at' looked =>
      exact h.set { fs.cache with layer } (h.look looked).2 at' (by rintro c ⟨⟩) hvalid
  | @find _ _ layer chart at' looked =>
      obtain ⟨hfound, htier⟩ := h.look looked
      exact h.setDone { fs.cache with layer } htier at' (hfound chart rfl) hvalid
  | @join _ key cache at' asked =>
      have htier : (cache.layer.join key).2.tier.All Good :=
        Layer.tier_join cache.layer key ▸ (h.ask hgood at' rfl asked).2
      exact h.set { cache with layer := (cache.layer.join key).2 } htier at' (by rintro c ⟨⟩) hvalid
  | @fetch _ _ cache chart at' asked =>
      obtain ⟨hfound, htier⟩ := h.ask hgood at' rfl asked
      exact h.setDone cache htier at' (hfound chart rfl) hvalid
  | @lead _ _ _ layer at' unled looked =>
      exact h.set { fs.cache with layer } (h.look looked).2 at' (by rintro c ⟨⟩) hvalid
  | @findLate _ _ _ layer chart at' unled looked =>
      obtain ⟨hfound, htier⟩ := h.look looked
      exact h.deliver { fs.cache with layer } htier at' rfl (hfound chart rfl) hvalid
  | @draw _ _ _ cache at' asked =>
      exact h.set { cache with layer := cache.layer.countComputation } (h.ask hgood at' rfl asked).2
        at' (by rintro c ⟨⟩) hvalid
  | @fetchLate _ _ _ cache chart at' asked =>
      obtain ⟨hfound, htier⟩ := h.ask hgood at' rfl asked
      exact h.deliver cache htier at' rfl (hfound chart rfl) hvalid
  | @publish i _ key chart at' =>
      have htier : (fs.cache.publish S now key chart).layer.tier.All Good := by
        rw [Cache.publish, Layer.tier_countOutcome]
        exact h.tier
      exact h.deliver _ htier at' rfl (h.charts i key _ chart at' rfl) hvalid
  | @take i cell key chart at' =>
      exact h.setDone { fs.cache with layer := fs.cache.layer.leave key cell }
        (Layer.tier_leave fs.cache.layer key cell ▸ h.tier) at' (h.charts i key _ chart at' rfl)
        hvalid
  | @fail _ cell key _ at' =>
      exact h.set { fs.cache with layer := fs.cache.layer.leave key cell }
        (Layer.tier_leave fs.cache.layer key cell ▸ h.tier) at' (by rintro c ⟨⟩) hvalid
  | @keep _ _ key chart at' =>
      have hdrawn : Good key chart := hgood key chart (.drawn at')
      refine h.set { fs.cache with layer := fs.cache.layer.keep now key chart }
        (h.tier.insert now hdrawn) at' ?_ hvalid
      rintro c ⟨⟩
      exact hdrawn
  | giveUp at' live free => exact h.set fs.cache h.tier at' (by rintro c ⟨⟩) hvalid
  | @leave _ cell key _ at' joined =>
      exact h.set { fs.cache with layer := fs.cache.layer.leave key cell }
        (Layer.tier_leave fs.cache.layer key cell ▸ h.tier) at' (by rintro c ⟨⟩) hvalid
  | shutdown => exact ⟨h.tier.clear, hvalid, h.charts⟩

/-! ## Flights over a sound cache -/

variable {Holds : σ → String → ByteArray → Prop}

theorem holds_of_ask (hS : S.Faithful Holds) {c c' : Cache σ} {key k : String}
    {payload : ByteArray} {found : Option Chart} (asked : c.ask S now key = (found, c'))
    (h : Holds c'.store k payload) : Holds c.store k payload := by
  have hstore : (S.get now key c.store).2 = c'.store := congrArg (fun r => r.2.store) asked
  rw [← hstore] at h
  exact hS.get h

/-- What the store holds after a move it held before, or a flight publishes it. -/
theorem Goes.holds (hS : S.Faithful Holds) (hs : fs.Goes S now m fs') {k : String}
    {payload : ByteArray} (h : Holds fs'.cache.store k payload) :
    Holds fs.cache.store k payload ∨ ∃ i cell chart,
      fs.board.IsAt i k (.publishing cell chart) ∧ payload = Layer.encode chart := by
  cases hs with
  | join at' asked => exact .inl (holds_of_ask hS asked h)
  | fetch at' asked => exact .inl (holds_of_ask hS asked h)
  | draw at' asked => exact .inl (holds_of_ask hS asked h)
  | fetchLate at' asked => exact .inl (holds_of_ask hS asked h)
  | @publish i cell _ chart at' =>
      rcases hS.set h with hk | ⟨rfl, rfl⟩
      · exact .inl hk
      · exact .inr ⟨i, cell, chart, at', rfl⟩
  | shutdown => exact .inl (hS.close h)
  -- No other move calls the store.
  | idle | call | miss | find | lead | findLate | take | fail | keep | giveUp | leave =>
      exact .inl h

/-- The cache is sound, and so is every chart that a flight has got. -/
structure Sound (Holds : σ → String → ByteArray → Prop) (Good : String → Chart → Prop)
    (fs : Flights σ) : Prop where
  cache : fs.cache.Sound Holds Good
  valid : fs.board.Valid
  charts : fs.board.HasGood Good

def DrawsGood (Good : String → Chart → Prop) (fs : Flights σ) : Move → Prop
  | .conclude i (.ok chart) => ∀ key cell, fs.board.IsAt i key (.drawing cell) → Good key chart
  | _ => True

/-- **Every move keeps flights sound**, if what is drawn is good. -/
theorem Sound.step (hS : S.Faithful Holds) (h : fs.Sound Holds Good) (now : Nat)
    (hm : fs.DrawsGood Good m) : (fs.step S now m).Sound Holds Good := by
  have hgood : ∀ key chart, fs.Brings S now m key chart → Good key chart := by
    intro key chart hb
    cases hb with
    | drawn at' => exact hm key _ at'
    | answered at' asking answer decoded =>
        exact h.cache.store key _ chart (hS.answer answer) decoded
  have hgoes := step_goes S fs now m
  have hstocked := Stocked.step ⟨h.cache.tier, h.valid, h.charts⟩ hgoes hgood
  refine ⟨⟨hstocked.tier, ?_⟩, hstocked.valid, hstocked.charts⟩
  intro k payload chart hk hd
  rcases hgoes.holds hS hk with hold | ⟨i, cell, drawn, at', rfl⟩
  · exact h.cache.store k payload chart hold hd
  · rw [Layer.decode_encode] at hd
    rw [← Option.some.inj hd]
    exact h.charts i k _ drawn at' rfl

end Flights

end Almanac
