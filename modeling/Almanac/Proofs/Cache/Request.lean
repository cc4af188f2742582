import Mathlib
import Almanac.Cache.Layer

/-!
# The ways of a request

A request that runs alone looks for its chart, looks again once it has the cell of its key,
and then draws: `Cache.way_getOrDraw`.  A look-up that finds nothing leaves little behind,
`Cache.missed_lookup`.
-/

namespace Almanac

namespace Layer

variable {l l' : Layer} {now : Nat} {key : String}

theorem look_of_miss (h : l.look now key = (none, l')) :
    l' = { l with tier := (l.tier.get now key).2 } := by
  unfold look at h
  rcases hget : l.tier.get now key with ⟨_ | chart, tier⟩ <;> rw [hget] at h <;> cases h
  rfl

/-- An answer in which there is no chart is a failure, or there is nothing in it. -/
theorem take_of_miss {answer : Except StoreFault (Option ByteArray)}
    (h : l.take now key answer = (none, l')) : l' = l ∨ l' = l.countSharedFailure := by
  rcases answer with fault | _ | payload
  · cases h
    exact .inr rfl
  · cases h
    exact .inl rfl
  · simp only [take] at h
    cases hdecode : decode payload <;> rw [hdecode] at h <;> cases h
    exact .inr rfl

theorem get?_join (l : Layer) (key : String) :
    (l.join key).2.inflight.get? key = some (l.join key).1 := by
  unfold join
  cases hcell : l.inflight.get? key with
  | some cell => exact hcell
  | none => exact (Table.get?_put _ _ _ _).trans (if_pos rfl)

end Layer

namespace Cache

variable {σ : Type} {S : Store σ} {now : Nat} {c c' : Cache σ} {key : String}

/-! ## Single calls -/

theorem ask_eq (c : Cache σ) (key : String) :
    c.ask S now key = ((c.layer.take now key (S.get now key c.store).1).1,
      ⟨(c.layer.take now key (S.get now key c.store).1).2, (S.get now key c.store).2⟩) := rfl

theorem publish_eq (c : Cache σ) (key : String) (chart : Chart) :
    c.publish S now key chart
      = ⟨c.layer.countOutcome (S.set now key (Layer.encode chart) c.layer.rawSpan c.store).1,
        (S.set now key (Layer.encode chart) c.layer.rawSpan c.store).2⟩ := rfl

theorem invalidate_eq (c : Cache σ) (key : String) :
    c.invalidate S key
      = ⟨({ c.layer with tier := (c.layer.tier.remove key).2 } : Layer).countOutcome
          (S.delete key c.store).1, (S.delete key c.store).2⟩ := rfl

/-- What a look-up does that finds nothing: each tier is asked, and a failure of the store may
be counted. -/
structure Missed (S : Store σ) (now : Nat) (key : String) (c c' : Cache σ) : Prop where
  tier : c'.layer.tier = (c.layer.tier.get now key).2
  rawSpan : c'.layer.rawSpan = c.layer.rawSpan
  inflight : c'.layer.inflight = c.layer.inflight
  stats : c'.layer.stats
    = { c.layer.stats with sharedFailures := c'.layer.stats.sharedFailures }
  store : c'.store = (S.get now key c.store).2

theorem missed_lookup (h : c.lookup S now key = (none, c')) : Missed S now key c c' := by
  unfold lookup at h
  rcases hlook : c.layer.look now key with ⟨_ | chart, layer⟩ <;> rw [hlook] at h
  · have hlayer := Layer.look_of_miss hlook
    rcases htake : layer.take now key (S.get now key c.store).1 with ⟨found, taken⟩
    have hask : ask S now key { c with layer } = (none, c') := h
    rw [ask_eq, htake] at hask
    cases hask
    rcases Layer.take_of_miss htake with rfl | rfl <;> rw [hlayer] <;>
      exact ⟨rfl, rfl, rfl, rfl, rfl⟩
  · cases h

/-! ## All the ways -/

section

variable {c₁ c₂ : Cache σ} {chart : Chart}

/-! A drawing is not looked at if there is a chart already. -/

theorem getOrDraw_of_found (hit : c.lookup S now key = (some chart, c₁))
    (drawn : Except Failure Chart) : c.getOrDraw S now key drawn = (.ok chart, c₁) := by
  simp only [getOrDraw, hit]

theorem getOrDraw_of_foundLater (miss : c.lookup S now key = (none, c₁))
    (hit : lookup S now key { c₁ with layer := (c₁.layer.join key).2 } = (some chart, c₂))
    (drawn : Except Failure Chart) : c.getOrDraw S now key drawn
      = (.ok chart, { c₂ with layer := c₂.layer.leave key (c₁.layer.join key).1 }) := by
  simp only [getOrDraw, miss, hit]

end

/-- The ways in which a request can go, each with its result. -/
inductive Way (S : Store σ) (now : Nat) (key : String) (drawn : Except Failure Chart)
    (c : Cache σ) : Prop
  /-- A chart is found at once. -/
  | found {c₁ : Cache σ} {chart : Chart} (hit : c.lookup S now key = (some chart, c₁))
      (result : c.getOrDraw S now key drawn = (.ok chart, c₁))
  /-- A chart is found only when the request has its cell. -/
  | foundLater {c₁ c₂ : Cache σ} {chart : Chart} (miss : c.lookup S now key = (none, c₁))
      (hit : lookup S now key { c₁ with layer := (c₁.layer.join key).2 } = (some chart, c₂))
      (result : c.getOrDraw S now key drawn
        = (.ok chart, { c₂ with layer := c₂.layer.leave key (c₁.layer.join key).1 }))
  /-- Nothing is found, and the drawing fails. -/
  | failed {c₁ c₂ : Cache σ} {e : Failure} (drew : drawn = .error e)
      (miss : c.lookup S now key = (none, c₁))
      (again : lookup S now key { c₁ with layer := (c₁.layer.join key).2 } = (none, c₂))
      (result : c.getOrDraw S now key drawn = (.error e,
        { c₂ with layer := c₂.layer.countComputation.leave key (c₁.layer.join key).1 }))
  /-- Nothing is found, and a chart is drawn, kept and sent to the store. -/
  | sent {c₁ c₂ c₃ : Cache σ} {chart : Chart} (drew : drawn = .ok chart)
      (miss : c.lookup S now key = (none, c₁))
      (again : lookup S now key { c₁ with layer := (c₁.layer.join key).2 } = (none, c₂))
      (publish : publish S now key chart
        { c₂ with layer := c₂.layer.countComputation.keep now key chart } = c₃)
      (result : c.getOrDraw S now key drawn
        = (.ok chart, { c₃ with layer := c₃.layer.leave key (c₁.layer.join key).1 }))

theorem way_getOrDraw (S : Store σ) (c : Cache σ) (now : Nat) (key : String)
    (drawn : Except Failure Chart) : Way S now key drawn c := by
  rcases hlook : c.lookup S now key with ⟨_ | chart, c₁⟩
  · rcases hagain : lookup S now key { c₁ with layer := (c₁.layer.join key).2 } with
      ⟨_ | chart, c₂⟩
    · cases drawn with
      | error e => exact .failed rfl hlook hagain (by simp only [getOrDraw, hlook, hagain])
      | ok chart => exact .sent rfl hlook hagain rfl (by simp only [getOrDraw, hlook, hagain])
    · exact .foundLater hlook hagain (getOrDraw_of_foundLater hlook hagain drawn)
  · exact .found hlook (getOrDraw_of_found hlook drawn)

end Cache

end Almanac
