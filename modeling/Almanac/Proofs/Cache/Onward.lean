import Mathlib
import Almanac.Proofs.Cache.Ownership

/-!
# Flights only go onward

The phases of a flight have an order, and no move takes a flight back in it.
-/

namespace Almanac

@[simp] def Flight.Phase.rank : Phase → Nat
  | called => 0
  | asking => 1
  | queued _ => 2
  | rechecking _ => 3
  | drawing _ => 4
  | publishing _ _ => 5
  | handed _ _ => 5
  | done _ => 6
  | cancelled => 6

namespace Flight.Phase

theorem rank_lt_of_isOver {p : Phase} (h : p.isOver = false) : p.rank < 6 := by
  cases p with
  | done outcome => contradiction
  | cancelled => contradiction
  | _ => simp

theorem rank_lt_of_cell? {p : Phase} {cell : Nat} (h : p.cell? = some cell) : p.rank < 6 := by
  cases p with
  | done outcome => contradiction
  | cancelled => contradiction
  | _ => simp

theorem rank_taking (p : Phase) (cell : Nat) (chart : Chart) :
    p.taking cell chart = p ∨ p.rank < (p.taking cell chart).rank := by
  cases p with
  | queued c =>
      rw [taking]
      split
      · exact .inr (by simp)
      · exact .inl rfl
  | _ => exact .inl rfl

end Flight.Phase

namespace Flights

variable {σ : Type} {S : Store σ} {fs fs' : Flights σ} {now i : Nat} {m : Move} {key : String}
  {p q : Flight.Phase}

/-- Every flight is where it was, or has gone on. -/
def Onward (fs fs' : Flights σ) : Prop :=
  ∀ i key p, fs.board.IsAt i key p →
    ∃ q, fs'.board.IsAt i key q ∧ (q = p ∨ p.rank < q.rank)

theorem Onward.refl (fs : Flights σ) : fs.Onward fs := fun _ _ p hat => ⟨p, hat, .inl rfl⟩

theorem Onward.set (cache : Cache σ) (hat : fs.board.IsAt i key p) (hlt : p.rank < q.rank) :
    fs.Onward ((fs.onCache cache).set i q) := by
  intro j k r hr
  by_cases hij : i = j
  · subst hij
    obtain ⟨rfl, rfl⟩ := hat.unique hr
    exact ⟨q, Board.isAt_set_self (b := fs.board) hat, .inr hlt⟩
  · exact ⟨r, Board.isAt_set.mpr ⟨r, hr, (if_neg hij).symm⟩, .inl rfl⟩

theorem Onward.deliver (cache : Cache σ) {cell : Nat} {chart : Chart}
    (hat : fs.board.IsAt i key p) (hlt : p.rank < 6) :
    fs.Onward ((fs.onCache cache).deliver i key cell chart) := by
  intro j k r hr
  rw [board_deliver]
  have hhand : (fs.board.hand cell chart).IsAt j k (r.taking cell chart) :=
    Board.isAt_hand.mpr ⟨r, hr, rfl⟩
  by_cases hij : i = j
  · subst hij
    obtain ⟨rfl, rfl⟩ := hat.unique hr
    exact ⟨_, Board.isAt_set_self (b := fs.board.hand cell chart) hhand, .inr hlt⟩
  · exact ⟨_, Board.isAt_set.mpr ⟨_, hhand, (if_neg hij).symm⟩, r.rank_taking cell chart⟩

/-- **No move takes a flight back.** -/
theorem Goes.onward (h : fs.Goes S now m fs') : fs.Onward fs' := by
  cases h with
  | idle => exact .refl fs
  | @call key => exact fun i k p hat => ⟨p, Board.IsAt.to_call hat key, .inl rfl⟩
  | @miss _ _ layer at' => exact .set { fs.cache with layer } at' (by simp)
  | @find _ _ layer _ at' => exact .set { fs.cache with layer } at' (by simp)
  | @join _ key cache at' =>
      exact .set { cache with layer := (cache.layer.join key).2 } at' (by simp)
  | @fetch _ _ cache _ at' => exact .set cache at' (by simp)
  | @lead _ _ _ layer at' => exact .set { fs.cache with layer } at' (by simp)
  | @findLate _ _ _ layer _ at' => exact .deliver { fs.cache with layer } at' (by simp)
  | @draw _ _ _ cache at' =>
      exact .set { cache with layer := cache.layer.countComputation } at' (by simp)
  | @fetchLate _ _ _ cache _ at' => exact .deliver cache at' (by simp)
  | publish at' => exact .deliver _ at' (by simp)
  | @take _ cell key _ at' =>
      exact .set { fs.cache with layer := fs.cache.layer.leave key cell } at' (by simp)
  | @fail _ cell key _ at' =>
      exact .set { fs.cache with layer := fs.cache.layer.leave key cell } at' (by simp)
  | @keep _ _ key chart at' =>
      exact .set { fs.cache with layer := fs.cache.layer.keep now key chart } at' (by simp)
  | giveUp at' live => exact .set fs.cache at' (Flight.Phase.rank_lt_of_isOver live)
  | @leave _ cell key _ at' joined =>
      exact .set { fs.cache with layer := fs.cache.layer.leave key cell } at'
        (Flight.Phase.rank_lt_of_cell? joined)
  | shutdown => exact .refl _

end Flights

end Almanac
