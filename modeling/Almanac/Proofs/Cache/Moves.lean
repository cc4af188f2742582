import Mathlib
import Almanac.Cache.Flight

/-!
# What a move does

`Flights.Goes` lists everything that one move can do to the flights and to their cache,
and under which circumstances: `Flights.step_goes`.  What the moves keep, and where they
lead, is read off this list.
-/

namespace Almanac.Flights

variable {σ : Type}

/-- Everything that a move can do. -/
inductive Goes (S : Store σ) (fs : Flights σ) (now : Nat) : Move → Flights σ → Prop where
  /-- Nothing. -/
  | idle {m : Move} : Goes S fs now m fs
  | call {key : String} :
      Goes S fs now (.call key) { fs with flights := fs.flights ++ [⟨key, .called⟩] }
  | miss {i : Nat} {key : String} {layer : Layer}
      (at' : fs.flights[i]? = some ⟨key, .called⟩)
      (looked : fs.cache.layer.look now key = (none, layer)) :
      Goes S fs now (.proceed i) ((fs.onLayer layer).set i .asking)
  | find {i : Nat} {key : String} {layer : Layer} {chart : Chart}
      (at' : fs.flights[i]? = some ⟨key, .called⟩)
      (looked : fs.cache.layer.look now key = (some chart, layer)) :
      Goes S fs now (.proceed i) ((fs.onLayer layer).set i (.done (.ok chart)))
  | join {i : Nat} {key : String} {cache : Cache σ}
      (at' : fs.flights[i]? = some ⟨key, .asking⟩)
      (asked : fs.cache.ask S now key = (none, cache)) :
      Goes S fs now (.proceed i) ((fs.onCache { cache with layer := (cache.layer.join key).2 }).set
        i (.queued (cache.layer.join key).1))
  | fetch {i : Nat} {key : String} {cache : Cache σ} {chart : Chart}
      (at' : fs.flights[i]? = some ⟨key, .asking⟩)
      (asked : fs.cache.ask S now key = (some chart, cache)) :
      Goes S fs now (.proceed i) ((fs.onCache cache).set i (.done (.ok chart)))
  /-- A flight that waited leads its cell. -/
  | lead {i cell : Nat} {key : String} {layer : Layer}
      (at' : fs.flights[i]? = some ⟨key, .queued cell⟩) (unled : fs.isLed cell = false)
      (looked : fs.cache.layer.look now key = (none, layer)) :
      Goes S fs now (.proceed i) ((fs.onLayer layer).set i (.rechecking cell))
  /-- A flight that waited finds the chart. -/
  | findLate {i cell : Nat} {key : String} {layer : Layer} {chart : Chart}
      (at' : fs.flights[i]? = some ⟨key, .queued cell⟩) (unled : fs.isLed cell = false)
      (looked : fs.cache.layer.look now key = (some chart, layer)) :
      Goes S fs now (.proceed i) ((fs.onLayer layer).deliver i key cell chart)
  | draw {i cell : Nat} {key : String} {cache : Cache σ}
      (at' : fs.flights[i]? = some ⟨key, .rechecking cell⟩)
      (asked : fs.cache.ask S now key = (none, cache)) :
      Goes S fs now (.proceed i)
        (((fs.onCache cache).onLayer cache.layer.countComputation).set i (.drawing cell))
  | fetchLate {i cell : Nat} {key : String} {cache : Cache σ} {chart : Chart}
      (at' : fs.flights[i]? = some ⟨key, .rechecking cell⟩)
      (asked : fs.cache.ask S now key = (some chart, cache)) :
      Goes S fs now (.proceed i) ((fs.onCache cache).deliver i key cell chart)
  | publish {i cell : Nat} {key : String} {chart : Chart}
      (at' : fs.flights[i]? = some ⟨key, .publishing cell chart⟩) :
      Goes S fs now (.proceed i)
        ((fs.onCache (fs.cache.publish S now key chart)).deliver i key cell chart)
  | take {i cell : Nat} {key : String} {chart : Chart}
      (at' : fs.flights[i]? = some ⟨key, .handed cell chart⟩) :
      Goes S fs now (.proceed i) (fs.land i key cell (.done (.ok chart)))
  | fail {i cell : Nat} {key : String} {e : Failure}
      (at' : fs.flights[i]? = some ⟨key, .drawing cell⟩) :
      Goes S fs now (.conclude i (.error e)) (fs.land i key cell (.done (.error e)))
  | keep {i cell : Nat} {key : String} {chart : Chart}
      (at' : fs.flights[i]? = some ⟨key, .drawing cell⟩) :
      Goes S fs now (.conclude i (.ok chart))
        ((fs.onLayer (fs.cache.layer.keep now key chart)).set i (.publishing cell chart))
  /-- A flight without a cell is cancelled. -/
  | giveUp {i : Nat} {key : String} {p : Flight.Phase} (at' : fs.flights[i]? = some ⟨key, p⟩)
      (live : p.isOver = false) (free : p.cell? = none) :
      Goes S fs now (.cancel i) (fs.set i .cancelled)
  /-- A flight with a cell is cancelled. -/
  | leave {i cell : Nat} {key : String} {p : Flight.Phase}
      (at' : fs.flights[i]? = some ⟨key, p⟩) (joined : p.cell? = some cell) :
      Goes S fs now (.cancel i) (fs.land i key cell .cancelled)
  | shutdown : Goes S fs now .shutdown (fs.onCache (fs.cache.shutdown S))

theorem proceed_goes (S : Store σ) (fs : Flights σ) (now i : Nat) :
    fs.Goes S now (.proceed i) (fs.proceed S now i) := by
  unfold proceed
  split
  · exact .idle
  · rename_i key phase at'
    cases phase with
    | called =>
        rcases hlook : fs.cache.layer.look now key with ⟨_ | chart, layer⟩
        · exact .miss at' hlook
        · exact .find at' hlook
    | asking =>
        rcases hask : fs.cache.ask S now key with ⟨_ | chart, cache⟩
        · exact .join at' hask
        · exact .fetch at' hask
    | queued cell =>
        simp only
        split
        · exact .idle
        · rename_i hled
          have hunled : fs.isLed cell = false := Bool.eq_false_iff.mpr hled
          rcases hlook : fs.cache.layer.look now key with ⟨_ | chart, layer⟩
          · exact .lead at' hunled hlook
          · exact .findLate at' hunled hlook
    | rechecking cell =>
        rcases hask : fs.cache.ask S now key with ⟨_ | chart, cache⟩
        · exact .draw at' hask
        · exact .fetchLate at' hask
    | publishing cell chart => exact .publish at'
    | handed cell chart => exact .take at'
    | drawing cell => exact .idle
    | done outcome => exact .idle
    | cancelled => exact .idle

theorem conclude_goes (S : Store σ) (fs : Flights σ) (now i : Nat)
    (drawn : Except Failure Chart) :
    fs.Goes S now (.conclude i drawn) (fs.conclude now i drawn) := by
  unfold conclude
  split
  · rename_i key cell at'
    cases drawn with
    | error e => exact .fail at'
    | ok chart => exact .keep at'
  · exact .idle

theorem cancel_goes (S : Store σ) (fs : Flights σ) (now i : Nat) :
    fs.Goes S now (.cancel i) (fs.cancel i) := by
  unfold cancel
  split
  · exact .idle
  · rename_i key phase at'
    split
    · exact .idle
    · rename_i hover
      rcases hcell : phase.cell? with _ | cell
      · exact .giveUp at' (Bool.eq_false_iff.mpr hover) hcell
      · exact .leave at' hcell

/-- **A move does nothing but what `Flights.Goes` lists.** -/
theorem step_goes (S : Store σ) (fs : Flights σ) (now : Nat) (m : Move) :
    fs.Goes S now m (fs.step S now m) := by
  cases m with
  | call key => exact .call
  | proceed i => exact proceed_goes S fs now i
  | conclude i drawn => exact conclude_goes S fs now i drawn
  | cancel i => exact cancel_goes S fs now i
  | shutdown => exact .shutdown

end Almanac.Flights
