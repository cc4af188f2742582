import Mathlib
import Almanac.Pipeline.Basic

/-!
# The engine's answers

While orders are served, the engine's answers are written into a log (`Engine.Calls`).
What an order is answered with is made of the answers to that very order, and of the right
chart, wherever the chart comes from (`Order.Answered`).
-/

namespace Almanac

variable {σ ε : Type}

/-! ## Calls -/

/-- The answers that were given, each to the order with this number. -/
abbrev Log := List (Nat × Fetches.Answer)

namespace Engine

def call (E : Engine ε) (profile : Profile) (e : ε) : Task → Nat × Fetches.Answer × ε
  | .base => let (reply, e) := E.base profile e; (reply.delay, .base reply.result, e)
  | .balance => let (reply, e) := E.balance profile e; (reply.delay, .balance reply.result, e)
  | .pillars => let (reply, e) := E.pillars profile e; (reply.delay, .pillars reply.result, e)

/-- The engine has come from one state to another by calls for some orders, and has given
the answers in the log. -/
inductive Calls (E : Engine ε) (orders : List Order) (start : ε) : Log → ε → Prop where
  | none : Calls E orders start [] start
  | call {log : Log} {e : ε} {i : Nat} {o : Order} (before : Calls E orders start log e)
      (order : orders[i]? = some o) (task : Task) :
      Calls E orders start (log ++ [(i, (E.call o.profile e task).2.1)])
        (E.call o.profile e task).2.2

inductive Reaches (E : Engine ε) (start : ε) : ε → Prop where
  | refl : Reaches E start start
  | call {e : ε} (before : Reaches E start e) (profile : Profile) (task : Task) :
      Reaches E start (E.call profile e task).2.2

/-- For each normalized profile the engine has one chart, which every call gives unless it
fails. -/
def Fixed (E : Engine ε) (chart : String → Chart) (start : ε) : Prop :=
  ∀ e, E.Reaches start e → ∀ profile c, (E.base profile e).1.result = .ok c →
    c = chart profile.normalized

variable {E : Engine ε} {chart : String → Chart} {orders : List Order} {start e : ε} {log : Log}

theorem Calls.reaches (h : E.Calls orders start log e) : E.Reaches start e := by
  induction h with
  | none => exact .refl
  | @call _ _ _ o _ _ task ih => exact ih.call o.profile task

theorem Reaches.trans (h : E.Reaches start e) {e' : ε} (h' : E.Reaches e e') :
    E.Reaches start e' := by
  induction h' with
  | refl => exact h
  | call _ profile task ih => exact ih.call profile task

theorem Fixed.later (h : E.Fixed chart start) (hreach : E.Reaches start e) : E.Fixed chart e :=
  fun e' he' => h e' (hreach.trans he')

theorem Calls.base_eq (hE : E.Fixed chart start) (h : E.Calls orders start log e) {i : Nat}
    {c : Chart} (hmem : (i, .base (.ok c)) ∈ log) :
    ∃ o, orders[i]? = some o ∧ c = chart o.profile.normalized := by
  induction h with
  | none => contradiction
  | @call log e k o before order task ih =>
      rcases List.mem_append.mp hmem with hold | hnew
      · exact ih hold
      -- The newest answer is the engine's to this order, and only a base task gets a chart.
      · obtain ⟨rfl, ha⟩ := Prod.mk.inj (List.mem_singleton.mp hnew)
        refine ⟨o, order, ?_⟩
        cases task with
        | base => exact hE e before.reaches o.profile c (Fetches.Answer.base.inj ha).symm
        | balance => cases ha
        | pillars => cases ha

end Engine

/-! ## What an order is answered with -/

/-- An answer that is made of the right chart and of answers of the engine to the order. -/
inductive Order.Answered (Right : Chart → Prop) (shape : Ranking.Shape)
    (Known : Fetches.Answer → Prop) (o : Order) : Except Failure Report → Prop where
  /-- The engine failed. -/
  | missing {e : EngineFault} (failed : Known (.base (.error e))) :
      Answered Right shape Known o (.error (.missingChart e.message))
  /-- The engine's chart has no periods. -/
  | empty {c : Chart} (drawn : Known (.base (.ok c))) (none : c.periods = []) :
      Answered Right shape Known o (.error .noPeriods)
  /-- The view is that of the right chart, and each part is present or absent as answered. -/
  | report {c : Chart} {view : View} {balance : Except EngineFault BalanceAnalysis}
      {pillars : Except EngineFault PillarAnalysis} (right : Right c)
      (ranked : Ranking.rank c o.profile.birthDate o.reference shape = .ok view)
      (balanced : Known (.balance balance)) (detailed : Known (.pillars pillars)) :
      Answered Right shape Known o
        (.ok ⟨view, c.pillars, Fetch.part balance, Fetch.part pillars⟩)

namespace Order.Answered

variable {Right Right' : Chart → Prop} {shape : Ranking.Shape}
  {Known Known' : Fetches.Answer → Prop} {o : Order} {r : Except Failure Report}

theorem mono (h : o.Answered Right shape Known r) (hright : ∀ c, Right c → Right' c)
    (hknown : ∀ a, Known a → Known' a) : o.Answered Right' shape Known' r := by
  cases h with
  | missing failed => exact .missing (hknown _ failed)
  | empty drawn none => exact .empty (hknown _ drawn) none
  | report right ranked balanced detailed =>
      exact .report (hright _ right) ranked (hknown _ balanced) (hknown _ detailed)

theorem ne_deadline (h : o.Answered Right shape Known r) (limit : Span) :
    r ≠ .error (.deadlineExceeded limit) := by
  rintro rfl
  cases h

/-- A drawing fails with the engine, or because the chart has no periods. -/
theorem of_drawn {a : Except EngineFault Chart} {e : Failure} (ha : Known (.base a))
    (hdrawn : Fetch.drawn a = .error e) : o.Answered Right shape Known (.error e) := by
  cases a with
  | error fault =>
      obtain rfl := Except.error.inj hdrawn
      exact .missing ha
  | ok c =>
      rw [Fetch.drawn] at hdrawn
      split at hdrawn
      · rename_i hempty
        obtain rfl := Except.error.inj hdrawn
        exact .empty ha (List.isEmpty_iff.mp hempty)
      · contradiction

end Order.Answered

end Almanac
