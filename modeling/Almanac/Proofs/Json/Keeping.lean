import Mathlib
import Almanac.Json.Codec
import Almanac.Proofs.Json.Scan

/-!
# Values that are kept

A reader that needs a value later keeps it.  A value is kept of a tree in one way only: its
parts are kept of the parts of the tree, and nothing was wrong in the text.  So whoever skips
the tree does not meet a fault either.
-/

namespace Almanac.Json

def IsScalar : Json → Prop
  | .list _ => False
  | .object _ => False
  | _ => True

/-! ## Room -/

mutual
def depth : Json → Nat
  | .list items => depthItems items + 1
  | .object fields => depthFields fields + 1
  | _ => 0
def depthItems : List Json → Nat
  | [] => 0
  | j :: js => max (depth j) (depthItems js)
def depthFields : List (String × Json) → Nat
  | [] => 0
  | (_, j) :: fs => max (depth j) (depthFields fs)
end

namespace Tree

/-- A value is kept of a tree wherever there is room for its levels. -/
def Keeps (t : Tree) (j : Json) : Prop := ∀ room, j.depth < room → t.keep room = .ok j

theorem keeps_list {ts : List Tree} {js : List Json}
    (h : ∀ room, depthItems js < room → keepItems room ts = .ok js) :
    (Tree.list ts .closed).Keeps (.list js) := by
  intro room hroom
  rw [depth] at hroom
  rw [keep, if_neg (by omega), h (room - 1) (by omega)]
  rfl

theorem keeps_object {ts : List (TextToken × Tree)} {fs : List (String × Json)}
    (h : ∀ room, depthFields fs < room → keepFields room ts = .ok fs) :
    (Tree.object ts .closed).Keeps (.object fs) := by
  intro room hroom
  rw [depth] at hroom
  rw [keep, if_neg (by omega), h (room - 1) (by omega)]
  rfl

/-! ## The parts of what is kept -/

section

variable {room : Nat}

theorem keepItems_cons {t : Tree} {ts : List Tree} {js : List Json}
    (h : keepItems room (t :: ts) = .ok js) :
    ∃ j js', js = j :: js' ∧ t.keep room = .ok j ∧ keepItems room ts = .ok js' := by
  rw [keepItems] at h
  split at h
  · rename_i j hj
    rcases hts : keepItems room ts with f | js'
    · rw [hts] at h
      contradiction
    · rw [hts] at h
      exact ⟨j, js', (Except.ok.inj h).symm, hj, rfl⟩
  · contradiction

theorem keepFields_cons {field : TextToken × Tree} {fields : List (TextToken × Tree)}
    {fs : List (String × Json)} (h : keepFields room (field :: fields) = .ok fs) :
    ∃ k t j fs', field = (.ok k, t) ∧ fs = (k, j) :: fs' ∧ t.keep room = .ok j ∧
      keepFields room fields = .ok fs' := by
  obtain ⟨f | k, t⟩ := field
  · contradiction
  rw [keepFields] at h
  split at h
  · rename_i j hj
    rcases hfields : keepFields room fields with f | fs'
    · rw [hfields] at h
      contradiction
    · rw [hfields] at h
      exact ⟨k, t, j, fs', rfl, (Except.ok.inj h).symm, hj, rfl⟩
  · contradiction

def KeepsField (room : Nat) (f : String × Tree) (g : String × Json) : Prop :=
  f.1 = g.1 ∧ f.2.keep room = .ok g.2

theorem keepItems_eq_ok {ts : List Tree} {js : List Json} (h : keepItems room ts = .ok js) :
    List.Forall₂ (fun t j => t.keep room = .ok j) ts js := by
  induction ts generalizing js with
  | nil =>
      cases h
      exact .nil
  | cons t ts ih =>
      obtain ⟨j, js, rfl, hj, hjs⟩ := keepItems_cons h
      exact .cons hj (ih hjs)

theorem keepFields_eq_ok {fields : List (TextToken × Tree)} {fs : List (String × Json)}
    (h : keepFields room fields = .ok fs) :
    ∃ ts, fields = named ts ∧ List.Forall₂ (KeepsField room) ts fs := by
  induction fields generalizing fs with
  | nil =>
      cases h
      exact ⟨[], rfl, .nil⟩
  | cons field fields ih =>
      obtain ⟨k, t, j, fs, rfl, rfl, hj, hfs⟩ := keepFields_cons h
      obtain ⟨ts, rfl, hts⟩ := ih hfs
      exact ⟨(k, t) :: ts, rfl, .cons ⟨rfl, hj⟩ hts⟩

/-- The ways in which a value is kept of a tree. -/
inductive Kept (room : Nat) : Tree → Json → Prop where
  | scalar {t : Tree} {j : Json} (hj : IsScalar j) (h : Codec.scalar? t = .ok (some j)) :
      Kept room t j
  | list {ts : List Tree} {stop : Stop Tree} {js : List Json} (hroom : 1 < room)
      (hstop : stop.readFault? = none) (h : keepItems (room - 1) ts = .ok js) :
      Kept room (.list ts stop) (.list js)
  | object {fields : List (TextToken × Tree)} {stop : Stop Tree} {fs : List (String × Json)}
      (hroom : 1 < room) (hstop : stop.readFault? = none)
      (h : keepFields (room - 1) fields = .ok fs) : Kept room (.object fields stop) (.object fs)

theorem finish_map_eq_ok {α : Type} {fault : Option Fault} {a b : α}
    (h : ((Stop.finish fault).map fun _ => a) = .ok b) : fault = none ∧ a = b := by
  cases fault with
  | none => exact ⟨rfl, Except.ok.inj h⟩
  | some f => contradiction

theorem kept_of_keep {t : Tree} {j : Json} (h : t.keep room = .ok j) : Kept room t j := by
  cases t with
  | null =>
      cases h
      exact .scalar trivial rfl
  | bool b =>
      cases h
      exact .scalar trivial rfl
  | number n =>
      rw [keep] at h
      split at h
      · rename_i v hv
        cases h
        have hscalar : Codec.scalar? (.number n) = .ok (some (.number v)) := by
          simp only [Codec.scalar?, hv, Except.map]
        exact .scalar trivial hscalar
      · contradiction
  | text t =>
      cases t with
      | error f => contradiction
      | ok s =>
          cases h
          exact .scalar trivial rfl
  | list ts stop =>
      rw [keep] at h
      split at h
      · contradiction
      · split at h
        · rename_i hroom _ js hjs
          obtain ⟨hstop, rfl⟩ := finish_map_eq_ok h
          exact .list (by omega) hstop hjs
        · contradiction
  | object fields stop =>
      rw [keep] at h
      split at h
      · contradiction
      · split at h
        · rename_i hroom _ fs hfs
          obtain ⟨hstop, rfl⟩ := finish_map_eq_ok h
          exact .object (by omega) hstop hfs
        · contradiction
  | broken b begun => contradiction

theorem scalar?_of_keep {t : Tree} {j : Json} (hj : IsScalar j) (h : t.keep room = .ok j) :
    Codec.scalar? t = .ok (some j) := by
  cases kept_of_keep h with
  | scalar _ h => exact h
  | list => exact absurd hj id
  | object => exact absurd hj id

theorem eq_text_of_keep {t : Tree} {s : String} (h : t.keep room = .ok (.text s)) :
    t = .text (.ok s) := by
  have hscalar := scalar?_of_keep (j := .text s) trivial h
  cases t with
  | text t =>
      cases t with
      | error f => contradiction
      | ok s' =>
          cases hscalar
          rfl
  | number n =>
      rw [Codec.scalar?] at hscalar
      rcases hv : n.value with f | v
      · rw [hv] at hscalar
        cases hscalar
      · rw [hv] at hscalar
        cases hscalar
  | null => cases hscalar
  | bool b => cases hscalar
  | list ts stop => cases hscalar
  | object fields stop => cases hscalar
  | broken b begun => cases hscalar

end

/-! ## Skipping -/

theorem skipFault?_eq_none {α : Type} {stop : Stop α} (h : stop.readFault? = none) :
    stop.skipFault? = none := by
  cases stop with
  | closed => rfl
  | inside => rfl
  | cut comma b => contradiction
  | badKey key => contradiction

mutual
/-- **Whatever can be kept can be skipped.** -/
theorem skip_of_keep {room : Nat} {t : Tree} {j : Json} (h : t.keep room = .ok j) :
    t.skip = .ok () := by
  match t with
  | .null => rfl
  | .bool b => rfl
  | .number n => rfl
  | .text s => rfl
  | .list ts stop =>
      cases kept_of_keep h with
      | scalar _ hscalar => cases hscalar
      | list _ hstop hts =>
          rw [skip, skipItems_of_keep hts, skipFault?_eq_none hstop]
          rfl
  | .object fields stop =>
      cases kept_of_keep h with
      | scalar _ hscalar => cases hscalar
      | object _ hstop hfields =>
          rw [skip, skipFields_of_keep hfields, skipFault?_eq_none hstop]
          rfl
  | .broken b begun => contradiction

theorem skipItems_of_keep {room : Nat} {ts : List Tree} {js : List Json}
    (h : keepItems room ts = .ok js) : skipItems ts = .ok () := by
  match ts with
  | [] => rfl
  | t :: ts =>
      obtain ⟨j, js, -, hj, hjs⟩ := keepItems_cons h
      rw [skipItems, skip_of_keep hj]
      exact skipItems_of_keep hjs

theorem skipFields_of_keep {room : Nat} {fields : List (TextToken × Tree)}
    {fs : List (String × Json)} (h : keepFields room fields = .ok fs) :
    skipFields fields = .ok () := by
  match fields with
  | [] => rfl
  | (k, t) :: fields =>
      obtain ⟨k, t, j, fs, he, -, hj, hfs⟩ := keepFields_cons h
      obtain ⟨-, rfl⟩ := Prod.mk.inj he
      rw [skipFields, skip_of_keep hj]
      exact skipFields_of_keep hfs
end

theorem skip_of_keepsField {room : Nat} {ts : List (String × Tree)} {fs : List (String × Json)}
    (h : List.Forall₂ (KeepsField room) ts fs) : ∀ e ∈ ts, e.2.skip = .ok () := by
  induction h with
  | nil => exact List.forall_mem_nil _
  | cons hkeep _ ih => exact List.forall_mem_cons.mpr ⟨skip_of_keep hkeep.2, ih⟩

end Tree

end Almanac.Json
