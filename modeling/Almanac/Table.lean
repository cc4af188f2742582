/-!
# Tables

Finite maps from names of any kind to values, as lists of pairs with distinct names.  A pair that
is put moves to the end, so the list is ordered by the time of the last `put`.
`get?` is the view: what every other operation does is said by an equation about it.
-/

namespace Almanac

/-- A finite map; the names of its pairs are distinct. -/
structure Table (κ α : Type) where
  entries : List (κ × α)
  nodup : (entries.map (·.1)).Nodup

namespace Table

variable {κ α : Type}

def empty : Table κ α := ⟨[], by simp⟩

def size (t : Table κ α) : Nat := t.entries.length

def filter (t : Table κ α) (keep : κ → α → Bool) : Table κ α where
  entries := t.entries.filter fun e => keep e.1 e.2
  nodup := List.Sublist.nodup (List.Sublist.map _ (List.filter_sublist)) t.nodup

variable [DecidableEq κ]

def get? (t : Table κ α) (name : κ) : Option α :=
  (t.entries.find? fun e => e.1 == name).map (·.2)

def erase (t : Table κ α) (name : κ) : Table κ α := t.filter fun n _ => n != name

def put (t : Table κ α) (name : κ) (a : α) : Table κ α where
  entries := (t.erase name).entries ++ [(name, a)]
  nodup := by
    have absent : name ∉ (t.erase name).entries.map (·.1) := by
      simp [erase, filter]
    rw [List.map_append, List.nodup_append]
    refine ⟨(t.erase name).nodup, by simp, ?_⟩
    intro n hn m hm
    simp only [List.map_cons, List.map_nil, List.mem_singleton] at hm
    subst hm
    exact fun h => absent (h ▸ hn)

/-! ## What the view says -/

@[simp] theorem get?_empty (name : κ) : (empty : Table κ α).get? name = none := rfl

theorem get?_eq_some_iff {t : Table κ α} {name : κ} {a : α} :
    t.get? name = some a ↔ (name, a) ∈ t.entries := by
  obtain ⟨es, hn⟩ := t
  simp only [get?]
  induction es with
  | nil => simp
  | cons e es ih =>
    simp only [List.map_cons, List.nodup_cons] at hn
    by_cases h : e.1 = name
    · subst h
      have : (e.1, a) ∉ es := fun m => hn.1 (List.mem_map.mpr ⟨_, m, rfl⟩)
      simp only [List.find?_cons, beq_self_eq_true, Option.map_some, List.mem_cons, this, or_false]
      constructor
      · intro h; cases h; rfl
      · intro h; rw [← h]
    · have hb : (e.1 == name) = false := by simpa using h
      have hne : (name, a) ≠ e := fun he => h (he ▸ rfl)
      simp only [List.find?_cons, hb, List.mem_cons, hne, false_or]
      exact ih hn.2

theorem get?_eq_none_iff {t : Table κ α} {name : κ} :
    t.get? name = none ↔ ∀ e ∈ t.entries, e.1 ≠ name := by
  simp [get?]

theorem get?_filter (t : Table κ α) (keep : κ → α → Bool) (name : κ) :
    (t.filter keep).get? name = (t.get? name).filter (keep name) := by
  apply Option.ext
  intro a
  rw [Option.filter_eq_some_iff, get?_eq_some_iff, get?_eq_some_iff]
  simp [filter, List.mem_filter]

theorem get?_erase (t : Table κ α) (name n : κ) :
    (t.erase name).get? n = if n = name then none else t.get? n := by
  rw [erase, get?_filter]
  by_cases h : n = name
  · cases t.get? n <;> simp [h, Option.filter]
  · cases t.get? n <;> simp [h, Option.filter]

theorem get?_put (t : Table κ α) (name n : κ) (a : α) :
    (t.put name a).get? n = if n = name then some a else t.get? n := by
  have split : (t.put name a).get? n
      = ((t.erase name).get? n).or (if name == n then some a else none) := by
    simp only [put, get?, List.find?_append]
    cases List.find? (fun e => e.1 == n) (t.erase name).entries with
    | some e => simp
    | none => by_cases h : name = n <;> simp [h]
  rw [split, get?_erase]
  by_cases h : n = name
  · simp [h]
  · have : name ≠ n := fun e => h e.symm
    simp [h, this]

end Table

end Almanac
