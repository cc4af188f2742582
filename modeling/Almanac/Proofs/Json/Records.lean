import Mathlib
import Almanac.Json.Record
import Almanac.Proofs.Json.Lawful

/-!
# Codecs of records are lawful

A record is lawful as soon as its fields are, and so are a record that is spread into
another one and a choice between records whose name stands among the fields.  The loops
that read or take fields differ in what they do with a single value; `Fields.assign` and
`Fields.divide` are the two loops with that as a parameter.
-/

namespace Almanac.Json

/-! ## Written fields -/

namespace Fields

def names {αs : List Type} : Fields αs → List String
  | .nil => []
  | .cons name _ _ rest => name :: rest.names

def All (P : {α : Type} → Codec α → Prop) {αs : List Type} : Fields αs → Prop
  | .nil => True
  | .cons _ c _ rest => P c ∧ rest.All P

def Lawful {αs : List Type} (depth : Nat) (fields : Fields αs) : Prop :=
  fields.All fun c => c.Lawful depth

def met : (αs : List Type) → Row αs → Slots αs
  | [], _ => ()
  | _ :: αs, (v, row) => (some v, met αs row)

variable {αs : List Type}

theorem All.imp {P Q : {α : Type} → Codec α → Prop} (himp : ∀ {α : Type} (c : Codec α), P c → Q c)
    {fields : Fields αs} (h : fields.All P) : fields.All Q := by
  induction fields with
  | nil => trivial
  | cons name c absence rest ih => exact ⟨himp c h.1, ih h.2⟩

theorem names_write (fields : Fields αs) (row : Row αs) :
    (fields.write row).map Prod.fst = fields.names := by
  induction fields with
  | nil => rfl
  | cons name c absence rest ih =>
      obtain ⟨v, row⟩ := row
      simp only [write, List.map_cons, names, ih row]

theorem mem_names_of_mem_write {fields : Fields αs} {row : Row αs} {e : String × Json}
    (h : e ∈ fields.write row) : e.1 ∈ fields.names := by
  rw [← names_write fields row]
  exact List.mem_map_of_mem h

theorem keep_of_mem_write {depth room : Nat} {fields : Fields αs} (h : fields.Lawful depth)
    (hroom : depth < room) {row : Row αs} :
    ∀ e ∈ fields.write row, (Tree.of e.2).keep room = .ok e.2 := by
  induction fields with
  | nil =>
      intro e he
      contradiction
  | cons name c absence rest ih =>
      obtain ⟨v, row⟩ := row
      intro e he
      rcases List.mem_cons.mp he with rfl | he
      · exact h.1.keep_write v room hroom
      · exact ih h.2 e he

theorem fill_met (fields : Fields αs) (row : Row αs) : fields.fill (met αs row) = .ok row := by
  induction fields with
  | nil => rfl
  | cons name c absence rest ih =>
      obtain ⟨v, row⟩ := row
      simp only [met, fill, ih row, Except.map]

/-! ## Slots -/

section

variable {ε : Type} (duplicate : String → ε)

theorem slot_isSome (use : {α : Type} → Codec α → Except ε α) {fields : Fields αs} {name : String}
    (h : name ∈ fields.names) (slots : Slots αs) :
    (fields.slot duplicate use name slots).isSome := by
  induction fields with
  | nil => contradiction
  | cons n c absence rest ih =>
      obtain ⟨v, slots⟩ := slots
      simp only [slot]
      split
      · rfl
      · rename_i hne
        rw [Option.isSome_map]
        exact ih ((List.mem_cons.mp h).resolve_left fun he => hne he.symm) slots

theorem slot_eq_none (use : {α : Type} → Codec α → Except ε α) {fields : Fields αs} {name : String}
    (h : name ∉ fields.names) (slots : Slots αs) :
    fields.slot duplicate use name slots = none := by
  induction fields with
  | nil => rfl
  | cons n c absence rest ih =>
      obtain ⟨v, slots⟩ := slots
      rw [names, List.mem_cons, not_or] at h
      simp only [slot, if_neg fun he => h.1 (Eq.symm he), ih h.2, Option.map_none]

/-! ## Assigning fields -/

variable {β : Type} (use : {α : Type} → Codec α → β → Except ε α)

/-- Puts entries into their slots; unknown ones are passed over. -/
def assign (fields : Fields αs) : List (String × β) → Slots αs → Except ε (Slots αs)
  | [], slots => .ok slots
  | (name, j) :: more, slots =>
    match fields.slot duplicate (fun c => use c j) name slots with
    | some (.ok slots) => assign fields more slots
    | some (.error e) => .error e
    | none => assign fields more slots

/-- Puts entries into their slots, and leaves the others. -/
def divide (fields : Fields αs) :
    List (String × β) → Slots αs → Except ε (Slots αs × List (String × β))
  | [], slots => .ok (slots, [])
  | (name, j) :: more, slots =>
    match fields.slot duplicate (fun c => use c j) name slots with
    | some (.ok slots) => divide fields more slots
    | some (.error e) => .error e
    | none => (divide fields more slots).map fun (slots, kept) => (slots, (name, j) :: kept)

theorem assign_cons {α : Type} {name : String} {c : Codec α} {absence : Absence α}
    {rest : Fields αs} {entries : List (String × β)} (h : name ∉ entries.map Prod.fst)
    (v : Option α) (slots : Slots αs) :
    assign duplicate use (.cons name c absence rest) entries (v, slots)
      = (assign duplicate use rest entries slots).map fun slots => (v, slots) := by
  induction entries generalizing slots with
  | nil => rfl
  | cons entry entries ih =>
      obtain ⟨k, j⟩ := entry
      rw [List.map_cons, List.mem_cons, not_or] at h
      simp only [assign, slot, if_neg h.1]
      rcases rest.slot duplicate (fun c => use c j) k slots with _ | (e | slots')
      · exact ih h.2 slots
      · rfl
      · exact ih h.2 slots'

theorem assign_map {γ : Type} (g : γ → β) (fields : Fields αs) (entries : List (String × γ))
    (slots : Slots αs) :
    assign duplicate use fields (entries.map fun e => (e.1, g e.2)) slots
      = assign duplicate (fun c j => use c (g j)) fields entries slots := by
  induction entries generalizing slots with
  | nil => rfl
  | cons entry entries ih =>
      simp only [List.map_cons, assign]
      split <;> simp_all

theorem assign_nil (entries : List (String × β)) :
    assign duplicate use .nil entries () = .ok () := by
  induction entries with
  | nil => rfl
  | cons entry entries ih => exact ih

/-- The one entry that names the first field fills its slot, wherever it stands. -/
theorem assign_middle {α : Type} {name : String} {c : Codec α} {absence : Absence α}
    {rest : Fields αs} {front back : List (String × β)} {b : β} {v : α} (hb : use c b = .ok v)
    (hfront : name ∉ front.map Prod.fst) (hback : name ∉ back.map Prod.fst) (slots : Slots αs) :
    assign duplicate use (.cons name c absence rest) (front ++ (name, b) :: back) (none, slots)
      = (assign duplicate use rest (front ++ back) slots).map fun slots => (some v, slots) := by
  induction front generalizing slots with
  | nil =>
      simp only [List.nil_append, assign, slot, if_true, hb, Except.map]
      exact assign_cons duplicate use hback (some v) slots
  | cons entry front ih =>
      obtain ⟨k, j⟩ := entry
      rw [List.map_cons, List.mem_cons, not_or] at hfront
      simp only [List.cons_append, assign, slot, if_neg hfront.1]
      rcases rest.slot duplicate (fun c => use c j) k slots with _ | (e | slots')
      · exact ih hfront.2 slots
      · rfl
      · exact ih hfront.2 slots'

/-- Every field has one entry of its name, and that one goes with the field's value. -/
def Offered (P : {α : Type} → Codec α → α → β → Prop) {αs : List Type} :
    Fields αs → Row αs → List (String × β) → Prop
  | .nil, _, _ => True
  | .cons name c _ rest, (v, row), entries =>
    (∃ b, entries.filter (fun e => e.1 = name) = [(name, b)] ∧ P c v b) ∧
      rest.Offered P row entries

theorem Offered.of_middle {P : {α : Type} → Codec α → α → β → Prop} {fields : Fields αs}
    {row : Row αs} {front back : List (String × β)} {entry : String × β}
    (h : fields.Offered P row (front ++ entry :: back)) (hentry : entry.1 ∉ fields.names) :
    fields.Offered P row (front ++ back) := by
  induction fields with
  | nil => trivial
  | cons name c absence rest ih =>
      obtain ⟨v, row⟩ := row
      obtain ⟨⟨b, hfilter, hb⟩, hrest⟩ := h
      rw [names, List.mem_cons, not_or] at hentry
      refine ⟨⟨b, ?_, hb⟩, ih hrest hentry.2⟩
      rw [← hfilter, List.filter_append, List.filter_append, List.filter_cons,
        if_neg (by simpa using hentry.1)]

/-- **Fields that are all offered are all met**, in whatever order their entries stand, and
whatever stands among them. -/
theorem assign_offered {fields : Fields αs} {row : Row αs} {entries : List (String × β)}
    (h : fields.Offered (fun c v b => use c b = .ok v) row entries) (hnames : fields.names.Nodup) :
    assign duplicate use fields entries (Slots.empty αs) = .ok (met αs row) := by
  induction fields generalizing entries with
  | nil => exact assign_nil duplicate use entries
  | cons name c absence rest ih =>
      obtain ⟨v, row⟩ := row
      obtain ⟨⟨b, hfilter, hb⟩, hrest⟩ := h
      obtain ⟨hname, hnames⟩ := List.nodup_cons.mp hnames
      obtain ⟨front, back, rfl, hfront, -, hback⟩ := List.filter_eq_cons_iff.mp hfilter
      have hfront' : name ∉ front.map Prod.fst := by
        intro hmem
        obtain ⟨e, he, rfl⟩ := List.mem_map.mp hmem
        exact hfront e he (by simp)
      have hback' : name ∉ back.map Prod.fst := by
        intro hmem
        obtain ⟨e, he, rfl⟩ := List.mem_map.mp hmem
        exact List.filter_eq_nil_iff.mp hback e he (by simp)
      rw [Slots.empty, assign_middle duplicate use hb hfront' hback',
        ih (hrest.of_middle hname) hnames]
      rfl

theorem names_of_forall₂ {γ : Type} {R : γ → β → Prop} {fs : List (String × γ)}
    {gs : List (String × β)} (h : List.Forall₂ (fun f g => f.1 = g.1 ∧ R f.2 g.2) fs gs) :
    gs.map Prod.fst = fs.map Prod.fst := by
  induction h with
  | nil => rfl
  | cons hfg _ ih => rw [List.map_cons, List.map_cons, ih, hfg.1]

/-- The fields that a record writes, in whatever form and order, are offered. -/
theorem offered_of_perm {R : Json → β → Prop} {fields : Fields αs} (hnames : fields.names.Nodup)
    {row : Row αs} {own others entries : List (String × β)}
    (hown : List.Forall₂ (fun f g => f.1 = g.1 ∧ R f.2 g.2) (fields.write row) own)
    (hothers : ∀ e ∈ others, e.1 ∉ fields.names) (hperm : entries.Perm (own ++ others)) :
    fields.Offered (fun c v b => R (c.write v) b) row entries := by
  induction fields generalizing own others with
  | nil => trivial
  | cons name c absence rest ih =>
      obtain ⟨v, row⟩ := row
      obtain ⟨hname, hnames⟩ := List.nodup_cons.mp hnames
      obtain ⟨⟨k, b⟩, own, ⟨hk, hb⟩, hrest, rfl⟩ := List.forall₂_cons_left_iff.mp hown
      obtain rfl : name = k := hk
      have hlast : ∀ e ∈ own ++ others, ¬e.1 = name := by
        intro e he hsame
        rcases List.mem_append.mp he with he | he
        · have hmem := List.mem_map_of_mem (f := Prod.fst) he
          rw [names_of_forall₂ hrest, names_write, hsame] at hmem
          exact hname hmem
        · exact hothers e he (hsame ▸ List.mem_cons_self)
      refine ⟨⟨b, ?_, hb⟩, ?_⟩
      · -- No other entry has the name of the first field.
        have hnone : (own ++ others).filter (fun e => e.1 = name) = [] :=
          List.filter_eq_nil_iff.mpr fun e he => by simpa using hlast e he
        have hfilter := hperm.filter fun e => e.1 = name
        rw [List.cons_append, List.filter_cons, if_pos (by simp), hnone] at hfilter
        exact List.perm_singleton.mp hfilter
      · have hothers' : ∀ e ∈ (name, b) :: others, e.1 ∉ rest.names := by
          intro e he
          rcases List.mem_cons.mp he with rfl | he
          · exact hname
          · exact fun hmem => hothers e he (List.mem_cons_of_mem _ hmem)
        exact ih hnames hrest hothers' (hperm.trans List.perm_middle.symm)

theorem Offered.imp {P Q : {α : Type} → Codec α → α → β → Prop} {R : {α : Type} → Codec α → Prop}
    (himp : ∀ {α : Type} (c : Codec α) v b, R c → P c v b → Q c v b) {fields : Fields αs}
    (hall : fields.All R) {row : Row αs} {entries : List (String × β)}
    (h : fields.Offered P row entries) : fields.Offered Q row entries := by
  induction fields with
  | nil => trivial
  | cons name c absence rest ih =>
      obtain ⟨v, row⟩ := row
      obtain ⟨⟨b, hfilter, hb⟩, hrest⟩ := h
      exact ⟨⟨b, hfilter, himp c v b hall.1 hb⟩, ih hall.2 hrest⟩

theorem offered_write (use : {α : Type} → Codec α → Json → Except ε α) {fields : Fields αs}
    (h : fields.All fun c => ∀ a, use c (c.write a) = .ok a) (hnames : fields.names.Nodup)
    (row : Row αs) {others entries : List (String × Json)}
    (hothers : ∀ e ∈ others, e.1 ∉ fields.names)
    (hperm : entries.Perm (fields.write row ++ others)) :
    fields.Offered (fun c v j => use c j = .ok v) row entries := by
  have hsame : List.Forall₂ (fun f g => f.1 = g.1 ∧ g.2 = f.2) (fields.write row)
      (fields.write row) := List.forall₂_same.mpr fun _ _ => ⟨rfl, rfl⟩
  have hoffered := offered_of_perm (R := fun written j => j = written) hnames hsame hothers hperm
  apply hoffered.imp _ h
  rintro _ c v _ hc rfl
  exact hc v

/-- **The fields of a written record are all met again**, each with its value. -/
theorem assign_write (use : {α : Type} → Codec α → Json → Except ε α) {fields : Fields αs}
    (h : fields.All fun c => ∀ a, use c (c.write a) = .ok a) (hnames : fields.names.Nodup)
    (row : Row αs) :
    assign duplicate use fields (fields.write row) (Slots.empty αs) = .ok (met αs row) := by
  refine assign_offered duplicate use ?_ hnames
  refine offered_write use h hnames row (List.forall_mem_nil _) ?_
  rw [List.append_nil]

/-- Dividing entries is assigning them, and keeping those without a slot. -/
theorem divide_eq (fields : Fields αs) (entries : List (String × β)) (slots : Slots αs) :
    divide duplicate use fields entries slots
      = (assign duplicate use fields entries slots).map fun slots =>
          (slots, entries.filter fun e => e.1 ∉ fields.names) := by
  induction entries generalizing slots with
  | nil => rfl
  | cons entry entries ih =>
      obtain ⟨k, j⟩ := entry
      by_cases hk : k ∈ fields.names
      · have hsome := slot_isSome duplicate (fun c => use c j) hk slots
        obtain ⟨result, hslot⟩ := Option.isSome_iff_exists.mp hsome
        simp only [divide, assign, hslot]
        rw [List.filter_cons, if_neg (by simpa using hk)]
        rcases result with e | slots'
        · rfl
        · exact ih slots'
      · have hslot := slot_eq_none duplicate (fun c => use c j) hk slots
        simp only [divide, assign, hslot, ih]
        rw [List.filter_cons, if_pos (by simpa using hk)]
        rcases assign duplicate use fields entries slots with e | slots' <;> rfl

theorem divide_offered {fields : Fields αs} {row : Row αs} {entries : List (String × β)}
    (h : fields.Offered (fun c v b => use c b = .ok v) row entries) (hnames : fields.names.Nodup) :
    divide duplicate use fields entries (Slots.empty αs)
      = .ok (met αs row, entries.filter fun e => e.1 ∉ fields.names) := by
  rw [divide_eq, assign_offered duplicate use h hnames]
  rfl

end

/-! ## Reading and taking -/

mutual
theorem skip_of (j : Json) : (Tree.of j).skip = .ok () := by
  match j with
  | .null => rfl
  | .bool b => rfl
  | .number n => rfl
  | .text s => rfl
  | .list items => simp only [Tree.of, Tree.skip, skipItems_of items, Stop.skipFault?, Stop.finish]
  | .object fields =>
      simp only [Tree.of, Tree.skip, skipFields_of fields, Stop.skipFault?, Stop.finish]
theorem skipItems_of (js : List Json) : Tree.skipItems (Tree.ofItems js) = .ok () := by
  match js with
  | [] => rfl
  | j :: js => simp only [Tree.ofItems, Tree.skipItems, skip_of j, skipItems_of js]
theorem skipFields_of (fs : List (String × Json)) :
    Tree.skipFields (Tree.ofFields fs) = .ok () := by
  match fs with
  | [] => rfl
  | (k, j) :: fs => simp only [Tree.ofFields, Tree.skipFields, skip_of j, skipFields_of fs]
end

/-- An object is read by putting its fields into their slots, if nothing is wrong with the
others. -/
theorem readObject_named (room : Nat) (fields : Fields αs) {entries : List (String × Tree)}
    (h : ∀ e ∈ entries, e.1 ∈ fields.names ∨ e.2.skip = .ok ()) (slots : Slots αs) :
    fields.readObject room (Tree.named entries) slots
      = assign (fun n => .mismatch (.duplicateField n)) (fun c t => c.read room t) fields
          entries slots := by
  induction entries generalizing slots with
  | nil => rfl
  | cons entry entries ih =>
      obtain ⟨k, t⟩ := entry
      obtain ⟨hk, h⟩ := List.forall_mem_cons.mp h
      change fields.readObject room ((.ok k, t) :: Tree.named entries) slots = _
      simp only [readObject, readSlot, assign, ih h]
      split
      · simp_all
      · simp_all
      · -- Only an unknown field has no slot.
        rename_i hslot
        have hskip : t.skip = .ok () := by
          refine hk.resolve_left fun hmem => ?_
          have hsome := slot_isSome (fun n => ReadError.mismatch (.duplicateField n))
            (fun c => c.read room t) hmem slots
          rw [hslot] at hsome
          contradiction
        simp_all

theorem ofFields_eq_named (entries : List (String × Json)) :
    Tree.ofFields entries = Tree.named (entries.map fun e => (e.1, Tree.of e.2)) := by
  induction entries with
  | nil => rfl
  | cons entry entries ih =>
      rw [Tree.ofFields, ih]
      rfl

theorem readObject_ofFields (room : Nat) (fields : Fields αs) (entries : List (String × Json))
    (slots : Slots αs) :
    fields.readObject room (Tree.ofFields entries) slots
      = assign (fun n => .mismatch (.duplicateField n)) (fun c j => c.read room (Tree.of j)) fields
          entries slots := by
  have hskip : ∀ e ∈ entries.map fun e => (e.1, Tree.of e.2),
      e.1 ∈ fields.names ∨ e.2.skip = .ok () := by
    intro e he
    obtain ⟨entry, -, rfl⟩ := List.mem_map.mp he
    exact .inr (skip_of entry.2)
  rw [ofFields_eq_named, readObject_named room fields hskip, assign_map]

theorem takeObject_eq (fields : Fields αs) (entries : List (String × Json)) (slots : Slots αs) :
    fields.takeObject entries slots
      = assign .duplicateField (fun c j => c.take j) fields entries slots := by
  induction entries generalizing slots with
  | nil => rfl
  | cons entry entries ih =>
      obtain ⟨k, j⟩ := entry
      simp only [takeObject, takeSlot, assign]
      split <;> simp_all

section

variable {depth room : Nat} {fields : Fields αs}

theorem Lawful.read_all (h : fields.Lawful depth) (hroom : depth < room) :
    fields.All fun c => ∀ a, c.read room (Tree.of (c.write a)) = .ok a :=
  All.imp (fun _ hc a => hc.read_write a room hroom) h

theorem Lawful.take_all (h : fields.Lawful depth) :
    fields.All fun c => ∀ a, c.take (c.write a) = .ok a :=
  All.imp (fun _ hc => hc.take_write) h

theorem read_write (name : String) (h : fields.Lawful depth) (hnames : fields.names.Nodup)
    (hroom : depth + 1 < room) (row : Row αs) :
    fields.read name room (Tree.of (.object (fields.write row))) = .ok row := by
  have hless : depth < room - 1 := by omega
  have hmet := assign_write (fun n => ReadError.mismatch (.duplicateField n))
    (fun c j => c.read (room - 1) (Tree.of j)) (h.read_all hless) hnames row
  simp only [Tree.of, read, readObject_ofFields, hmet, Stop.readFault?, fill_met, liftMismatch]
  rw [if_neg (by omega)]

theorem take_write (name : String) (h : fields.Lawful depth) (hnames : fields.names.Nodup)
    (row : Row αs) : fields.take name (.object (fields.write row)) = .ok row := by
  have hmet := assign_write Mismatch.duplicateField (fun c j => c.take j) h.take_all hnames row
  simp only [take, takeObject_eq, hmet, fill_met]

end

end Fields

namespace Codec

variable {α : Type} {αs βs : List Type} {depth : Nat}

theorem keepFields_ofFields {room : Nat} {entries : List (String × Json)}
    (h : ∀ e ∈ entries, (Tree.of e.2).keep room = .ok e.2) :
    Tree.keepFields room (Tree.ofFields entries) = .ok entries := by
  induction entries with
  | nil => rfl
  | cons entry entries ih =>
      obtain ⟨k, j⟩ := entry
      obtain ⟨hj, h⟩ := List.forall_mem_cons.mp h
      simp only [Tree.ofFields, Tree.keepFields, hj, ih h, Except.map]

theorem keep_object {room : Nat} {entries : List (String × Json)} (hroom : 1 < room)
    (h : ∀ e ∈ entries, (Tree.of e.2).keep (room - 1) = .ok e.2) :
    (Tree.of (.object entries)).keep room = .ok (.object entries) := by
  simp only [Tree.of, Tree.keep, keepFields_ofFields h]
  rw [if_neg (by omega)]
  rfl

theorem lawful_record {name : String} {fields : Fields αs} {toRow : α → Row αs}
    {ofRow : Row αs → α} (h : fields.Lawful depth) (hnames : fields.names.Nodup)
    (hrow : ∀ a, ofRow (toRow a) = a) : (record name fields toRow ofRow).Lawful (depth + 1) where
  read_write := by
    intro a room hroom
    simp only [record, Fields.read_write _ h hnames hroom (toRow a), Except.map, hrow]
  keep_write := by
    intro a room hroom
    apply keep_object (by omega)
    exact Fields.keep_of_mem_write h (by omega)
  take_write := by
    intro a
    simp only [record, Fields.take_write _ h hnames (toRow a), Except.map, hrow]

/-! ## Records spread into others -/

theorem readSpread_ofFields {room : Nat} {own : Fields αs} {entries : List (String × Json)}
    (h : ∀ e ∈ entries, (Tree.of e.2).keep room = .ok e.2) (slots : Slots αs) :
    readSpread room own (Tree.ofFields entries) slots
      = own.divide (fun n => .mismatch (.duplicateField n)) (fun c j => c.read room (Tree.of j))
          entries slots := by
  induction entries generalizing slots with
  | nil => rfl
  | cons entry entries ih =>
      obtain ⟨k, j⟩ := entry
      obtain ⟨hj, h⟩ := List.forall_mem_cons.mp h
      simp only [Tree.ofFields, readSpread, Fields.readSlot, Fields.divide, hj, ih h]
      split
      · simp_all
      · simp_all
      · split <;> simp_all [Except.map]

theorem takeSpread_eq (own : Fields αs) (entries : List (String × Json)) (slots : Slots αs) :
    takeSpread own entries slots
      = own.divide .duplicateField (fun c j => c.take j) entries slots := by
  induction entries generalizing slots with
  | nil => rfl
  | cons entry entries ih =>
      obtain ⟨k, j⟩ := entry
      simp only [takeSpread, Fields.takeSlot, Fields.divide, ih]
      split
      · simp_all
      · simp_all
      · split <;> simp_all [Except.map]

/-- The record's own fields are told from those of the record in front of them. -/
theorem divide_write {ε : Type} (duplicate : String → ε)
    (use : {α : Type} → Codec α → Json → Except ε α) {inner : Fields αs} {own : Fields βs}
    (h : own.All fun c => ∀ a, use c (c.write a) = .ok a)
    (hnames : (inner.names ++ own.names).Nodup) (row : Row αs) (ownRow : Row βs) :
    own.divide duplicate use (inner.write row ++ own.write ownRow) (Slots.empty βs)
      = .ok (Fields.met βs ownRow, inner.write row) := by
  obtain ⟨-, hown, hdisjoint⟩ := List.nodup_append.mp hnames
  have hother : ∀ e ∈ inner.write row, e.1 ∉ own.names := by
    intro e he hmem
    exact hdisjoint _ (Fields.mem_names_of_mem_write he) _ hmem rfl
  have hoffered := Fields.offered_write use h hown ownRow hother List.perm_append_comm
  have hkept : (inner.write row ++ own.write ownRow).filter (fun e => e.1 ∉ own.names)
      = inner.write row := by
    have hself : (inner.write row).filter (fun e => e.1 ∉ own.names) = inner.write row :=
      List.filter_eq_self.mpr fun e he => decide_eq_true (hother e he)
    have hnone : (own.write ownRow).filter (fun e => e.1 ∉ own.names) = [] :=
      List.filter_eq_nil_iff.mpr fun e he => by
        simpa using Fields.mem_names_of_mem_write he
    rw [List.filter_append, hself, hnone, List.append_nil]
  have hmet := Fields.divide_offered duplicate use hoffered hown
  rwa [hkept] at hmet

theorem lawful_spread {name : String} {inner : Fields αs} {own : Fields βs}
    {toRows : α → Row αs × Row βs} {ofRows : Row αs × Row βs → α} (hinner : inner.Lawful depth)
    (hown : own.Lawful depth) (hnames : (inner.names ++ own.names).Nodup)
    (hrows : ∀ a, ofRows (toRows a) = a) :
    (spread name inner own toRows ofRows).Lawful (depth + 1) := by
  have hkeep : ∀ a room, depth < room →
      ∀ e ∈ inner.write (toRows a).1 ++ own.write (toRows a).2,
        (Tree.of e.2).keep room = .ok e.2 := by
    intro a room hroom e he
    rcases List.mem_append.mp he with he | he
    · exact Fields.keep_of_mem_write hinner hroom e he
    · exact Fields.keep_of_mem_write hown hroom e he
  -- Whichever way the two parts were told apart, they are filled in the same way.
  have hfill : ∀ a, fillSpread inner own (Fields.met βs (toRows a).2) (inner.write (toRows a).1)
      = .ok (toRows a) := by
    intro a
    have hmet := Fields.assign_write Mismatch.duplicateField (fun c j => c.take j) hinner.take_all
      (List.nodup_append.mp hnames).1 (toRows a).1
    simp only [fillSpread, Fields.fill_met, Fields.takeObject_eq, hmet, Except.map]
  refine ⟨?_, ?_, ?_⟩
  · intro a room hroom
    have hless : depth < room - 1 := by omega
    have hdivide := divide_write (fun n => ReadError.mismatch (.duplicateField n))
      (fun c j => c.read (room - 1) (Tree.of j)) (hown.read_all hless) hnames (toRows a).1
      (toRows a).2
    simp only [spread, Tree.of, readSpread_ofFields (hkeep a _ hless), hdivide, Stop.readFault?,
      hfill, liftMismatch, Except.map, hrows]
    rw [if_neg (by omega)]
  · intro a room hroom
    exact keep_object (by omega) (hkeep a _ (by omega))
  · intro a
    have hdivide := divide_write Mismatch.duplicateField (fun c j => c.take j) hown.take_all
      hnames (toRows a).1 (toRows a).2
    simp only [spread, takeSpread_eq, hdivide, hfill, Except.map, hrows]

/-! ## Records with a name among their fields -/

theorem readTagged_ofFields {β : Type} {room : Nat} {tag : String}
    (variants : List (String × β)) {entries : List (String × Json)}
    (htag : ∀ e ∈ entries, e.1 ≠ tag) (hkeep : ∀ e ∈ entries, (Tree.of e.2).keep room = .ok e.2)
    (variant : Option β) :
    readTagged room tag variants (Tree.ofFields entries) variant = .ok (variant, entries) := by
  induction entries with
  | nil => rfl
  | cons entry entries ih =>
      obtain ⟨k, j⟩ := entry
      obtain ⟨hk, htag⟩ := List.forall_mem_cons.mp htag
      obtain ⟨hj, hkeep⟩ := List.forall_mem_cons.mp hkeep
      simp only [Tree.ofFields, readTagged, if_neg hk, hj, ih htag hkeep]

theorem takeTagged_eq {β : Type} {tag : String} (variants : List (String × β))
    {entries : List (String × Json)} (htag : ∀ e ∈ entries, e.1 ≠ tag) (variant : Option β) :
    takeTagged tag variants entries variant = .ok (variant, entries) := by
  induction entries with
  | nil => rfl
  | cons entry entries ih =>
      obtain ⟨k, j⟩ := entry
      obtain ⟨hk, htag⟩ := List.forall_mem_cons.mp htag
      simp only [takeTagged, if_neg hk, ih htag]

/-- How a value of a choice is written: under a name whose reader takes its fields back. -/
structure Tagged (tag : String) (variants : List (String × (Json → Except Mismatch α)))
    (depth : Nat) (a : α) (written : String × List (String × Json)) : Prop where
  variant : ∃ take, ofName variants written.1 = .ok take ∧ take (.object written.2) = .ok a
  tag : ∀ e ∈ written.2, e.1 ≠ tag
  keep : ∀ room, depth < room → ∀ e ∈ written.2, (Tree.of e.2).keep room = .ok e.2

theorem tagged_fields {tag variant name : String}
    {variants : List (String × (Json → Except Mismatch α))} {fields : Fields αs}
    (ofRow : Row αs → α) (row : Row αs) (h : fields.Lawful depth) (hnames : fields.names.Nodup)
    (htag : tag ∉ fields.names)
    (hvariant : ofName variants variant = .ok fun j => (fields.take name j).map ofRow) :
    Tagged tag variants depth (ofRow row) (variant, fields.write row) where
  variant := by
    refine ⟨_, hvariant, ?_⟩
    simp only [Fields.take_write name h hnames row, Except.map]
  tag := by
    rintro e he rfl
    exact htag (Fields.mem_names_of_mem_write he)
  keep := by
    intro room hroom
    exact Fields.keep_of_mem_write h hroom

theorem lawful_tagged {wanted tag : String}
    {variants : List (String × (Json → Except Mismatch α))}
    {write : α → String × List (String × Json)}
    (h : ∀ a, Tagged tag variants depth a (write a)) :
    (tagged wanted tag variants write).Lawful (depth + 1) where
  read_write := by
    intro a room hroom
    obtain ⟨⟨take, hname, htake⟩, htag, hkeep⟩ := h a
    have hrest := readTagged_ofFields variants htag (hkeep (room - 1) (by omega)) (some take)
    simp only [tagged, Tree.of, Tree.ofFields, readTagged, readTag, hname, liftMismatch, if_true,
      hrest, Stop.readFault?, htake]
    rw [if_neg (by omega)]
  keep_write := by
    intro a room hroom
    apply keep_object (by omega)
    rintro e he
    rcases List.mem_cons.mp he with rfl | he
    · rfl
    · exact (h a).keep (room - 1) (by omega) e he
  take_write := by
    intro a
    obtain ⟨⟨take, hname, htake⟩, htag, -⟩ := h a
    have hrest := takeTagged_eq variants htag (some take)
    simp only [tagged, takeTagged, takeTag, hname, if_true, hrest, htake]

end Codec

end Almanac.Json
