import Mathlib
import Almanac.Proofs.Json.Grammar
import Almanac.Proofs.Json.Keeping
import Almanac.Proofs.Json.Records

/-!
# Rearranged values

Whoever writes the same records in another way may put their fields into another order, and
other fields among them.  A codec is flexible if both of its readers understand what it writes
after every such rearrangement, at any depth.  Every combinator keeps this law, and so does the
way through the text: `Codec.Flexible.decode_text`.
-/

namespace Almanac.Json

/-! ## Rearrangements -/

mutual
/-- A value whose objects have their fields in another order, and fields of other names beside
them. -/
inductive Rearranged : Json → Json → Prop where
  | scalar {j : Json} (hj : IsScalar j) : Rearranged j j
  | list {js js' : List Json} (h : RearrangedItems js js') : Rearranged (.list js) (.list js')
  | object {fs own others fs' : List (String × Json)} (h : RearrangedFields fs own)
      (hothers : ∀ e ∈ others, e.1 ∉ fs.map Prod.fst) (hperm : fs'.Perm (own ++ others)) :
      Rearranged (.object fs) (.object fs')
inductive RearrangedItems : List Json → List Json → Prop where
  | nil : RearrangedItems [] []
  | cons {j j' : Json} {js js' : List Json} (hj : Rearranged j j') (hjs : RearrangedItems js js') :
      RearrangedItems (j :: js) (j' :: js')
inductive RearrangedFields : List (String × Json) → List (String × Json) → Prop where
  | nil : RearrangedFields [] []
  | cons {k : String} {j j' : Json} {fs fs' : List (String × Json)} (hj : Rearranged j j')
      (hfs : RearrangedFields fs fs') : RearrangedFields ((k, j) :: fs) ((k, j') :: fs')
end

theorem Rearranged.eq_of_scalar {j j' : Json} (h : j.Rearranged j') (hj : IsScalar j) : j' = j := by
  cases h with
  | scalar => rfl
  | list => exact absurd hj id
  | object => exact absurd hj id

theorem RearrangedItems.forall₂ {js js' : List Json} (h : RearrangedItems js js') :
    List.Forall₂ Rearranged js js' := by
  match h with
  | .nil => exact .nil
  | .cons hj hjs => exact .cons hj hjs.forall₂

theorem RearrangedFields.forall₂ {fs fs' : List (String × Json)} (h : RearrangedFields fs fs') :
    List.Forall₂ (fun f g => f.1 = g.1 ∧ f.2.Rearranged g.2) fs fs' := by
  match h with
  | .nil => exact .nil
  | .cons hj hfs => exact .cons ⟨rfl, hj⟩ hfs.forall₂

theorem RearrangedFields.of_append {fs gs parts : List (String × Json)}
    (h : RearrangedFields (fs ++ gs) parts) :
    ∃ fs' gs', parts = fs' ++ gs' ∧ RearrangedFields fs fs' ∧ RearrangedFields gs gs' := by
  induction fs generalizing parts with
  | nil => exact ⟨[], parts, rfl, .nil, h⟩
  | cons f fs ih =>
      cases h with
      | cons hj hfs =>
          obtain ⟨fs', gs', rfl, hfs', hgs'⟩ := ih hfs
          exact ⟨_ :: fs', gs', rfl, .cons hj hfs', hgs'⟩

namespace Codec

variable {α : Type}

/-- The law of a codec that takes a rearranged value for what it was written for, whether it
reads it at once or has kept it. -/
structure Flexible (c : Codec α) : Prop where
  take : ∀ a j, (c.write a).Rearranged j → c.take j = .ok a
  read : ∀ a j t room, (c.write a).Rearranged j → t.keep room = .ok j → c.read room t = .ok a

/-! ## Scalars and lists -/

theorem flexible_scalar {wanted : String} {of : Json → Except Mismatch α} {write : α → Json}
    {depth : Nat} (h : (scalar wanted of write).Lawful depth) (hscalar : ∀ a, IsScalar (write a)) :
    (scalar wanted of write).Flexible where
  take := by
    intro a j hj
    rw [hj.eq_of_scalar (hscalar a)]
    exact h.take_write a
  read := by
    intro a j t room hj hkeep
    obtain rfl := hj.eq_of_scalar (hscalar a)
    have htree := Tree.scalar?_of_keep (hscalar a) hkeep
    have hof : of (write a) = .ok a := by
      have htake := h.take_write a
      have hkind := hscalar a
      simp only [scalar] at htake
      split at htake
      · contradiction
      · contradiction
      · exact htake
    simp only [scalar, htree, hof, liftMismatch]

theorem flexible_uint8 : uint8.Flexible := flexible_scalar lawful_uint8 fun _ => trivial

theorem flexible_uint32 : uint32.Flexible := flexible_scalar lawful_uint32 fun _ => trivial

theorem flexible_int32 : int32.Flexible := flexible_scalar lawful_int32 fun _ => trivial

theorem flexible_text : text.Flexible := flexible_scalar lawful_text fun _ => trivial

theorem flexible_spelled {wanted : String} {parse : String → Except String α} {show' : α → String}
    {depth : Nat} (h : (spelled wanted parse show').Lawful depth) :
    (spelled wanted parse show').Flexible := flexible_scalar h fun _ => trivial

theorem flexible_choice {variants : List (String × α)} {name : α → String} {depth : Nat}
    (h : (choice variants name).Lawful depth) : (choice variants name).Flexible where
  take := by
    intro a j hj
    rw [hj.eq_of_scalar trivial]
    exact h.take_write a
  read := by
    intro a j t room hj hkeep
    obtain rfl := hj.eq_of_scalar trivial
    rw [Tree.eq_text_of_keep hkeep]
    have htake := h.take_write a
    simp only [choice] at htake ⊢
    rw [htake]
    rfl

theorem each_of_forall₂ {β γ ε : Type} {f : γ → Except ε α} {g : α → β} {R : β → γ → Prop}
    (hf : ∀ a b, R (g a) b → f b = .ok a) {as : List α} {bs : List γ}
    (h : List.Forall₂ R (as.map g) bs) : each f bs = .ok as := by
  induction as generalizing bs with
  | nil =>
      cases h
      rfl
  | cons a as ih =>
      obtain ⟨b, bs, hb, hbs, rfl⟩ := List.forall₂_cons_left_iff.mp h
      simp only [each, hf a b hb, ih hbs]

/-- Two lists that go with a third one item by item go with each other. -/
theorem forall₂_through {β γ δ : Type} {R : β → γ → Prop} {S : δ → γ → Prop} {bs : List β}
    {cs : List γ} {ds : List δ} (h : List.Forall₂ R bs cs) (h' : List.Forall₂ S ds cs) :
    List.Forall₂ (fun b d => ∃ c, R b c ∧ S d c) bs ds := by
  induction h generalizing ds with
  | nil =>
      cases h'
      exact .nil
  | cons hbc _ ih =>
      obtain ⟨d, ds, hdc, hds, rfl⟩ := List.forall₂_cons_right_iff.mp h'
      exact .cons ⟨_, hbc, hdc⟩ (ih hds)

theorem Flexible.list {c : Codec α} (h : c.Flexible) : (list c).Flexible where
  take := by
    intro as j hj
    cases hj with
    | scalar hscalar => exact absurd hscalar id
    | list hitems => exact each_of_forall₂ h.take hitems.forall₂
  read := by
    intro as j t room hj hkeep
    cases hj with
    | scalar hscalar => exact absurd hscalar id
    | list hitems =>
        cases Tree.kept_of_keep hkeep with
        | scalar hscalar => exact absurd hscalar id
        | @list ts stop js hroom hstop hts =>
            have hread : each (c.read (room - 1)) ts = .ok as := by
              apply each_of_forall₂ _ (forall₂_through hitems.forall₂ (Tree.keepItems_eq_ok hts))
              rintro a t ⟨j, hj, hkeep⟩
              exact h.read a j t (room - 1) hj hkeep
            simp only [Codec.list, hread, hstop]
            rw [if_neg (by omega)]

end Codec

/-! ## Fields -/

namespace Fields

variable {αs : List Type} {fields : Fields αs}

def Flexible (fields : Fields αs) : Prop := fields.All fun c => c.Flexible

/-- Every field has one entry, with a rearrangement of what is written for its value. -/
def Rearranges (fields : Fields αs) (row : Row αs) (entries : List (String × Json)) : Prop :=
  fields.Offered (fun c v j => (c.write v).Rearranged j) row entries

theorem Rearranges.take (h : fields.Flexible) {row : Row αs} {entries : List (String × Json)}
    (hrow : fields.Rearranges row entries) :
    fields.Offered (fun c v j => c.take j = .ok v) row entries :=
  Offered.imp (fun _ v j hc hj => hc.take v j hj) h hrow

/-- What is offered by entries is offered by the trees that they are kept of. -/
theorem Offered.of_kept {P : {α : Type} → Codec α → α → Json → Prop} {room : Nat} {row : Row αs}
    {ts : List (String × Tree)} {entries : List (String × Json)}
    (hkeep : List.Forall₂ (Tree.KeepsField room) ts entries) (h : fields.Offered P row entries) :
    fields.Offered (fun c v t => ∃ j, t.keep room = .ok j ∧ P c v j) row ts := by
  induction fields with
  | nil => trivial
  | cons name c absence rest ih =>
      obtain ⟨v, row⟩ := row
      obtain ⟨⟨j, hfilter, hj⟩, hrest⟩ := h
      have hsame : List.Forall₂ (Tree.KeepsField room) (ts.filter fun e => e.1 = name)
          (entries.filter fun e => e.1 = name) := by
        refine List.rel_filter ?_ hkeep
        rintro ⟨k, t⟩ ⟨k', j⟩ ⟨rfl, -⟩
        rfl
      rw [hfilter] at hsame
      obtain ⟨⟨k, t⟩, more, ⟨hk, ht⟩, hmore, hts⟩ := List.forall₂_cons_right_iff.mp hsame
      obtain rfl : k = name := hk
      cases hmore
      exact ⟨⟨t, hts, j, ht, hj⟩, ih hrest⟩

theorem Rearranges.read (h : fields.Flexible) {room : Nat} {row : Row αs}
    {ts : List (String × Tree)} {entries : List (String × Json)}
    (hkeep : List.Forall₂ (Tree.KeepsField room) ts entries) (hrow : fields.Rearranges row entries) :
    fields.Offered (fun c v t => c.read room t = .ok v) row ts := by
  apply Offered.imp _ h (hrow.of_kept hkeep)
  rintro _ c v t hc ⟨j, ht, hj⟩
  exact hc.read v j t room hj ht

/-- The object of a record is rearranged into one that has an entry for each field. -/
theorem rearranges_of_object (hnames : fields.names.Nodup) {row : Row αs} {j : Json}
    (h : (Json.object (fields.write row)).Rearranged j) :
    ∃ entries, j = .object entries ∧ fields.Rearranges row entries := by
  cases h with
  | scalar hscalar => exact absurd hscalar id
  | object hown hothers hperm =>
      rw [names_write] at hothers
      exact ⟨_, rfl, offered_of_perm hnames hown.forall₂ hothers hperm⟩

theorem take_rearranged (name : String) (h : fields.Flexible) (hnames : fields.names.Nodup)
    {row : Row αs} {entries : List (String × Json)} (hrow : fields.Rearranges row entries) :
    fields.take name (.object entries) = .ok row := by
  have hmet := assign_offered .duplicateField (fun c j => c.take j) (hrow.take h) hnames
  simp only [take, takeObject_eq, hmet, fill_met]

theorem read_rearranged (name : String) (h : fields.Flexible) (hnames : fields.names.Nodup)
    {row : Row αs} {entries : List (String × Json)} (hrow : fields.Rearranges row entries)
    {room : Nat} {t : Tree} (hkeep : t.keep room = .ok (.object entries)) :
    fields.read name room t = .ok row := by
  cases Tree.kept_of_keep hkeep with
  | scalar hscalar => exact absurd hscalar id
  | @object _ stop _ hroom hstop hfields =>
      obtain ⟨ts, rfl, hts⟩ := Tree.keepFields_eq_ok hfields
      have hskip : ∀ e ∈ ts, e.1 ∈ fields.names ∨ e.2.skip = .ok () :=
        fun e he => .inr (Tree.skip_of_keepsField hts e he)
      have hmet := assign_offered (fun n => ReadError.mismatch (.duplicateField n))
        (fun c t => c.read (room - 1) t) (hrow.read h hts) hnames
      simp only [read, readObject_named _ fields hskip, hmet, hstop, fill_met, liftMismatch]
      rw [if_neg (by omega)]

end Fields

namespace Codec

variable {α : Type} {αs βs : List Type}

theorem flexible_record {name : String} {fields : Fields αs} {toRow : α → Row αs}
    {ofRow : Row αs → α} (h : fields.Flexible) (hnames : fields.names.Nodup)
    (hrow : ∀ a, ofRow (toRow a) = a) : (record name fields toRow ofRow).Flexible where
  take := by
    intro a j hj
    obtain ⟨entries, rfl, hentries⟩ := Fields.rearranges_of_object hnames hj
    simp only [record, Fields.take_rearranged _ h hnames hentries, Except.map, hrow]
  read := by
    intro a j t room hj hkeep
    obtain ⟨entries, rfl, hentries⟩ := Fields.rearranges_of_object hnames hj
    simp only [record, Fields.read_rearranged _ h hnames hentries hkeep, Except.map, hrow]

/-! ## Records spread into others -/

/-- Among the entries of a rearranged record each part of it finds its own. -/
theorem rearranges_of_spread {inner : Fields αs} {own : Fields βs}
    (hnames : (inner.names ++ own.names).Nodup) {row : Row αs} {ownRow : Row βs} {j : Json}
    (h : (Json.object (inner.write row ++ own.write ownRow)).Rearranged j) :
    ∃ entries, j = .object entries ∧ own.Rearranges ownRow entries ∧
      inner.Rearranges row (entries.filter fun e => e.1 ∉ own.names) := by
  obtain ⟨hinner, hown, hdisjoint⟩ := List.nodup_append.mp hnames
  cases h with
  | scalar hscalar => exact absurd hscalar id
  | @object _ parts others entries hparts hothers hperm =>
      obtain ⟨front, back, rfl, hfront, hback⟩ := hparts.of_append
      rw [List.map_append, Fields.names_write, Fields.names_write] at hothers
      have hinnerOthers : ∀ e ∈ others, e.1 ∉ inner.names :=
        fun e he hmem => hothers e he (List.mem_append_left _ hmem)
      have hownOthers : ∀ e ∈ others, e.1 ∉ own.names :=
        fun e he hmem => hothers e he (List.mem_append_right _ hmem)
      have hfrontOthers : ∀ e ∈ front, e.1 ∉ own.names := by
        intro e he hmem
        have hname := List.mem_map_of_mem (f := Prod.fst) he
        rw [Fields.names_of_forall₂ hfront.forall₂, Fields.names_write] at hname
        exact hdisjoint _ hname _ hmem rfl
      have hbackOwn : ∀ e ∈ back, e.1 ∈ own.names := by
        intro e he
        have hname := List.mem_map_of_mem (f := Prod.fst) he
        rwa [Fields.names_of_forall₂ hback.forall₂, Fields.names_write] at hname
      refine ⟨entries, rfl, ?_, ?_⟩
      · -- The fields of the inner record are others to the outer one.
        have hperm' : entries.Perm (back ++ (front ++ others)) := by
          rw [List.append_assoc] at hperm
          exact hperm.trans (List.perm_append_comm_assoc front back others)
        refine Fields.offered_of_perm hown hback.forall₂ ?_ hperm'
        intro e he
        rcases List.mem_append.mp he with he | he
        · exact hfrontOthers e he
        · exact hownOthers e he
      · have hkept : ((front ++ back) ++ others).filter (fun e => e.1 ∉ own.names)
            = front ++ others := by
          rw [List.filter_append, List.filter_append,
            List.filter_eq_self.mpr fun e he => decide_eq_true (hfrontOthers e he),
            List.filter_eq_nil_iff.mpr fun e he => by simpa using hbackOwn e he,
            List.filter_eq_self.mpr fun e he => decide_eq_true (hownOthers e he), List.append_nil]
        have hperm' := hperm.filter fun e => e.1 ∉ own.names
        rw [hkept] at hperm'
        exact Fields.offered_of_perm hinner hfront.forall₂ hinnerOthers hperm'

theorem readSpread_named {room : Nat} {own : Fields αs} {ts : List (String × Tree)}
    {entries : List (String × Json)} (h : List.Forall₂ (Tree.KeepsField room) ts entries)
    (slots : Slots αs) :
    readSpread room own (Tree.named ts) slots
      = (own.assign (fun n => .mismatch (.duplicateField n)) (fun c t => c.read room t) ts
          slots).map fun slots => (slots, entries.filter fun e => e.1 ∉ own.names) := by
  induction h generalizing slots with
  | nil => rfl
  | @cons f g ts entries hkeep _ ih =>
      obtain ⟨k, t⟩ := f
      obtain ⟨k', j⟩ := g
      obtain ⟨rfl, ht⟩ : k = k' ∧ t.keep room = .ok j := hkeep
      change readSpread room own ((.ok k, t) :: Tree.named ts) slots = _
      by_cases hk : k ∈ own.names
      · have hsome := Fields.slot_isSome (fun n => ReadError.mismatch (.duplicateField n))
          (fun c => c.read room t) hk slots
        obtain ⟨result, hslot⟩ := Option.isSome_iff_exists.mp hsome
        simp only [readSpread, Fields.readSlot, Fields.assign, hslot]
        rw [List.filter_cons, if_neg (by simpa using hk)]
        rcases result with e | slots'
        · rfl
        · exact ih slots'
      · have hslot := Fields.slot_eq_none (fun n => ReadError.mismatch (.duplicateField n))
          (fun c => c.read room t) hk slots
        simp only [readSpread, Fields.readSlot, Fields.assign, hslot, ht, ih]
        rw [List.filter_cons, if_pos (by simpa using hk)]
        generalize Fields.assign (fun n => ReadError.mismatch (.duplicateField n))
          (fun c t => c.read room t) own ts slots = result
        rcases result with e | slots' <;> rfl

theorem fillSpread_rearranged {inner : Fields αs} (h : inner.Flexible)
    (hnames : inner.names.Nodup) {row : Row αs} {kept : List (String × Json)}
    (hrow : inner.Rearranges row kept) (own : Fields βs) (ownRow : Row βs) :
    fillSpread inner own (Fields.met βs ownRow) kept = .ok (row, ownRow) := by
  have hmet := Fields.assign_offered .duplicateField (fun c j => c.take j) (hrow.take h) hnames
  simp only [fillSpread, Fields.fill_met, Fields.takeObject_eq, hmet, Except.map]

theorem flexible_spread {name : String} {inner : Fields αs} {own : Fields βs}
    {toRows : α → Row αs × Row βs} {ofRows : Row αs × Row βs → α} (hinner : inner.Flexible)
    (hown : own.Flexible) (hnames : (inner.names ++ own.names).Nodup)
    (hrows : ∀ a, ofRows (toRows a) = a) : (spread name inner own toRows ofRows).Flexible where
  take := by
    intro a j hj
    obtain ⟨entries, rfl, hentries, hkept⟩ := rearranges_of_spread hnames hj
    obtain ⟨hinnerNames, hownNames, -⟩ := List.nodup_append.mp hnames
    have hdivide := Fields.divide_offered .duplicateField (fun c j => c.take j)
      (hentries.take hown) hownNames
    have hfill := fillSpread_rearranged hinner hinnerNames hkept own (toRows a).2
    simp only [spread, takeSpread_eq, hdivide, hfill, Except.map, hrows]
  read := by
    intro a j t room hj hkeep
    obtain ⟨entries, rfl, hentries, hkept⟩ := rearranges_of_spread hnames hj
    obtain ⟨hinnerNames, hownNames, -⟩ := List.nodup_append.mp hnames
    cases Tree.kept_of_keep hkeep with
    | scalar hscalar => exact absurd hscalar id
    | @object _ stop _ hroom hstop hfields =>
        obtain ⟨ts, rfl, hts⟩ := Tree.keepFields_eq_ok hfields
        have hmet := Fields.assign_offered (fun n => ReadError.mismatch (.duplicateField n))
          (fun c t => c.read (room - 1) t) (hentries.read hown hts) hownNames
        have hfill := fillSpread_rearranged hinner hinnerNames hkept own (toRows a).2
        simp only [spread, readSpread_named hts, hmet, Except.map, hstop, hfill, liftMismatch,
          hrows]
        rw [if_neg (by omega)]

/-! ## Records with a name among their fields -/

section

variable {β : Type} {tag : String} {variants : List (String × β)}

theorem readTagged_named {room : Nat} {ts : List (String × Tree)} {entries : List (String × Json)}
    (h : List.Forall₂ (Tree.KeepsField room) ts entries) (htag : ∀ e ∈ entries, e.1 ≠ tag)
    (variant : Option β) :
    readTagged room tag variants (Tree.named ts) variant = .ok (variant, entries) := by
  induction h with
  | nil => rfl
  | @cons f g ts entries hkeep _ ih =>
      obtain ⟨k, t⟩ := f
      obtain ⟨k', j⟩ := g
      obtain ⟨rfl, ht⟩ : k = k' ∧ t.keep room = .ok j := hkeep
      obtain ⟨hk, htag⟩ := List.forall_mem_cons.mp htag
      change readTagged room tag variants ((.ok k, t) :: Tree.named ts) variant = _
      simp only [readTagged, if_neg hk, ht, ih htag]

theorem filter_of_only {γ : Type} {j j' : γ} {entries : List (String × γ)}
    (h : ((tag, j) :: entries).filter (fun e => e.1 = tag) = [(tag, j')]) :
    j = j' ∧ (∀ e ∈ entries, e.1 ≠ tag) ∧
      ((tag, j) :: entries).filter (fun e => e.1 ≠ tag) = entries := by
  rw [List.filter_cons, if_pos (by simp)] at h
  obtain ⟨he, hnone⟩ := List.cons.inj h
  have hothers : ∀ e ∈ entries, e.1 ≠ tag := by
    intro e he hsame
    exact List.filter_eq_nil_iff.mp hnone e he (decide_eq_true hsame)
  refine ⟨(Prod.mk.inj he).2, hothers, ?_⟩
  rw [List.filter_cons, if_neg (by simp)]
  exact List.filter_eq_self.mpr fun e he => decide_eq_true (hothers e he)

/-- **The name of a variant is found among the fields**, and the others are kept. -/
theorem readTagged_found {room : Nat} {ts : List (String × Tree)} {entries : List (String × Json)}
    (h : List.Forall₂ (Tree.KeepsField room) ts entries) {name : String} {b : β}
    (hname : ofName variants name = .ok b)
    (htag : entries.filter (fun e => e.1 = tag) = [(tag, .text name)]) :
    readTagged room tag variants (Tree.named ts) none
      = .ok (some b, entries.filter fun e => e.1 ≠ tag) := by
  induction h with
  | nil => cases htag
  | @cons f g ts entries hkeep hrest ih =>
      obtain ⟨k, t⟩ := f
      obtain ⟨k', j⟩ := g
      obtain ⟨rfl, ht⟩ : k = k' ∧ t.keep room = .ok j := hkeep
      change readTagged room tag variants ((.ok k, t) :: Tree.named ts) none = _
      by_cases hk : k = tag
      · subst hk
        obtain ⟨rfl, hothers, hself⟩ := filter_of_only htag
        rw [hself, Tree.eq_text_of_keep ht]
        simp only [readTagged, if_true, readTag, hname, liftMismatch,
          readTagged_named hrest hothers]
      · rw [List.filter_cons, if_neg (by simpa using hk)] at htag
        rw [List.filter_cons, if_pos (by simpa using hk)]
        simp only [readTagged, if_neg hk, ht, ih htag]

theorem takeTagged_found {entries : List (String × Json)} {name : String} {b : β}
    (hname : ofName variants name = .ok b)
    (htag : entries.filter (fun e => e.1 = tag) = [(tag, .text name)]) :
    takeTagged tag variants entries none = .ok (some b, entries.filter fun e => e.1 ≠ tag) := by
  induction entries with
  | nil => cases htag
  | cons entry entries ih =>
      obtain ⟨k, j⟩ := entry
      by_cases hk : k = tag
      · subst hk
        obtain ⟨rfl, hothers, hself⟩ := filter_of_only htag
        rw [hself]
        simp only [takeTagged, if_true, takeTag, hname, takeTagged_eq variants hothers]
      · rw [List.filter_cons, if_neg (by simpa using hk)] at htag
        rw [List.filter_cons, if_pos (by simpa using hk)]
        simp only [takeTagged, if_neg hk, ih htag]

end

/-- How a value of a choice is written: under a name whose reader takes its fields back, however
they are rearranged. -/
structure FlexiblyTagged (tag : String) (variants : List (String × (Json → Except Mismatch α)))
    (a : α) (written : String × List (String × Json)) : Prop where
  variant : ∃ take, ofName variants written.1 = .ok take ∧
    ∀ j, (Json.object written.2).Rearranged j → take j = .ok a
  tag : ∀ e ∈ written.2, e.1 ≠ tag

theorem flexiblyTagged_fields {tag variant name : String}
    {variants : List (String × (Json → Except Mismatch α))} {fields : Fields αs}
    (ofRow : Row αs → α) (row : Row αs) (h : fields.Flexible) (hnames : fields.names.Nodup)
    (htag : tag ∉ fields.names)
    (hvariant : ofName variants variant = .ok fun j => (fields.take name j).map ofRow) :
    FlexiblyTagged tag variants (ofRow row) (variant, fields.write row) where
  variant := by
    refine ⟨_, hvariant, ?_⟩
    intro j hj
    obtain ⟨entries, rfl, hentries⟩ := Fields.rearranges_of_object hnames hj
    simp only [Fields.take_rearranged name h hnames hentries, Except.map]
  tag := by
    rintro e he rfl
    exact htag (Fields.mem_names_of_mem_write he)

/-- Among the entries of a rearranged choice there is its name, once, and without it they are
those of the chosen record. -/
theorem rearranged_of_tagged {tag name : String} {fields : List (String × Json)} {j : Json}
    (htag : ∀ e ∈ fields, e.1 ≠ tag)
    (h : (Json.object ((tag, .text name) :: fields)).Rearranged j) :
    ∃ entries, j = .object entries ∧
      entries.filter (fun e => e.1 = tag) = [(tag, .text name)] ∧
      (Json.object fields).Rearranged (.object (entries.filter fun e => e.1 ≠ tag)) := by
  cases h with
  | scalar hscalar => exact absurd hscalar id
  | @object _ parts others entries hparts hothers hperm =>
      cases hparts with
      | @cons _ _ j' _ own hj' hown =>
          obtain rfl := hj'.eq_of_scalar trivial
          have hrest : ∀ e ∈ own ++ others, e.1 ≠ tag := by
            intro e he hsame
            rcases List.mem_append.mp he with he | he
            · have hname := List.mem_map_of_mem (f := Prod.fst) he
              rw [Fields.names_of_forall₂ hown.forall₂, hsame] at hname
              obtain ⟨e', he', hsame'⟩ := List.mem_map.mp hname
              exact htag e' he' hsame'
            · exact hothers e he (hsame ▸ List.mem_cons_self)
          have hnone : (own ++ others).filter (fun e => e.1 = tag) = [] :=
            List.filter_eq_nil_iff.mpr fun e he => by simpa using hrest e he
          have hself : (own ++ others).filter (fun e => e.1 ≠ tag) = own ++ others :=
            List.filter_eq_self.mpr fun e he => decide_eq_true (hrest e he)
          refine ⟨entries, rfl, ?_, ?_⟩
          · have hone := hperm.filter fun e => e.1 = tag
            rw [List.cons_append, List.filter_cons, if_pos (by simp), hnone] at hone
            exact List.perm_singleton.mp hone
          · have hleft := hperm.filter fun e => e.1 ≠ tag
            rw [List.cons_append, List.filter_cons, if_neg (by simp), hself] at hleft
            exact .object hown (fun e he hmem => hothers e he (List.mem_cons_of_mem _ hmem)) hleft

theorem flexible_tagged {wanted tag : String}
    {variants : List (String × (Json → Except Mismatch α))}
    {write : α → String × List (String × Json)}
    (h : ∀ a, FlexiblyTagged tag variants a (write a)) :
    (tagged wanted tag variants write).Flexible where
  take := by
    intro a j hj
    obtain ⟨⟨take, hname, htake⟩, htag⟩ := h a
    obtain ⟨entries, rfl, hone, hrest⟩ := rearranged_of_tagged htag hj
    simp only [tagged, takeTagged_found hname hone, htake _ hrest]
  read := by
    intro a j t room hj hkeep
    obtain ⟨⟨take, hname, htake⟩, htag⟩ := h a
    obtain ⟨entries, rfl, hone, hrest⟩ := rearranged_of_tagged htag hj
    cases Tree.kept_of_keep hkeep with
    | scalar hscalar => exact absurd hscalar id
    | @object _ stop _ hroom hstop hfields =>
        obtain ⟨ts, rfl, hts⟩ := Tree.keepFields_eq_ok hfields
        simp only [tagged, readTagged_found hts hname hone, hstop, htake _ hrest, liftMismatch]
        rw [if_neg (by omega)]

/-! ## Whole texts -/

/-- **A text of a rearranged value is decoded to what the value was written for**, whichever of
the value's texts it is, if it does not have too many levels. -/
theorem Flexible.decode_text {c : Codec α} (h : c.Flexible) {a : α} {j : Json} {text : List Char}
    (hj : (c.write a).Rearranged j) (htext : j.HasText text) (hdepth : j.depth < maxRoom) :
    c.decode text = .ok a := by
  obtain ⟨t, gap, hscan, hgap, hkeep⟩ := Tree.ofText_of_hasText htext
  have hread := h.read a j t maxRoom hj (hkeep maxRoom hdepth)
  have hrest : skipSpace gap = [] := by
    have hskip := skipSpace_space hgap []
    rwa [List.append_nil] at hskip
  simp only [decode, hscan, hread, Option.map_some, hrest]

end Codec

end Almanac.Json
