import Mathlib
import Almanac.Proofs.Json.Keeping
import Almanac.Proofs.Json.Records
import Almanac.Proofs.Json.Torn

/-!
# Codecs that notice a missing end

A codec is guarded if it takes no torn tree of what it writes for a value, but reports that
the text ended too early.  The number that is left of a number is an exception: it may well
be read, and it is the list or the object around it that misses its end.  Every combinator
that a chart is made of keeps this law, and a guarded codec decodes no beginning of a text
that it writes: `Codec.Guarded.decode_cut`.
-/

namespace Almanac.Json

def EndsEarly {α : Type} (result : Except ReadError α) : Prop :=
  ∃ f, result = .error (.fault f) ∧ f.isEnd = true

theorem EndsEarly.map {α β : Type} {result : Except ReadError α} (h : EndsEarly result)
    (g : α → β) : EndsEarly (result.map g) := by
  obtain ⟨f, rfl, hf⟩ := h
  exact ⟨f, rfl, hf⟩

/-- A list or an object that breaks off: either one of its parts reports it, or all of them are
read and its end reports it. -/
def PartsEndEarly {α : Type} (result : Except ReadError α) (stop : Stop Tree) : Prop :=
  EndsEarly result ∨ ∃ a f, result = .ok a ∧ stop.readFault? = some f ∧ f.isEnd = true

namespace Codec

variable {α : Type}

/-- The law of a codec that never takes a torn tree for one of a whole text. -/
structure Guarded (c : Codec α) (depth : Nat) : Prop extends c.Lawful depth where
  torn : ∀ a t room, depth < room → Torn (c.write a) t → EndsEarly (c.read room t)
  /-- A number with fewer digits is a value, too. -/
  short : ∀ a v n room, c.write a = .number v → (Numeral.of v).Shortened n →
    ∃ a', c.read room (.number n) = .ok a'

theorem Guarded.mono {c : Codec α} {depth deeper : Nat} (h : c.Guarded depth)
    (hle : depth ≤ deeper) : c.Guarded deeper where
  toLawful := h.toLawful.mono hle
  torn a t room hroom := h.torn a t room (Nat.lt_of_le_of_lt hle hroom)
  short := h.short

/-! ## Scalars -/

theorem torn_scalar {j : Json} {t : Tree} (h : Torn j t) (hj : IsScalar j) :
    ∃ b begun, t = .broken b begun ∧ b.read.isEnd = true := by
  cases h with
  | broken hend => exact ⟨_, _, rfl, hend⟩
  | list => exact absurd hj id
  | object => exact absurd hj id

theorem guarded_scalar {wanted : String} {of : Json → Except Mismatch α} {write : α → Json}
    (hlawful : (scalar wanted of write).Lawful 0) (hscalar : ∀ a, IsScalar (write a))
    (hshort : ∀ a v n, write a = .number v → (Numeral.of v).Shortened n →
      ∃ v' a', n.value = .ok v' ∧ of (.number v') = .ok a') :
    (scalar wanted of write).Guarded 0 where
  toLawful := hlawful
  torn := by
    intro a t room _ htorn
    obtain ⟨b, begun, rfl, hend⟩ := torn_scalar htorn (hscalar a)
    exact ⟨b.read, rfl, hend⟩
  short := by
    intro a v n room hwrite hn
    obtain ⟨v', a', hvalue, hof⟩ := hshort a v n hwrite hn
    refine ⟨a', ?_⟩
    simp only [scalar, scalar?, hvalue, Except.map, hof, liftMismatch]

/-- Digits that are left of an integer in a range around zero are in this range. -/
theorem guarded_integer {name : String} {lo hi : Int} {ofInt : Int → α} {toInt : α → Int}
    (hlawful : (integer name lo hi ofInt toInt).Lawful 0) (hlo : Int64.minValue.toInt ≤ lo)
    (hhi : hi < UInt64.size) (hzero : lo ≤ 0 ∧ 0 ≤ hi) :
    (integer name lo hi ofInt toInt).Guarded 0 := by
  refine guarded_scalar hlawful (fun _ => trivial) ?_
  intro a v n hwrite hn
  have hrange : lo ≤ toInt a ∧ toInt a ≤ hi := by
    have htake := hlawful.take_write a
    by_contra hout
    simp only [integer, scalar, if_neg hout] at htake
    contradiction
  obtain rfl : Number.int (toInt a) = v := Json.number.inj hwrite
  have hexact : (Number.int (toInt a)).IsExact := ⟨by omega, by omega⟩
  obtain ⟨i, hvalue, hbetween⟩ := hn.value_ofInt hexact
  refine ⟨.int i, ofInt i, hvalue, ?_⟩
  have hi : lo ≤ i ∧ i ≤ hi := by omega
  simp only [if_pos hi]

theorem guarded_uint8 : uint8.Guarded 0 :=
  guarded_integer lawful_uint8 (by decide) (by decide) (by decide)

theorem guarded_uint32 : uint32.Guarded 0 :=
  guarded_integer lawful_uint32 (by decide) (by decide) (by decide)

theorem guarded_int32 : int32.Guarded 0 :=
  guarded_integer lawful_int32 (by decide) (by decide) (by decide)

theorem guarded_text : text.Guarded 0 :=
  guarded_scalar lawful_text (fun _ => trivial) (fun _ _ _ hwrite => by cases hwrite)

theorem guarded_spelled {wanted : String} {parse : String → Except String α} {show' : α → String}
    (h : (spelled wanted parse show').Lawful 0) : (spelled wanted parse show').Guarded 0 :=
  guarded_scalar h (fun _ => trivial) (fun _ _ _ hwrite => by cases hwrite)

/-! ## Lists -/

theorem each_torn {c : Codec α} {depth room : Nat} (h : c.Guarded depth) (hroom : depth < room)
    {as : List α} {ts : List Tree} {stop : Stop Tree} (htorn : TornItems (as.map c.write) ts stop) :
    PartsEndEarly (each (c.read room) ts) stop := by
  induction as generalizing ts with
  | nil =>
      cases htorn with
      | cut hend => exact .inr ⟨[], _, rfl, rfl, hend⟩
  | cons a as ih =>
      rw [List.map_cons] at htorn
      generalize hwrite : c.write a = j at htorn
      cases htorn with
      | cut hend => exact .inr ⟨[], _, rfl, rfl, hend⟩
      | inside hinside =>
          subst hwrite
          obtain ⟨f, hread, hf⟩ := h.torn a _ room hroom hinside
          refine .inl ⟨f, ?_, hf⟩
          simp only [each, hread]
      | short hn hend =>
          obtain ⟨a', hread⟩ := h.short a _ _ room hwrite hn
          refine .inr ⟨[a'], _, ?_, rfl, hend⟩
          simp only [each, hread]
      | whole hitems =>
          subst hwrite
          have hread := h.read_write a room hroom
          rcases ih hitems with ⟨f, heach, hf⟩ | ⟨as', f, heach, hstop, hf⟩
          · refine .inl ⟨f, ?_, hf⟩
            simp only [each, hread, heach]
          · refine .inr ⟨a :: as', f, ?_, hstop, hf⟩
            simp only [each, hread, heach]

theorem Guarded.list {c : Codec α} {depth : Nat} (h : c.Guarded depth) :
    (list c).Guarded (depth + 1) where
  toLawful := h.toLawful.list
  torn := by
    intro as t room hroom htorn
    simp only [Codec.list] at htorn
    cases htorn with
    | broken hend => exact ⟨_, rfl, hend⟩
    | list hitems =>
        have hless : depth < room - 1 := by omega
        simp only [Codec.list]
        rw [if_neg (by omega)]
        rcases each_torn h hless hitems with ⟨f, heach, hf⟩ | ⟨as', f, heach, hstop, hf⟩
        · refine ⟨f, ?_, hf⟩
          simp only [heach]
        · refine ⟨f, ?_, hf⟩
          simp only [heach, hstop]
  short := by
    intro as v n room hwrite
    cases hwrite

end Codec

/-! ## Records -/

namespace Fields

variable {αs : List Type} {depth room : Nat}

def Guarded (depth : Nat) (fields : Fields αs) : Prop := fields.All fun c => c.Guarded depth

theorem Guarded.lawful {fields : Fields αs} (h : fields.Guarded depth) : fields.Lawful depth :=
  All.imp (fun _ hc => hc.toLawful) h

theorem assign_torn {fields : Fields αs} (h : fields.Guarded depth) (hnames : fields.names.Nodup)
    (hroom : depth < room) {row : Row αs} {ts : List (String × Tree)} {stop : Stop Tree}
    (htorn : TornFields (fields.write row) ts stop) :
    PartsEndEarly (assign (fun n => .mismatch (.duplicateField n)) (fun c t => c.read room t) fields
      ts (Slots.empty αs)) stop := by
  induction fields generalizing ts with
  | nil =>
      cases htorn with
      | cut hend => exact .inr ⟨(), _, rfl, rfl, hend⟩
  | cons name c absence rest ih =>
      obtain ⟨v, row⟩ := row
      obtain ⟨hname, hnames⟩ := List.nodup_cons.mp hnames
      change TornFields ((name, c.write v) :: rest.write row) ts stop at htorn
      generalize hwrite : c.write v = j at htorn
      cases htorn with
      | cut hend => exact .inr ⟨_, _, rfl, rfl, hend⟩
      | inside hinside =>
          subst hwrite
          obtain ⟨f, hread, hf⟩ := h.1.torn v _ room hroom hinside
          refine .inl ⟨f, ?_, hf⟩
          simp only [assign, slot, Slots.empty, if_true, hread, Except.map]
      | short hn hend =>
          obtain ⟨v', hread⟩ := h.1.short v _ _ room hwrite hn
          refine .inr ⟨(some v', Slots.empty _), _, ?_, rfl, hend⟩
          simp only [assign, slot, Slots.empty, if_true, hread, Except.map]
      | @whole _ _ _ ts _ hfields =>
          subst hwrite
          -- No later field has the name of this one, so its slot is not touched again.
          have hother : name ∉ ts.map Prod.fst := by
            intro hmem
            have hmem := hfields.names.subset hmem
            rw [names_write] at hmem
            exact hname hmem
          have hread := h.1.read_write v room hroom
          simp only [assign, slot, Slots.empty, if_true, hread, Except.map]
          rw [assign_cons _ _ hother]
          rcases ih h.2 hnames hfields with ⟨f, hassign, hf⟩ | ⟨slots, f, hassign, hstop, hf⟩
          · refine .inl ⟨f, ?_, hf⟩
            rw [hassign]
            rfl
          · refine .inr ⟨(some v, slots), f, ?_, hstop, hf⟩
            rw [hassign]
            rfl

/-- **A record whose object breaks off is not read.** -/
theorem read_torn (name : String) {fields : Fields αs} (h : fields.Guarded depth)
    (hnames : fields.names.Nodup) (hroom : depth + 1 < room) {row : Row αs} {t : Tree}
    (htorn : Torn (.object (fields.write row)) t) : EndsEarly (fields.read name room t) := by
  cases htorn with
  | broken hend => exact ⟨_, rfl, hend⟩
  | @object _ ts stop hfields =>
      have hless : depth < room - 1 := by omega
      have hknown : ∀ e ∈ ts, e.1 ∈ fields.names ∨ e.2.skip = .ok () := by
        intro e he
        have hmem := hfields.names.subset (List.mem_map_of_mem he)
        rw [names_write] at hmem
        exact .inl hmem
      simp only [read, readObject_named _ fields hknown]
      rw [if_neg (by omega)]
      rcases assign_torn h hnames hless hfields with ⟨f, hassign, hf⟩ | ⟨slots, f, hassign, hstop, hf⟩
      · refine ⟨f, ?_, hf⟩
        simp only [hassign]
      · refine ⟨f, ?_, hf⟩
        simp only [hassign, hstop]

end Fields

namespace Codec

variable {α : Type} {αs : List Type} {depth : Nat}

theorem guarded_record {name : String} {fields : Fields αs} {toRow : α → Row αs}
    {ofRow : Row αs → α} (h : fields.Guarded depth) (hnames : fields.names.Nodup)
    (hrow : ∀ a, ofRow (toRow a) = a) : (record name fields toRow ofRow).Guarded (depth + 1) where
  toLawful := lawful_record h.lawful hnames hrow
  torn := by
    intro a t room hroom htorn
    exact (Fields.read_torn _ h hnames hroom htorn).map ofRow
  short := by
    intro a v n room hwrite
    cases hwrite

/-! ## Whole texts -/

/-- **No beginning of a written text is decoded**: it is told that the text ended too early.
Numbers are no such texts, since they do not have an end of their own. -/
theorem Guarded.decode_cut {c : Codec α} (h : c.Guarded depth) (hdepth : depth < maxRoom) {a : α}
    (hnumber : ∀ v, c.write a ≠ .number v) {cut : List Char}
    (hcut : IsCut cut ((c.write a).write .compact 0)) : EndsEarly (c.decode cut) := by
  have hscan := Tree.ofText_cut (c.write a) hcut
  generalize hwrite : c.write a = j at hscan
  generalize hresult : Tree.ofText cut = result at hscan
  cases hscan with
  | torn htorn =>
      subst hwrite
      obtain ⟨f, hread, hf⟩ := h.torn a _ maxRoom hdepth htorn
      refine ⟨f, ?_, hf⟩
      simp only [decode, hresult, hread]
  | short => exact absurd hwrite (hnumber _)

end Codec

end Almanac.Json
