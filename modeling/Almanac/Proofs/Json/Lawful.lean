import Mathlib
import Almanac.Json.Codec
import Almanac.Proofs.Json.Scan

/-!
# Codecs that read what they write

A codec is lawful up to a depth if both of its readers give back what it writes: from the
tree of the text, wherever more levels than that may still be entered, and from the value
that is kept of it for later.  Every combinator keeps the law, and what a lawful codec
writes is decoded again from the text, in either layout: `Codec.Lawful.decode_write`.
-/

namespace Almanac.Json.Codec

variable {α : Type}

/-- The law of a codec whose values are nested at most `depth` levels deep. -/
structure Lawful (c : Codec α) (depth : Nat) : Prop where
  read_write : ∀ a room, depth < room → c.read room (Tree.of (c.write a)) = .ok a
  keep_write : ∀ a room, depth < room → (Tree.of (c.write a)).keep room = .ok (c.write a)
  take_write : ∀ a, c.take (c.write a) = .ok a

theorem Lawful.mono {c : Codec α} {depth deeper : Nat} (h : c.Lawful depth)
    (hle : depth ≤ deeper) : c.Lawful deeper where
  read_write a room hroom := h.read_write a room (Nat.lt_of_le_of_lt hle hroom)
  keep_write a room hroom := h.keep_write a room (Nat.lt_of_le_of_lt hle hroom)
  take_write := h.take_write

/-! ## Scalars -/

theorem keep_of_scalar? {t : Tree} {j : Json} (h : scalar? t = .ok (some j)) (room : Nat) :
    t.keep room = .ok j := by
  cases t with
  | null =>
      cases h
      rfl
  | bool b =>
      cases h
      rfl
  | number n =>
      rcases hv : n.value with f | v
      · simp only [scalar?, hv, Except.map] at h
        contradiction
      · simp only [scalar?, hv, Except.map] at h
        cases h
        simp only [Tree.keep, hv]
  | text t =>
      cases t with
      | error f => contradiction
      | ok s =>
          cases h
          rfl
  | list items stop => cases h
  | object fields stop => cases h
  | broken b begun => contradiction

theorem lawful_scalar {wanted : String} {of : Json → Except Mismatch α} {write : α → Json}
    (hscalar : ∀ a, scalar? (Tree.of (write a)) = .ok (some (write a)))
    (hof : ∀ a, of (write a) = .ok a) : (scalar wanted of write).Lawful 0 where
  read_write := by
    intro a room _
    simp only [scalar, hscalar, hof, liftMismatch]
  keep_write := by
    intro a room _
    exact keep_of_scalar? (hscalar a) room
  take_write := by
    intro a
    have hkind := hscalar a
    rw [← hof a]
    simp only [scalar]
    split
    · rename_i heq
      rw [heq] at hkind
      cases hkind
    · rename_i heq
      rw [heq] at hkind
      cases hkind
    · rfl

theorem lawful_integer {name : String} {lo hi : Int} {ofInt : Int → α} {toInt : α → Int}
    (hrange : ∀ a, lo ≤ toInt a ∧ toInt a ≤ hi) (hlo : Int64.minValue.toInt ≤ lo)
    (hhi : hi < UInt64.size) (hof : ∀ a, ofInt (toInt a) = a) :
    (integer name lo hi ofInt toInt).Lawful 0 := by
  refine lawful_scalar ?_ ?_
  · intro a
    have hexact : (Number.int (toInt a)).IsExact :=
      ⟨Int.le_trans hlo (hrange a).1, Int.lt_of_le_of_lt (hrange a).2 hhi⟩
    simp only [Tree.of, Numeral.of, scalar?, Numeral.value_ofInt hexact, Except.map]
  · intro a
    simp only [if_pos (hrange a), hof]

theorem lawful_uint8 : uint8.Lawful 0 := by
  refine lawful_integer ?_ (by decide) (by decide) ?_
  · intro n
    have := n.toNat_lt_size
    omega
  · intro n
    rw [Int.toNat_natCast, UInt8.ofNat_toNat]

theorem lawful_uint32 : uint32.Lawful 0 := by
  refine lawful_integer ?_ (by decide) (by decide) ?_
  · intro n
    have := n.toNat_lt_size
    omega
  · intro n
    rw [Int.toNat_natCast, UInt32.ofNat_toNat]

theorem lawful_int32 : int32.Lawful 0 := by
  refine lawful_integer ?_ (by decide) (by decide) Int32.ofInt_toInt
  intro n
  exact ⟨n.minValue_le_toInt, n.toInt_le⟩

theorem lawful_word (name : String) : (word name).Lawful 0 := by
  refine lawful_integer ?_ (by decide) (by decide) ?_
  · intro n
    have := n.toNat_lt_size
    omega
  · intro n
    rw [Int.toNat_natCast, UInt64.ofNat_toNat]

theorem lawful_text : text.Lawful 0 := lawful_scalar (fun _ => rfl) (fun _ => rfl)

/-- Values with a form of their own are read back if that form is. -/
theorem lawful_spelled {wanted : String} {parse : String → Except String α} {show' : α → String}
    (h : ∀ a, parse (show' a) = .ok a) : (spelled wanted parse show').Lawful 0 := by
  refine lawful_scalar (fun _ => rfl) ?_
  intro a
  simp only [h]

/-- The names of a closed set are read back if no two values share one. -/
theorem lawful_choice {variants : List (String × α)} {name : α → String}
    (h : ∀ a, ofName variants (name a) = .ok a) : (choice variants name).Lawful 0 where
  read_write := by
    intro a room _
    simp only [choice, Tree.of, h, liftMismatch]
  keep_write := by
    intro a room _
    rfl
  take_write := h

/-! ## Lists and optional values -/

theorem ofItems_eq_map (js : List Json) : Tree.ofItems js = js.map Tree.of := by
  induction js with
  | nil => rfl
  | cons j js ih => rw [Tree.ofItems, ih, List.map_cons]

theorem each_map {β ε : Type} {f : β → Except ε α} {g : α → β} (h : ∀ a, f (g a) = .ok a)
    (as : List α) : each f (as.map g) = .ok as := by
  induction as with
  | nil => rfl
  | cons a as ih => simp only [List.map_cons, each, h, ih]

theorem keepItems_map {c : Codec α} {depth room : Nat} (h : c.Lawful depth) (hroom : depth < room)
    (as : List α) :
    Tree.keepItems room (Tree.ofItems (as.map c.write)) = .ok (as.map c.write) := by
  induction as with
  | nil => rfl
  | cons a as ih =>
      simp only [List.map_cons, Tree.ofItems, Tree.keepItems, h.keep_write a room hroom, ih,
        Except.map]

theorem Lawful.list {c : Codec α} {depth : Nat} (h : c.Lawful depth) :
    (list c).Lawful (depth + 1) where
  read_write := by
    intro as room hroom
    have hless : depth < room - 1 := by omega
    have hitems := each_map (fun a => h.read_write a (room - 1) hless) as
    simp only [Codec.list, Tree.of, ofItems_eq_map, List.map_map]
    rw [if_neg (by omega)]
    simp only [Function.comp_def, hitems, Stop.readFault?]
  keep_write := by
    intro as room hroom
    have hless : depth < room - 1 := by omega
    simp only [Codec.list, Tree.of, Tree.keep, keepItems_map h hless]
    rw [if_neg (by omega)]
    rfl
  take_write := each_map h.take_write

theorem of_ne_null {j : Json} (h : j ≠ .null) : Tree.of j ≠ .null := by
  cases j with
  | null => exact absurd rfl h
  | bool b => simp [Tree.of]
  | number n => simp [Tree.of]
  | text s => simp [Tree.of]
  | list items => simp [Tree.of]
  | object fields => simp [Tree.of]

theorem Lawful.optional {c : Codec α} {depth : Nat} (h : c.Lawful depth)
    (hnull : ∀ a, c.write a ≠ .null) : (optional c).Lawful depth where
  read_write := by
    rintro (_ | a) room hroom
    · rfl
    · have hread := h.read_write a room hroom
      simp only [Codec.optional]
      split
      · rename_i heq
        exact absurd heq (of_ne_null (hnull a))
      · rw [hread]
        rfl
  keep_write := by
    rintro (_ | a) room hroom
    · rfl
    · exact h.keep_write a room hroom
  take_write := by
    rintro (_ | a)
    · rfl
    · have htake := h.take_write a
      simp only [Codec.optional]
      split
      · rename_i heq
        exact absurd heq (hnull a)
      · rw [htake]
        rfl

/-! ## Whole texts -/

/-- **A written text is decoded to what was written**, in either layout. -/
theorem Lawful.decode_write {c : Codec α} {depth : Nat} (h : c.Lawful depth)
    (hdepth : depth < maxRoom) (layout : Layout) (a : α) :
    c.decode ((c.write a).write layout 0) = .ok a := by
  simp only [decode, Tree.ofText_write, h.read_write a maxRoom hdepth]
  rfl

theorem Lawful.decodeText_render {c : Codec α} {depth : Nat} (h : c.Lawful depth)
    (hdepth : depth < maxRoom) (layout : Layout) (a : α) :
    c.decodeText ((c.write a).render layout) = .ok a := by
  rw [decodeText, render, String.toList_ofList]
  exact h.decode_write hdepth layout a

theorem Lawful.decodeText_encode {c : Codec α} {depth : Nat} (h : c.Lawful depth)
    (hdepth : depth < maxRoom) (a : α) : c.decodeText (c.encode a) = .ok a :=
  h.decodeText_render hdepth .compact a

/-! ## Bytes -/

theorem size_utf8Encode_singleton (c : Char) : [c].utf8Encode.size = c.utf8Size := by
  rw [List.utf8Encode_singleton, List.size_toByteArray, String.length_utf8EncodeChar]

/-- The characters of a text are read off its bytes, behind whatever bytes they stand. -/
theorem charsFrom_append (front : ByteArray) (cs : List Char) :
    charsFrom (front ++ cs.utf8Encode) front.size = cs := by
  induction cs generalizing front with
  | nil =>
      rw [charsFrom, if_neg]
      simp
  | cons c cs ih =>
      have hdecode : (front ++ (c :: cs).utf8Encode).utf8DecodeChar? front.size = some c := by
        rw [ByteArray.utf8DecodeChar?_eq_utf8DecodeChar?_extract,
          ByteArray.extract_append_eq_right rfl (by simp)]
        exact List.utf8DecodeChar?_utf8Encode_cons
      have hmore : front.size < (front ++ (c :: cs).utf8Encode).size := by
        have := c.utf8Size_pos
        rw [List.utf8Encode_cons]
        simp only [ByteArray.size_append, size_utf8Encode_singleton]
        omega
      have hrest := ih (front ++ [c].utf8Encode)
      rw [ByteArray.size_append, size_utf8Encode_singleton, ByteArray.append_assoc,
        ← List.utf8Encode_cons] at hrest
      rw [charsFrom, if_pos hmore, hdecode]
      simp only [hrest]

theorem decodeBytes_toUTF8 (c : Codec α) (s : String) :
    c.decodeBytes s.toUTF8 = c.decodeText s := by
  have hchars := charsFrom_append ByteArray.empty s.toList
  rw [ByteArray.empty_append, ← String.toByteArray_ofList, String.ofList_toList] at hchars
  rw [decodeBytes, decodeText, String.toUTF8_eq_toByteArray]
  exact congrArg c.decode hchars

end Almanac.Json.Codec
