import Mathlib
import Almanac.Proofs.Json.Numerals
import Almanac.Proofs.Json.Spelling

/-!
# A written value is scanned back

`Tree.of` is the tree of a value.  `Tree.scan_write`: the text of a value, in either
layout and on any level, is scanned into the tree of the value, whatever follows the
text.  Twice the length of the text is fuel enough, since every part takes at least one
character.
-/

namespace Almanac.Json

/-! ## The trees of values -/

mutual
/-- The tree of a value with nothing wrong in its text. -/
def Tree.of : Json → Tree
  | .null => .null
  | .bool b => .bool b
  | .number n => .number (.of n)
  | .text s => .text (.ok s)
  | .list items => .list (Tree.ofItems items) .closed
  | .object fields => .object (Tree.ofFields fields) .closed
def Tree.ofItems : List Json → List Tree
  | [] => []
  | j :: js => Tree.of j :: Tree.ofItems js
def Tree.ofFields : List (String × Json) → List (TextToken × Tree)
  | [] => []
  | (k, j) :: fs => (.ok k, Tree.of j) :: Tree.ofFields fs
end

def Tree.named (fields : List (String × Tree)) : List (TextToken × Tree) :=
  fields.map fun f => (.ok f.1, f.2)

/-! ## Blanks and first characters -/

/-- A character with which a value can begin: no blank and no closing bracket. -/
def Opens (c : Char) : Prop := isSpace c = false ∧ c ≠ ']' ∧ c ≠ '\x7d'

def OpensNumeral (c : Char) : Prop := c.isDigit = true ∨ c = '-'

theorem OpensNumeral.ne {c d : Char} (h : OpensNumeral c) (hd : d.isDigit = false)
    (hm : d ≠ '-') : c ≠ d := by
  rintro rfl
  rcases h with h | rfl
  · rw [h] at hd
    contradiction
  · exact hm rfl

theorem OpensNumeral.opens {c : Char} (h : OpensNumeral c) : Opens c := by
  refine ⟨?_, h.ne (by decide) (by decide), h.ne (by decide) (by decide)⟩
  simp only [isSpace, Bool.or_eq_false_iff, beq_eq_false_iff_ne]
  exact ⟨⟨⟨h.ne (by decide) (by decide), h.ne (by decide) (by decide)⟩,
    h.ne (by decide) (by decide)⟩, h.ne (by decide) (by decide)⟩

theorem skipSpace_cons {c : Char} (h : isSpace c = false) (cs : List Char) :
    skipSpace (c :: cs) = c :: cs := by
  rw [skipSpace, List.dropWhile_cons, h]
  rfl

def IsSpace (cs : List Char) : Prop := ∀ c ∈ cs, isSpace c = true

theorem skipSpace_space {gap : List Char} (h : IsSpace gap) (cs : List Char) :
    skipSpace (gap ++ cs) = skipSpace cs := List.dropWhile_append_of_pos h

theorem isSpace_lead (layout : Layout) (depth : Nat) : IsSpace (layout.lead depth) := by
  cases layout with
  | compact => exact List.forall_mem_nil _
  | indented =>
      intro c hc
      rcases List.mem_cons.mp hc with rfl | hc
      · decide
      · rw [List.eq_of_mem_replicate hc]
        decide

theorem isSpace_gap (layout : Layout) : IsSpace layout.gap := by
  cases layout with
  | compact => exact List.forall_mem_nil _
  | indented => exact List.forall_mem_singleton.mpr rfl

theorem isSpace_close (first : Bool) (layout : Layout) (depth : Nat) :
    IsSpace (if first then [] else layout.lead depth) := by
  cases first with
  | true => exact List.forall_mem_nil _
  | false => exact isSpace_lead layout depth

theorem Numeral.Spells.opens {n : Numeral} {cs : List Char} (h : n.Spells cs) :
    ∃ d ds, cs = d :: ds ∧ OpensNumeral d := by
  obtain ⟨hn, -⟩ := h
  split
  · exact ⟨'-', _, rfl, .inr rfl⟩
  · obtain ⟨d, ds, he⟩ := List.exists_cons_of_ne_nil hn.whole.1
    rw [he]
    exact ⟨d, _, rfl, .inl (hn.whole.2 d (he ▸ List.mem_cons_self))⟩

theorem spells_write (n : Number) : (Numeral.of n).Spells n.write := by
  rw [← Numeral.text_of]
  exact Numeral.spells_text (Numeral.isSpelled_of n)

theorem opens_number (n : Number) : ∃ c cs, n.write = c :: cs ∧ OpensNumeral c :=
  (spells_write n).opens

/-- **A written value does not begin with a blank or a closing bracket**, and there is
always something written. -/
theorem opens_write (layout : Layout) (depth : Nat) (j : Json) :
    ∃ c cs, j.write layout depth = c :: cs ∧ Opens c := by
  cases j with
  | null => exact ⟨'n', _, rfl, by decide, by decide, by decide⟩
  | bool b => cases b <;> exact ⟨_, _, rfl, by decide, by decide, by decide⟩
  | number n =>
      obtain ⟨c, cs, he, hopen⟩ := opens_number n
      exact ⟨c, cs, he, hopen.opens⟩
  | text s => exact ⟨'"', _, rfl, by decide, by decide, by decide⟩
  | list items => exact ⟨'[', _, by rw [write], by decide, by decide, by decide⟩
  | object fields => exact ⟨'\x7b', _, by rw [write], by decide, by decide, by decide⟩

/-! ## What may follow a value -/

theorem endsNumeral_space {gap cs : List Char} (hgap : IsSpace gap) (h : EndsNumeral cs) :
    EndsNumeral (gap ++ cs) := by
  cases gap with
  | nil => exact h
  | cons c gap =>
      have hc : isSpace c = true := hgap c List.mem_cons_self
      simp only [isSpace, Bool.or_eq_true, beq_iff_eq] at hc
      obtain ((rfl | rfl) | rfl) | rfl := hc <;>
        exact endsNumeral_cons (by decide) (by decide) (by decide) (by decide)

theorem endsNumeral_mark {c : Char} (h : c = ',' ∨ c = ']' ∨ c = '\x7d') (cs : List Char) :
    EndsNumeral (c :: cs) := by
  rcases h with rfl | rfl | rfl <;>
    exact endsNumeral_cons (by decide) (by decide) (by decide) (by decide)

theorem endsNumeral_writeItems (layout : Layout) (depth : Nat) (js : List Json)
    (rest : List Char) : EndsNumeral (writeItems layout depth false js ++ rest) := by
  cases js with
  | nil =>
      simp only [writeItems, Bool.false_eq_true, if_false, List.append_assoc]
      exact endsNumeral_space (isSpace_lead layout depth) (endsNumeral_mark (.inr (.inl rfl)) _)
  | cons j js =>
      simp only [writeItems, Bool.false_eq_true, if_false, List.append_assoc, List.cons_append]
      exact endsNumeral_mark (.inl rfl) _

theorem endsNumeral_writeFields (layout : Layout) (depth : Nat) (fs : List (String × Json))
    (rest : List Char) : EndsNumeral (writeFields layout depth false fs ++ rest) := by
  cases fs with
  | nil =>
      simp only [writeFields, Bool.false_eq_true, if_false, List.append_assoc]
      exact endsNumeral_space (isSpace_lead layout depth) (endsNumeral_mark (.inr (.inr rfl)) _)
  | cons f fs =>
      obtain ⟨k, j⟩ := f
      simp only [writeFields, Bool.false_eq_true, if_false, List.append_assoc, List.cons_append]
      exact endsNumeral_mark (.inl rfl) _

theorem length_writeItems_pos (layout : Layout) (depth : Nat) (first : Bool) (js : List Json) :
    0 < (writeItems layout depth first js).length := by
  cases js with
  | nil =>
      simp only [writeItems, List.length_append, List.length_singleton]
      omega
  | cons j js =>
      have := length_writeItems_pos layout depth false js
      simp only [writeItems, List.length_append]
      omega

/-! ## Parts of lists and objects -/

/-- What may stand in front of a part: blanks, with a comma among them if the part is not the
first one. -/
def Separates : (first : Bool) → List Char → Prop
  | true, cs => IsSpace cs
  | false, cs => ∃ gap gap', IsSpace gap ∧ IsSpace gap' ∧ cs = gap ++ ',' :: gap'

theorem separates_lead (first : Bool) (layout : Layout) (depth : Nat) :
    Separates first ((if first then [] else [',']) ++ layout.lead depth) := by
  cases first with
  | true => exact isSpace_lead layout depth
  | false => exact ⟨[], _, List.forall_mem_nil _, isSpace_lead layout depth, rfl⟩

theorem separates_mark (first : Bool) : Separates first (if first then [] else [',']) := by
  have h := separates_lead first .compact 0
  rwa [Layout.lead, List.append_nil] at h

/-- The end of a list or an object is found behind blanks. -/
theorem Frame.next_close (frame : Tree.Frame) (first : Bool) {gap : List Char} (hgap : IsSpace gap)
    (h : isSpace frame.close = false) (rest : List Char) :
    frame.next first (gap ++ frame.close :: rest) = .close rest := by
  have hskip : skipSpace (gap ++ frame.close :: rest) = frame.close :: rest := by
    rw [skipSpace_space hgap]
    exact skipSpace_cons h rest
  rw [Tree.Frame.next, hskip]
  exact if_pos rfl

/-- The next part is found behind the comma, if there is one, and blanks. -/
theorem Frame.next_part (frame : Tree.Frame) {first : Bool} {mark : List Char}
    (hmark : Separates first mark) {c : Char} (hcomma : ',' ≠ frame.close)
    (hspace : isSpace c = false) (hclose : c ≠ frame.close) (cs : List Char) :
    frame.next first (mark ++ c :: cs) = .part (c :: cs) := by
  have hskip : ∀ gap, IsSpace gap → skipSpace (gap ++ c :: cs) = c :: cs := by
    intro gap hgap
    rw [skipSpace_space hgap]
    exact skipSpace_cons hspace cs
  cases first with
  | true =>
      rw [Tree.Frame.next, hskip mark hmark]
      simp only [if_neg hclose, if_true]
  | false =>
      obtain ⟨gap, gap', hgap, hgap', rfl⟩ := hmark
      have hfound : skipSpace (gap ++ ',' :: gap' ++ c :: cs) = ',' :: (gap' ++ c :: cs) := by
        rw [List.append_assoc, skipSpace_space hgap]
        exact skipSpace_cons (by decide) _
      rw [Tree.Frame.next, hfound]
      simp only [if_neg hcomma, Bool.false_eq_true, if_false, if_true, hskip gap' hgap',
        if_neg hclose]

theorem afterName_colon (cs : List Char) : Tree.afterName (':' :: cs) = .ok cs := by
  have hskip : skipSpace (':' :: cs) = ':' :: cs := skipSpace_cons (by decide) cs
  simp only [Tree.afterName, hskip]

/-! ## Scanning -/

namespace Tree

theorem ofScalar_digit {c : Char} (hc : c.isDigit = true) (cs : List Char) :
    ofScalar (c :: cs) = ofNumeral false (c :: cs) := by
  rw [ofScalar.eq_def]
  split <;> simp_all

theorem ofScalar_spelled {n : Numeral} {cs rest : List Char} (h : n.Spells cs)
    (hr : EndsNumeral rest) : ofScalar (cs ++ rest) = (.number n, some rest) := by
  obtain ⟨hn, hpower⟩ := h
  have hscan := Numeral.scanNumeral_spelled hn hpower hr
  by_cases hneg : n.negative
  · rw [hneg] at hscan
    rw [if_pos hneg, List.cons_append, List.cons_append, ofScalar, ofNumeral]
    simp only [List.nil_append, hscan]
  · rw [Bool.not_eq_true] at hneg
    rw [hneg] at hscan ⊢
    -- The first digit decides how the scalar is read.
    obtain ⟨d, ds, he⟩ := List.exists_cons_of_ne_nil hn.whole.1
    have hd : d.isDigit = true := hn.whole.2 d (he ▸ List.mem_cons_self)
    rw [he] at hscan ⊢
    simp only [Bool.false_eq_true, if_false, List.nil_append, List.cons_append] at hscan ⊢
    rw [ofScalar_digit hd, ofNumeral, hscan]

theorem ofScalar_number (n : Number) {rest : List Char} (hr : EndsNumeral rest) :
    ofScalar (n.write ++ rest) = (.number (.of n), some rest) := ofScalar_spelled (spells_write n) hr

theorem scan_space {gap : List Char} (h : IsSpace gap) (fuel : Nat) (cs : List Char) :
    scan fuel (gap ++ cs) = scan fuel cs := by
  cases fuel with
  | zero => rfl
  | succ fuel => rw [scan, scan, skipSpace_space h]

theorem scan_scalar (fuel : Nat) {c : Char} (hspace : isSpace c = false) (hlist : c ≠ '[')
    (hobject : c ≠ '\x7b') (cs : List Char) : scan (fuel + 1) (c :: cs) = ofScalar (c :: cs) := by
  rw [scan, skipSpace_cons hspace]
  split <;> simp_all

mutual
/-- **A written value is scanned back**, up to what follows it. -/
theorem scan_write (layout : Layout) (depth : Nat) (j : Json) {fuel : Nat} {rest : List Char}
    (hf : 2 * (j.write layout depth).length ≤ fuel) (hr : EndsNumeral rest) :
    scan fuel (j.write layout depth ++ rest) = (.of j, some rest) := by
  -- No value is written as nothing, so there is fuel for its first character.
  obtain ⟨fuel, rfl⟩ : ∃ n, fuel = n + 1 := by
    obtain ⟨c, cs, he, -⟩ := opens_write layout depth j
    rw [he, List.length_cons] at hf
    exact ⟨fuel - 1, by omega⟩
  match j with
  | .null => exact scan_scalar fuel (by decide) (by decide) (by decide) _
  | .bool true => exact scan_scalar fuel (by decide) (by decide) (by decide) _
  | .bool false => exact scan_scalar fuel (by decide) (by decide) (by decide) _
  | .number n =>
      obtain ⟨c, cs, he, hopen⟩ := opens_number n
      have hscalar := ofScalar_number n hr
      rw [he, List.cons_append] at hscalar
      rw [write, he, List.cons_append, Tree.of, ← hscalar]
      exact scan_scalar fuel hopen.opens.1 (hopen.ne (by decide) (by decide))
        (hopen.ne (by decide) (by decide)) _
  | .text s =>
      have hskip := scan_scalar fuel (c := '"') (by decide) (by decide) (by decide)
        (s.toList.flatMap writeChar ++ '"' :: rest)
      rw [ofScalar, scanText_text] at hskip
      simpa [write, writeText, Tree.of] using hskip
  | .list items =>
      simp only [write, List.length_cons] at hf
      have hroom : 2 * (writeItems layout depth true items).length ≤ fuel := by omega
      have hitems := scanItems_write layout depth true items hroom rest
      rw [write, List.cons_append, scan, skipSpace_cons (by decide)]
      simp only [hitems, Tree.of]
  | .object fields =>
      simp only [write, List.length_cons] at hf
      have hroom : 2 * (writeFields layout depth true fields).length ≤ fuel := by omega
      have hfields := scanFields_write layout depth true fields hroom rest
      rw [write, List.cons_append, scan, skipSpace_cons (by decide)]
      simp only [hfields, Tree.of]

theorem scanItems_write (layout : Layout) (depth : Nat) (first : Bool) (items : List Json)
    {fuel : Nat}
    (hf : 2 * (writeItems layout depth first items).length ≤ fuel) (rest : List Char) :
    scanItems fuel first (writeItems layout depth first items ++ rest)
      = (Tree.ofItems items, .closed, some rest) := by
  match items with
  | [] =>
      simp only [writeItems, List.length_append, List.length_singleton] at hf
      obtain ⟨fuel, rfl⟩ : ∃ n, fuel = n + 1 := ⟨fuel - 1, by omega⟩
      have hnext : Frame.list.next first ((if first then [] else layout.lead depth) ++ ']' :: rest)
          = .close rest :=
        Frame.next_close .list first (isSpace_close first layout depth) (by decide) rest
      rw [writeItems, List.append_assoc, List.singleton_append, scanItems, hnext]
      rfl
  | j :: js =>
      obtain ⟨c, cs, he, hspace, hclose, -⟩ := opens_write layout (depth + 1) j
      simp only [writeItems, List.length_append] at hf
      have hlen : 0 < (j.write layout (depth + 1)).length := by
        rw [he]
        exact Nat.succ_pos _
      -- The item and the closing bracket are not empty, which pays for this step.
      have hend := length_writeItems_pos layout depth false js
      obtain ⟨fuel, rfl⟩ : ∃ n, fuel = n + 1 := ⟨fuel - 1, by omega⟩
      have hfirst : 2 * (j.write layout (depth + 1)).length ≤ fuel := by omega
      have hleft : 2 * (writeItems layout depth false js).length ≤ fuel := by omega
      have hj' := scan_write layout (depth + 1) j hfirst
        (endsNumeral_writeItems layout depth js rest)
      have hjs' := scanItems_write layout depth false js hleft rest
      have hnext := Frame.next_part .list (separates_lead first layout (depth + 1)) (by decide)
        hspace hclose (cs ++ (writeItems layout depth false js ++ rest))
      rw [List.append_assoc, ← List.cons_append, ← he] at hnext
      rw [writeItems]
      simp only [List.append_assoc]
      rw [scanItems, hnext]
      simp only [hj', hjs', Tree.ofItems]

theorem scanFields_write (layout : Layout) (depth : Nat) (first : Bool)
    (fields : List (String × Json)) {fuel : Nat}
    (hf : 2 * (writeFields layout depth first fields).length ≤ fuel) (rest : List Char) :
    scanFields fuel first (writeFields layout depth first fields ++ rest)
      = (Tree.ofFields fields, .closed, some rest) := by
  match fields with
  | [] =>
      simp only [writeFields, List.length_append, List.length_singleton] at hf
      obtain ⟨fuel, rfl⟩ : ∃ n, fuel = n + 1 := ⟨fuel - 1, by omega⟩
      have hnext : Frame.object.next first
          ((if first then [] else layout.lead depth) ++ '\x7d' :: rest) = .close rest :=
        Frame.next_close .object first (isSpace_close first layout depth) (by decide) rest
      rw [writeFields, List.append_assoc, List.singleton_append, scanFields, hnext]
      rfl
  | (k, j) :: fs =>
      simp only [writeFields, writeText, List.length_append, List.length_cons] at hf
      -- The quotes and the colon pay for this step.
      obtain ⟨fuel, rfl⟩ : ∃ n, fuel = n + 1 := ⟨fuel - 1, by omega⟩
      have hfirst : 2 * (j.write layout (depth + 1)).length ≤ fuel := by omega
      have hleft : 2 * (writeFields layout depth false fs).length ≤ fuel := by omega
      have hj' := scan_write layout (depth + 1) j hfirst
        (endsNumeral_writeFields layout depth fs rest)
      have hfs' := scanFields_write layout depth false fs hleft rest
      have hnext := Frame.next_part .object (separates_lead first layout (depth + 1)) (c := '"')
        (by decide) (by decide) (by decide) (k.toList.flatMap writeChar ++ '"' :: (':' :: (layout.gap
          ++ (j.write layout (depth + 1) ++ (writeFields layout depth false fs ++ rest)))))
      rw [List.append_assoc] at hnext
      rw [writeFields, writeText]
      simp only [List.append_assoc, List.cons_append, List.nil_append]
      rw [scanFields, hnext]
      simp only [scanText_text, afterName_colon, scan_space (isSpace_gap layout), hj', hfs', Tree.ofFields]
end

/-- The tree of a written document is the tree of its value, and nothing is left but what
follows it. -/
theorem ofText_write_append (layout : Layout) (j : Json) {rest : List Char}
    (hr : EndsNumeral rest) : ofText (j.write layout 0 ++ rest) = (.of j, some rest) := by
  apply scan_write layout 0 j _ hr
  rw [List.length_append]
  omega

theorem ofText_write (layout : Layout) (j : Json) :
    ofText (j.write layout 0) = (.of j, some []) := by
  have htext := ofText_write_append layout j endsNumeral_nil
  rwa [List.append_nil] at htext

end Tree

end Almanac.Json
