import Mathlib
import Almanac.Proofs.Json.Keeping

/-!
# The texts of a value

`Json.Spelled j cs` says that `cs` is a text of the value `j` in the grammar of JSON: with any
blanks between its tokens, any escapes in its texts, and any numeral for each of its numbers.
Every such text is scanned into a tree of which the value is kept, wherever there is room for
its levels: `Tree.scan_spelled`.
-/

namespace Almanac.Json

/-! ## Texts between quotes -/

/-- The spellings of a character in a text: itself, a letter behind a backslash, or the number of
its code unit or of its two surrogates. -/
inductive SpellsChar : Char → List Char → Prop where
  | self {c : Char} (hquote : c ≠ '"') (hslash : c ≠ '\\') (hlow : ¬c.toNat < 0x20) :
      SpellsChar c [c]
  | letter {l c : Char} (h : plainEscape? l = some c) : SpellsChar c ['\\', l]
  | unit {a b c d : Char} {n : Nat} (h : hexValue? a b c d = some n) (hn : n < 0xD800 ∨ 0xDFFF < n) :
      SpellsChar (Char.ofNat n) ['\\', 'u', a, b, c, d]
  | pair {a b c d a' b' c' d' : Char} {high low : Nat} (h : hexValue? a b c d = some high)
      (h' : hexValue? a' b' c' d' = some low) (hhigh : 0xD800 ≤ high ∧ high ≤ 0xDBFF)
      (hlow : 0xDC00 ≤ low ∧ low ≤ 0xDFFF) :
      SpellsChar (Char.ofNat (0x10000 + (high - 0xD800) * 0x400 + (low - 0xDC00)))
        ['\\', 'u', a, b, c, d, '\\', 'u', a', b', c', d']

inductive SpellsText : List Char → List Char → Prop where
  | nil : SpellsText [] []
  | cons {c : Char} {cs spelled rest : List Char} (hc : SpellsChar c spelled)
      (h : SpellsText cs rest) : SpellsText (c :: cs) (spelled ++ rest)

theorem spellsChar_writeChar (c : Char) : SpellsChar c (writeChar c) := by
  fun_cases writeChar c with
  | case1 => exact .letter rfl
  | case2 => exact .letter rfl
  | case3 => exact .letter rfl
  | case4 => exact .letter rfl
  | case5 => exact .letter rfl
  | case6 => exact .letter rfl
  | case7 => exact .letter rfl
  | case8 c _ _ _ _ _ _ _ hlow =>
      have hunit := SpellsChar.unit (hexValue?_control c.toNat hlow) (.inl (by omega))
      rwa [Char.ofNat_toNat] at hunit
  | case9 c hquote hslash _ _ _ _ _ hhigh => exact .self hquote hslash hhigh

theorem spellsText_write (cs : List Char) : SpellsText cs (cs.flatMap writeChar) := by
  induction cs with
  | nil => exact .nil
  | cons c cs ih => exact .cons (spellsChar_writeChar c) ih

/-- **A character is scanned back from each of its spellings.** -/
theorem scanText_spelledChar {c : Char} {spelled : List Char} (h : SpellsChar c spelled)
    (acc rest : List Char) :
    scanText (.plain acc) (spelled ++ rest) = scanText (.plain (c :: acc)) rest := by
  cases h with
  | self hquote hslash hlow => exact scanText_self hquote hslash hlow acc rest
  | letter h => exact scanText_letter h acc rest
  | unit h hn =>
      simp only [List.cons_append, List.nil_append]
      rw [scanText, h]
      simp only [TextState.unit, TextState.plain]
      rw [if_neg (by omega), if_neg (by omega)]
  | pair h h' hhigh hlow =>
      simp only [List.cons_append, List.nil_append]
      rw [scanText, h]
      simp only [TextState.unit, TextState.plain]
      rw [if_neg (by omega), if_pos hhigh, scanText, h']
      simp only [TextState.unit, if_pos hlow]

theorem scanText_spelledChars {cs spelled : List Char} (h : SpellsText cs spelled)
    (acc rest : List Char) :
    scanText (.plain acc) (spelled ++ '"' :: rest)
      = .ok (.ok (String.ofList (acc.reverse ++ cs)), rest) := by
  induction h generalizing acc with
  | nil => simp [scanText, TextState.close_plain]
  | cons hc _ ih =>
      rw [List.append_assoc, scanText_spelledChar hc, ih]
      simp

theorem scanText_spelled {s : String} {cs : List Char} (h : SpellsText s.toList cs)
    (rest : List Char) : scanText .start (cs ++ '"' :: rest) = .ok (.ok s, rest) := by
  have hchars := scanText_spelledChars h [] rest
  rwa [List.reverse_nil, List.nil_append, String.ofList_toList] at hchars

/-! ## Values -/

mutual
/-- The texts of a value. -/
inductive Spelled : Json → List Char → Prop where
  | null : Spelled .null ['n', 'u', 'l', 'l']
  | true : Spelled (.bool true) ['t', 'r', 'u', 'e']
  | false : Spelled (.bool false) ['f', 'a', 'l', 's', 'e']
  | number {n : Numeral} {v : Number} {cs : List Char} (h : n.Spells cs) (hv : n.value = .ok v) :
      Spelled (.number v) cs
  | text {s : String} {cs : List Char} (h : SpellsText s.toList cs) :
      Spelled (.text s) ('"' :: (cs ++ ['"']))
  | list {js : List Json} {cs : List Char} (h : SpelledItems true js cs) :
      Spelled (.list js) ('[' :: cs)
  | object {fs : List (String × Json)} {cs : List Char} (h : SpelledFields true fs cs) :
      Spelled (.object fs) ('\x7b' :: cs)
inductive SpelledItems : (first : Bool) → List Json → List Char → Prop where
  | nil {first : Bool} {gap : List Char} (hgap : IsSpace gap) : SpelledItems first [] (gap ++ [']'])
  | cons {first : Bool} {j : Json} {js : List Json} {mark cs rest : List Char}
      (hmark : Separates first mark) (hj : Spelled j cs) (hjs : SpelledItems false js rest) :
      SpelledItems first (j :: js) (mark ++ (cs ++ rest))
inductive SpelledFields : (first : Bool) → List (String × Json) → List Char → Prop where
  | nil {first : Bool} {gap : List Char} (hgap : IsSpace gap) :
      SpelledFields first [] (gap ++ ['\x7d'])
  | cons {first : Bool} {k : String} {j : Json} {fs : List (String × Json)}
      {mark name gap gap' cs rest : List Char} (hmark : Separates first mark)
      (hname : SpellsText k.toList name) (hgap : IsSpace gap) (hgap' : IsSpace gap')
      (hj : Spelled j cs) (hfs : SpelledFields false fs rest) :
      SpelledFields first ((k, j) :: fs)
        (mark ++ ('"' :: (name ++ '"' :: (gap ++ ':' :: (gap' ++ (cs ++ rest))))))
end

/-- The whole texts of a value: nothing but blanks stands around it. -/
def HasText (j : Json) (text : List Char) : Prop :=
  ∃ gap cs gap', IsSpace gap ∧ IsSpace gap' ∧ Spelled j cs ∧ text = gap ++ (cs ++ gap')

/-! ## Written texts -/

/-! ## First characters -/

theorem Spelled.opens {j : Json} {cs : List Char} (h : Spelled j cs) :
    ∃ d ds, cs = d :: ds ∧ Opens d := by
  cases h with
  | null => exact ⟨'n', _, rfl, by decide, by decide, by decide⟩
  | true => exact ⟨'t', _, rfl, by decide, by decide, by decide⟩
  | false => exact ⟨'f', _, rfl, by decide, by decide, by decide⟩
  | number h =>
      obtain ⟨d, ds, he, hopen⟩ := h.opens
      exact ⟨d, ds, he, hopen.opens⟩
  | text => exact ⟨'"', _, rfl, by decide, by decide, by decide⟩
  | list => exact ⟨'[', _, rfl, by decide, by decide, by decide⟩
  | object => exact ⟨'\x7b', _, rfl, by decide, by decide, by decide⟩

/-! No numeral is prolonged by the mark of the next part, or by the end of a list or an
object. -/

theorem Separates.endsNumeral {mark : List Char} (h : Separates false mark) (rest : List Char) :
    EndsNumeral (mark ++ rest) := by
  obtain ⟨gap, gap', hgap, -, rfl⟩ := h
  simp only [List.append_assoc, List.cons_append]
  exact endsNumeral_space hgap (endsNumeral_mark (.inl rfl) _)

theorem SpelledItems.endsNumeral {js : List Json} {cs : List Char} (h : SpelledItems false js cs)
    (rest : List Char) : EndsNumeral (cs ++ rest) := by
  cases h with
  | nil hgap =>
      rw [List.append_assoc]
      exact endsNumeral_space hgap (endsNumeral_mark (.inr (.inl rfl)) _)
  | cons hmark =>
      rw [List.append_assoc]
      exact hmark.endsNumeral _

theorem SpelledFields.endsNumeral {fs : List (String × Json)} {cs : List Char}
    (h : SpelledFields false fs cs) (rest : List Char) : EndsNumeral (cs ++ rest) := by
  cases h with
  | nil hgap =>
      rw [List.append_assoc]
      exact endsNumeral_space hgap (endsNumeral_mark (.inr (.inr rfl)) _)
  | cons hmark =>
      rw [List.append_assoc]
      exact hmark.endsNumeral _

theorem SpelledItems.length_pos {first : Bool} {js : List Json} {cs : List Char}
    (h : SpelledItems first js cs) : 0 < cs.length := by
  cases h with
  | nil =>
      rw [List.length_append, List.length_singleton]
      omega
  | cons _ hj =>
      obtain ⟨d, ds, rfl, -⟩ := hj.opens
      simp only [List.length_append, List.length_cons]
      omega

/-! ## Scanning -/

namespace Tree

theorem afterName_space {gap : List Char} (hgap : IsSpace gap) (cs : List Char) :
    afterName (gap ++ ':' :: cs) = .ok cs := by
  have hskip : skipSpace (gap ++ ':' :: cs) = ':' :: cs := by
    rw [skipSpace_space hgap]
    exact skipSpace_cons (by decide) cs
  simp only [afterName, hskip]

mutual
/-- **Every text of a value is scanned into a tree of which the value is kept**, up to what
follows it. -/
theorem scan_spelled {j : Json} {cs : List Char} (h : Spelled j cs) {fuel : Nat} {rest : List Char}
    (hf : 2 * cs.length ≤ fuel) (hr : EndsNumeral rest) :
    ∃ t, scan fuel (cs ++ rest) = (t, some rest) ∧ t.Keeps j := by
  obtain ⟨fuel, rfl⟩ : ∃ n, fuel = n + 1 := by
    obtain ⟨c, ds, rfl, -⟩ := h.opens
    rw [List.length_cons] at hf
    exact ⟨fuel - 1, by omega⟩
  match h with
  | .null => exact ⟨.null, scan_scalar fuel (by decide) (by decide) (by decide) _, fun _ _ => rfl⟩
  | .true =>
      exact ⟨.bool true, scan_scalar fuel (by decide) (by decide) (by decide) _, fun _ _ => rfl⟩
  | .false =>
      exact ⟨.bool false, scan_scalar fuel (by decide) (by decide) (by decide) _, fun _ _ => rfl⟩
  | @Spelled.number n v cs h hv =>
      have hscalar := ofScalar_spelled h hr
      obtain ⟨c, ds, rfl, hopen⟩ := h.opens
      refine ⟨.number n, ?_, ?_⟩
      · rw [← hscalar]
        exact scan_scalar fuel hopen.opens.1 (hopen.ne (by decide) (by decide))
          (hopen.ne (by decide) (by decide)) _
      · intro room _
        simp only [keep, hv]
  | @Spelled.text s cs h =>
      have hskip := scan_scalar fuel (c := '"') (by decide) (by decide) (by decide)
        (cs ++ '"' :: rest)
      rw [ofScalar, scanText_spelled h] at hskip
      refine ⟨.text (.ok s), ?_, fun _ _ => rfl⟩
      simpa using hskip
  | @Spelled.list js cs h =>
      rw [List.length_cons] at hf
      have hroom : 2 * cs.length ≤ fuel := by omega
      obtain ⟨ts, hitems, hkeep⟩ := scanItems_spelled h hroom rest
      refine ⟨.list ts .closed, ?_, keeps_list hkeep⟩
      rw [List.cons_append, scan, skipSpace_cons (by decide)]
      simp only [hitems]
  | @Spelled.object fs cs h =>
      rw [List.length_cons] at hf
      have hroom : 2 * cs.length ≤ fuel := by omega
      obtain ⟨ts, hfields, hkeep⟩ := scanFields_spelled h hroom rest
      refine ⟨.object ts .closed, ?_, keeps_object hkeep⟩
      rw [List.cons_append, scan, skipSpace_cons (by decide)]
      simp only [hfields]

theorem scanItems_spelled {first : Bool} {js : List Json} {cs : List Char}
    (h : SpelledItems first js cs) {fuel : Nat} (hf : 2 * cs.length ≤ fuel) (rest : List Char) :
    ∃ ts, scanItems fuel first (cs ++ rest) = (ts, .closed, some rest) ∧
      ∀ room, depthItems js < room → keepItems room ts = .ok js := by
  obtain ⟨fuel, rfl⟩ : ∃ n, fuel = n + 1 := by
    have hpos := h.length_pos
    exact ⟨fuel - 1, by omega⟩
  match h with
  | @SpelledItems.nil _ gap hgap =>
      have hnext : Frame.list.next first (gap ++ ']' :: rest) = .close rest :=
        Frame.next_close .list first hgap (by decide) rest
      refine ⟨[], ?_, fun _ _ => rfl⟩
      rw [List.append_assoc, List.singleton_append, scanItems, hnext]
  | @SpelledItems.cons _ j js mark cs more hmark hj hjs =>
      have hends := hjs.endsNumeral rest
      have hleft := hjs.length_pos
      obtain ⟨c, ds, he, hspace, hclose, -⟩ := hj.opens
      have hopen : 0 < cs.length := by
        rw [he]
        exact Nat.succ_pos _
      simp only [List.length_append] at hf
      have hroom : 2 * cs.length ≤ fuel := by omega
      have hless : 2 * more.length ≤ fuel := by omega
      obtain ⟨t, hscan, hkeep⟩ := scan_spelled hj hroom hends
      obtain ⟨ts, hitems, hkeeps⟩ := scanItems_spelled hjs hless rest
      have hnext := Frame.next_part .list hmark (by decide) hspace hclose (ds ++ (more ++ rest))
      rw [← List.cons_append, ← he] at hnext
      refine ⟨t :: ts, ?_, ?_⟩
      · rw [List.append_assoc, List.append_assoc, scanItems, hnext]
        simp only [hscan, hitems]
      · intro room hroom
        rw [depthItems] at hroom
        rw [keepItems, hkeep room (by omega), hkeeps room (by omega)]
        rfl

theorem scanFields_spelled {first : Bool} {fs : List (String × Json)} {cs : List Char}
    (h : SpelledFields first fs cs) {fuel : Nat} (hf : 2 * cs.length ≤ fuel) (rest : List Char) :
    ∃ ts, scanFields fuel first (cs ++ rest) = (ts, .closed, some rest) ∧
      ∀ room, depthFields fs < room → keepFields room ts = .ok fs := by
  match h with
  | @SpelledFields.nil _ gap hgap =>
      rw [List.length_append, List.length_singleton] at hf
      obtain ⟨fuel, rfl⟩ : ∃ n, fuel = n + 1 := ⟨fuel - 1, by omega⟩
      have hnext : Frame.object.next first (gap ++ '\x7d' :: rest) = .close rest :=
        Frame.next_close .object first hgap (by decide) rest
      refine ⟨[], ?_, fun _ _ => rfl⟩
      rw [List.append_assoc, List.singleton_append, scanFields, hnext]
  | @SpelledFields.cons _ k j fs mark name gap gap' cs more hmark hname hgap hgap' hj hfs =>
      have hends := hfs.endsNumeral rest
      simp only [List.length_append, List.length_cons] at hf
      -- The quotes and the colon pay for this step.
      obtain ⟨fuel, rfl⟩ : ∃ n, fuel = n + 1 := ⟨fuel - 1, by omega⟩
      have hroom : 2 * cs.length ≤ fuel := by omega
      have hless : 2 * more.length ≤ fuel := by omega
      obtain ⟨t, hscan, hkeep⟩ := scan_spelled hj hroom hends
      obtain ⟨ts, hfields, hkeeps⟩ := scanFields_spelled hfs hless rest
      have hnext := Frame.next_part .object hmark (c := '"') (by decide) (by decide) (by decide)
        (name ++ '"' :: (gap ++ ':' :: (gap' ++ (cs ++ (more ++ rest)))))
      refine ⟨(.ok k, t) :: ts, ?_, ?_⟩
      · simp only [List.append_assoc, List.cons_append]
        rw [scanFields, hnext]
        simp only [scanText_spelled hname, afterName_space hgap, scan_space hgap', hscan, hfields]
      · intro room hroom
        rw [depthFields] at hroom
        rw [keepFields, hkeep room (by omega), hkeeps room (by omega)]
        rfl
end

/-- A text of a value is a document of which the value is kept, with nothing but blanks behind
it. -/
theorem ofText_of_hasText {j : Json} {text : List Char} (h : j.HasText text) :
    ∃ t gap, ofText text = (t, some gap) ∧ IsSpace gap ∧ t.Keeps j := by
  obtain ⟨gap, cs, gap', hgap, hgap', hspelled, rfl⟩ := h
  have hends : EndsNumeral gap' := by
    have hspace := endsNumeral_space hgap' endsNumeral_nil
    rwa [List.append_nil] at hspace
  have hfuel : 2 * cs.length ≤ 2 * (gap ++ (cs ++ gap')).length + 2 := by
    simp only [List.length_append]
    omega
  obtain ⟨t, hscan, hkeep⟩ := scan_spelled hspelled hfuel hends
  refine ⟨t, gap', ?_, hgap', hkeep⟩
  rw [ofText, scan_space hgap, hscan]

end Tree

end Almanac.Json
