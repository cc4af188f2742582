import Mathlib
import Almanac.Toml.Quotes

/-!
# A quoted text is read back

`Quotes.Spells` says which characters between the marks spell a text: between the pieces
that spell a single character each there may be a few bare marks, as many as a block allows
in a row.  Whatever spells a text is read as this text (`Spells.body`), and what is written
spells the text, be it with escapes or without.  So every text comes back from the marks
that suit it: `text_quoted`.
-/

namespace Almanac.Toml

namespace Quotes

variable {q : Quotes} {spot last : Spot} {c : Char} {cs e rest s written : List Char}

/-! ## Pieces without bare marks -/

/-- Reads characters among which no mark could close the text: where the reader stands after
them, and what they add to the text. -/
def run (q : Quotes) (spot : Spot) : List Char → Option (Spot × List Char)
  | [] => some (spot, [])
  | c :: cs =>
    if spot.isOpen && c == q.mark then none
    else
      match q.step spot c with
      | none => none
      | some (spot, front) => (q.run spot cs).map fun (last, s) => (last, front ++ s)

/-- What is read after some characters of the text. -/
def after (front : List Char) (found : Option (List Char × List Char)) :
    Option (List Char × List Char) :=
  found.map fun (s, rest) => (front ++ s, rest)

theorem after_nil (found : Option (List Char × List Char)) : after [] found = found := by
  cases found <;> rfl

theorem after_after (front back : List Char) (found : Option (List Char × List Char)) :
    after front (after back found) = after (front ++ back) found := by
  cases found <;> simp [after]

theorem close?_of_ne (h : c ≠ q.mark) (cs : List Char) : q.close? (c :: cs) = none := by
  unfold close?
  exact if_pos h

theorem body_cons {front : List Char}
    (hopen : spot.isOpen = true → q.close? (c :: cs) = none)
    (hstep : q.step spot c = some (last, front)) :
    q.body spot (c :: cs) = after front (q.body last cs) := by
  have hnone : (if spot.isOpen then q.close? (c :: cs) else none) = none := by
    split
    · exact hopen ‹_›
    · rfl
  rw [body, hnone]
  simp only [hstep]
  cases q.body last cs <;> rfl

/-- What is read without a mark is read in front of anything. -/
theorem body_run (h : q.run spot e = some (last, s)) (rest : List Char) :
    q.body spot (e ++ rest) = after s (q.body last rest) := by
  induction e generalizing spot s with
  | nil =>
      cases h
      exact (after_nil _).symm
  | cons c cs ih =>
      rw [run] at h
      split at h
      · contradiction
      · rename_i hmark
        split at h
        · contradiction
        · rename_i hstep
          obtain ⟨⟨last', t⟩, ht, he⟩ := Option.map_eq_some_iff.mp h
          cases he
          have hopen : spot.isOpen = true → q.close? (c :: (cs ++ rest)) = none := by
            intro hspot
            rw [hspot, Bool.true_and, beq_iff_eq] at hmark
            exact close?_of_ne hmark _
          rw [List.cons_append, body_cons hopen hstep, ih ht, after_after]

theorem run_ne_mark (h : q.run .plain (c :: cs) = some (last, s)) : c ≠ q.mark := by
  rintro rfl
  rw [run, Spot.isOpen, Bool.true_and, beq_self_eq_true, if_pos rfl] at h
  contradiction

theorem piece_cons (h : q.run .plain e = some (.plain, [c])) :
    ∃ d ds, e = d :: ds ∧ d ≠ q.mark := by
  cases e with
  | nil => cases h
  | cons d ds => exact ⟨d, ds, rfl, run_ne_mark h⟩

/-- The first half of a line break of two characters is no part of any text. -/
theorem step_return (q : Quotes) (spot : Spot) : q.step spot '\r' = none := by
  rcases q with ⟨_ | _, _ | _⟩ <;> cases spot <;> rfl

theorem run_noReturn (h : q.run spot e = some (last, s)) : '\r' ∉ e := by
  induction e generalizing spot s with
  | nil => exact List.not_mem_nil
  | cons c cs ih =>
      rw [run] at h
      split at h
      · contradiction
      · split at h
        · contradiction
        · rename_i hstep
          obtain ⟨⟨last', t⟩, ht, he⟩ := Option.map_eq_some_iff.mp h
          cases he
          rw [List.mem_cons, not_or]
          refine ⟨?_, ih ht⟩
          rintro rfl
          rw [step_return] at hstep
          contradiction

/-! ## Bare marks -/

theorem le_spareMarks_iff {k : Nat} :
    k ≤ q.spareMarks ↔ k = 0 ∨ q.block = true ∧ (k = 1 ∨ k = 2) := by
  rcases hblock : q.block with _ | _ <;> simp only [spareMarks, hblock] <;> grind

theorem body_mark (hopen : q.close? (q.mark :: rest) = none) :
    q.body .plain (q.mark :: rest) = after [q.mark] (q.body .plain rest) := by
  refine body_cons (fun _ => hopen) ?_
  rcases q with ⟨_ | _, _ | _⟩ <;> rfl

theorem body_marks {k : Nat} (few : k ≤ q.spareMarks) {d : Char} (hd : d ≠ q.mark)
    (rest : List Char) :
    q.body .plain (List.replicate k q.mark ++ d :: rest)
      = after (List.replicate k q.mark) (q.body .plain (d :: rest)) := by
  rcases le_spareMarks_iff.mp few with rfl | ⟨hblock, hk⟩
  · exact (after_nil _).symm
  · have hone : q.close? (q.mark :: d :: rest) = none := by
      unfold close?
      cases rest <;> simp [hblock, hd]
    rcases hk with rfl | rfl
    · exact body_mark hone
    · have htwo : q.close? (q.mark :: q.mark :: d :: rest) = none := by
        unfold close?
        simp [hblock, hd]
      show q.body .plain (q.mark :: q.mark :: d :: rest) = _
      rw [body_mark htwo, body_mark hone, after_after]
      rfl

theorem body_of_close? {found : List Char × List Char} (h : q.close? (c :: cs) = some found) :
    q.body .plain (c :: cs) = some found := by
  rw [body, if_pos (by rfl), h]

/-- A block ends with three marks and those that follow them, up to two. -/
theorem close?_block {k : Nat} (hblock : q.block = true) (hk : k ≤ 2)
    (hrest : ∀ d ∈ rest.head?, d ≠ q.mark) :
    q.close? (q.mark :: q.mark :: q.mark :: (List.replicate k q.mark ++ rest))
      = some (List.replicate k q.mark, rest) := by
  have hmore : ((List.replicate k q.mark ++ rest).take 2).takeWhile (· == q.mark)
      = List.replicate k q.mark := by
    obtain rfl | rfl | rfl : k = 0 ∨ k = 1 ∨ k = 2 := by omega
    all_goals
      rcases rest with _ | ⟨d, ds⟩
      · simp [List.replicate]
      · simp [List.replicate, hrest d rfl]
  unfold close?
  simp [hblock, hmore]

theorem body_close {k : Nat} (few : k ≤ q.spareMarks) (hrest : ∀ d ∈ rest.head?, d ≠ q.mark) :
    q.body .plain (List.replicate k q.mark ++ q.marks ++ rest)
      = some (List.replicate k q.mark, rest) := by
  rcases hblock : q.block with _ | _
  · rw [spareMarks, hblock] at few
    obtain rfl := Nat.le_zero.mp few
    rw [marks, hblock]
    refine body_of_close? ?_
    unfold close?
    simp [hblock]
  · rw [spareMarks, hblock] at few
    have hmarks : List.replicate k q.mark ++ q.marks ++ rest
        = q.mark :: q.mark :: q.mark :: (List.replicate k q.mark ++ rest) := by
      rw [marks, hblock, if_pos rfl, List.replicate_append_replicate, Nat.add_comm,
        ← List.replicate_append_replicate]
      simp [List.replicate]
    rw [hmarks]
    exact body_of_close? (close?_block hblock few hrest)

/-! ## Texts -/

/-- The characters that spell a text: its pieces, with bare marks between them. -/
inductive Spells (q : Quotes) : (s written : List Char) → Prop where
  | stop {k : Nat} (few : k ≤ q.spareMarks) :
      Spells q (List.replicate k q.mark) (List.replicate k q.mark)
  | go {k : Nat} {c : Char} {e s written : List Char} (few : k ≤ q.spareMarks)
      (piece : q.run .plain e = some (.plain, [c])) (spells : Spells q s written) :
      Spells q (List.replicate k q.mark ++ c :: s) (List.replicate k q.mark ++ e ++ written)

/-- **What spells a text is read as this text**, up to the closing marks. -/
theorem Spells.body (h : q.Spells s written) (hrest : ∀ d ∈ rest.head?, d ≠ q.mark) :
    q.body .plain (written ++ q.marks ++ rest) = some (s, rest) := by
  induction h with
  | stop few => exact body_close few hrest
  | @go k c e s written few piece spells ih =>
      obtain ⟨d, ds, rfl, hd⟩ := piece_cons piece
      have hread := body_run piece (written ++ q.marks ++ rest)
      have hmarks := body_marks few hd (ds ++ (written ++ q.marks ++ rest))
      rw [ih, List.cons_append] at hread
      rw [hread] at hmarks
      simp only [List.append_assoc, List.cons_append] at hmarks ⊢
      exact hmarks

theorem ne_mark (q : Quotes) (hdouble : c ≠ '"') (hsingle : c ≠ '\x27') : c ≠ q.mark := by
  unfold mark
  split
  · exact hdouble
  · exact hsingle

theorem Spells.noReturn (h : q.Spells s written) : '\r' ∉ written := by
  have hmark : ∀ k, '\r' ∉ List.replicate k q.mark := fun k hin =>
    q.ne_mark (by decide) (by decide) (List.eq_of_mem_replicate hin)
  induction h with
  | stop => exact hmark _
  | go few piece spells ih =>
      rw [List.mem_append, List.mem_append, not_or, not_or]
      exact ⟨⟨hmark _, run_noReturn piece⟩, ih⟩

theorem Spells.head_ne (h : q.Spells s written) (hblock : q.block = false) :
    ∀ d ∈ written.head?, d ≠ q.mark := by
  have hnone : ∀ {k}, k ≤ q.spareMarks → k = 0 := fun hk => by
    rw [spareMarks, hblock] at hk
    exact Nat.le_zero.mp hk
  cases h with
  | stop few =>
      rw [hnone few]
      exact nofun
  | go few piece =>
      obtain ⟨d, ds, rfl, hd⟩ := piece_cons piece
      rw [hnone few]
      rintro d' hd'
      cases hd'
      exact hd

theorem Spells.of_lineBreak (h : q.Spells s ('\n' :: cs)) : '\n' ∈ s := by
  have hmark : '\n' ≠ q.mark := q.ne_mark (by decide) (by decide)
  generalize hw : '\n' :: cs = written at h
  cases h with
  | @stop k few =>
      cases k with
      | zero => cases hw
      | succ k => exact absurd (List.cons.inj hw).1 hmark
  | @go k c e t rest few piece spells =>
      cases k with
      | succ k => exact absurd (List.cons.inj hw).1 hmark
      | zero =>
          obtain ⟨d, ds, rfl, -⟩ := piece_cons piece
          obtain ⟨rfl, -⟩ := List.cons.inj hw
          rw [run] at piece
          split at piece
          · contradiction
          · split at piece
            · contradiction
            · rename_i hstep
              obtain ⟨⟨last, t'⟩, -, he⟩ := Option.map_eq_some_iff.mp piece
              have hfront : q.step .plain '\n' =
                  if q.block then some (.plain, ['\n']) else none := by
                rcases q with ⟨_ | _, _ | _⟩ <;> rfl
              rw [hfront] at hstep
              split at hstep
              · cases hstep
                have hc : '\n' :: t' = [c] := (Prod.mk.inj he).2
                rw [← (List.cons.inj hc).1]
                exact List.mem_cons_self
              · contradiction

/-! ## What is written -/

theorem run_plain (hmark : c ≠ q.mark) (hstep : q.plainStep c = some (.plain, [c])) :
    q.run .plain [c] = some (.plain, [c]) := by
  have hopen : (Spot.plain.isOpen && c == q.mark) = false := by simp [hmark]
  rw [run, hopen]
  simp [step, hstep, run]

theorem toNat_lt_of_escape? (h : q.escape? c = some e) : c.toNat < 128 := by
  unfold escape? at h
  split at h
  case h_7 =>
    split at h
    · contradiction
    · rename_i hplain
      simp only [isPlain, Bool.or_eq_true, Bool.and_eq_true, decide_eq_true_eq, bne_iff_ne]
        at hplain
      omega
  all_goals decide

theorem run_escape (hdouble : q.double = true) (h : q.escape? c = some e) :
    q.run .plain e = some (.plain, [c]) := by
  have hall : ∀ (b : Bool) (n : Fin 128), ∀ e ∈ (Quotes.mk true b).escape? (Char.ofNat n),
      (Quotes.mk true b).run .plain e = some (.plain, [Char.ofNat n]) := by decide +kernel
  rcases q with ⟨d, b⟩
  obtain rfl : d = true := hdouble
  have hsmall := hall b ⟨c.toNat, toNat_lt_of_escape? h⟩
  simp only [Char.ofNat_toNat] at hsmall
  exact hsmall e h

theorem plainStep_eq (hback : ¬(c = '\\' ∧ q.double = true)) (hline : c = '\n' → q.block = true)
    (hplain : c ≠ '\n' → isPlain c = true) : q.plainStep c = some (.plain, [c]) := by
  rw [plainStep, if_neg hback]
  split
  · exact if_pos (hline ‹_›)
  · exact if_pos (hplain ‹_›)

theorem plainStep_of_escape? (h : q.escape? c = none) : q.plainStep c = some (.plain, [c]) := by
  unfold escape? at h
  split at h
  case h_3 =>
    have hblock : q.block = true := by
      by_contra hb
      rw [if_neg hb] at h
      contradiction
    exact plainStep_eq (fun hc => by cases hc.1) (fun _ => hblock) (fun hc => absurd rfl hc)
  case h_7 hline _ _ hback =>
    split at h
    · rename_i hplain
      exact plainStep_eq (fun hc => hback hc.1) (fun hc => absurd hc hline) (fun _ => hplain)
    · contradiction
  all_goals contradiction

/-- What is written with escapes spells the text, after some marks in a row. -/
theorem spells_escaped (hdouble : q.double = true) (row : Nat) (hrow : row ≤ q.spareMarks) :
    q.Spells (List.replicate row q.mark ++ cs)
      (List.replicate row q.mark ++ q.escaped row cs) := by
  have hmark : q.mark = '"' := if_pos hdouble
  induction cs generalizing row with
  | nil =>
      rw [escaped, List.append_nil]
      exact .stop hrow
  | cons c cs ih =>
      have hnext : q.Spells cs (q.escaped 0 cs) := ih 0 (Nat.zero_le _)
      rw [escaped]
      split
      · rename_i hc
        subst hc
        split
        · rename_i hmore
          have hsame : ∀ rest, List.replicate row q.mark ++ '"' :: rest
              = List.replicate (row + 1) q.mark ++ rest := by
            intro rest
            rw [List.replicate_succ', List.append_assoc, hmark]
            rfl
          rw [hsame, hsame]
          exact ih _ hmore
        · have hpiece : q.run .plain ['\\', '"'] = some (.plain, ['"']) := by
            rcases q with ⟨_ | _, _ | _⟩ <;> first | rfl | contradiction
          simpa using Spells.go hrow hpiece hnext
      · rename_i hc
        split
        · rename_i e he
          simpa using Spells.go hrow (run_escape hdouble he) hnext
        · rename_i he
          have hpiece := run_plain (hmark ▸ hc) (plainStep_of_escape? he)
          simpa using Spells.go hrow hpiece hnext

theorem spells_literal (hdouble : q.double = false) (hplain : ∀ c ∈ cs, needsEscape c = false)
    (hlines : q.block = false → '\n' ∉ cs) (row : Nat)
    (hrow : longestRow q.mark row cs ≤ q.spareMarks) :
    q.Spells (List.replicate row q.mark ++ cs) (List.replicate row q.mark ++ cs) := by
  induction cs generalizing row with
  | nil =>
      rw [List.append_nil]
      exact .stop hrow
  | cons c cs ih =>
      have hplain' : ∀ c ∈ cs, needsEscape c = false := fun c hc =>
        hplain c (List.mem_cons_of_mem _ hc)
      have hlines' : q.block = false → '\n' ∉ cs := fun hb hc =>
        hlines hb (List.mem_cons_of_mem _ hc)
      rw [longestRow] at hrow
      split at hrow
      · rename_i hc
        have hsame : List.replicate row q.mark ++ c :: cs
            = List.replicate (row + 1) q.mark ++ cs := by
          rw [List.replicate_succ', List.append_assoc, hc]
          rfl
        rw [hsame]
        exact ih hplain' hlines' _ hrow
      · rename_i hc
        have hstep : q.plainStep c = some (.plain, [c]) := by
          refine plainStep_eq (fun hb => ?_) (fun hn => ?_) (fun hn => ?_)
          · exact absurd (hdouble.symm.trans hb.2) Bool.false_ne_true
          · by_contra hb
            exact hlines (Bool.eq_false_iff.mpr hb) (hn ▸ List.mem_cons_self)
          · have hneeds := hplain c List.mem_cons_self
            simpa [needsEscape, hn] using hneeds
        have hnext : q.Spells cs cs :=
          ih hplain' hlines' 0 (Nat.le_trans (Nat.le_max_right _ _) hrow)
        have hspells :=
          Spells.go (Nat.le_trans (Nat.le_max_left _ _) hrow) (run_plain hc hstep) hnext
        simpa using hspells

def inner (q : Quotes) (cs : List Char) : List Char := if q.double then q.escaped 0 cs else cs

theorem write_eq (q : Quotes) (cs : List Char) :
    q.write cs = q.marks ++ ((if q.block && cs.contains '\n' then ['\n'] else [])
      ++ (q.inner cs ++ q.marks)) := by
  simp only [write, inner, List.append_assoc]

/-- **The marks that suit a text spell it.** -/
theorem spells_forText (cs : List Char) : (forText cs).Spells cs ((forText cs).inner cs) := by
  have hescaped : ∀ b, (Quotes.mk true b).Spells cs ((Quotes.mk true b).inner cs) := fun b =>
    spells_escaped rfl 0 (Nat.zero_le _)
  have hliteral : ∀ b, cs.any needsEscape = false → (b = false → '\n' ∉ cs) →
      longestRow '\x27' 0 cs ≤ (Quotes.mk false b).spareMarks →
        (Quotes.mk false b).Spells cs ((Quotes.mk false b).inner cs) := by
    intro b hstrange hlines hrow
    refine spells_literal rfl (fun c hc => ?_) hlines 0 hrow
    exact Bool.eq_false_iff.mpr (List.any_eq_false.mp hstrange c hc)
  unfold forText
  simp only [Bool.and_eq_true, Bool.not_eq_true', beq_iff_eq, decide_eq_true_eq]
  split
  · exact hescaped false
  · split
    · rename_i hone
      refine hliteral false hone.1.1 (fun _ => ?_) (Nat.le_of_eq hone.1.2)
      simpa using hone.2
    · split
      · exact hescaped true
      · split
        · rename_i hblock
          exact hliteral true hblock.1 nofun hblock.2
        · exact hescaped _

end Quotes

open Quotes

def NoMark (rest : List Char) : Prop := ∀ c ∈ rest.head?, c ≠ '"' ∧ c ≠ '\x27'

theorem NoMark.ne (h : NoMark rest) (q : Quotes) : ∀ d ∈ rest.head?, d ≠ q.mark :=
  fun d hd => q.ne_mark (h d hd).1 (h d hd).2

theorem open?_line {double : Bool} {cs : List Char}
    (h : ∀ more, cs ≠ (Quotes.mk double false).mark :: (Quotes.mk double false).mark :: more) :
    open? ((Quotes.mk double false).mark :: cs) = some (⟨double, false⟩, cs) := by
  cases double with
  | false =>
      show open? ('\x27' :: cs) = _
      unfold open?
      split
      case h_2 heq =>
        cases heq
        exact absurd rfl (h _)
      case h_4 heq =>
        cases heq
        rfl
      case h_5 hother => exact absurd rfl (hother _)
      all_goals
        rename_i heq
        cases heq
  | true =>
      show open? ('"' :: cs) = _
      unfold open?
      split
      case h_1 heq =>
        cases heq
        exact absurd rfl (h _)
      case h_3 heq =>
        cases heq
        rfl
      case h_5 hother _ => exact absurd rfl (hother _)
      all_goals
        rename_i heq
        cases heq

/-- Three marks open a block, and a line break after them is no part of it. -/
theorem open?_block (double : Bool) (cs : List Char) :
    open? ((Quotes.mk double true).marks ++ cs) = some (⟨double, true⟩, skipBreak cs) := by
  cases double <;> rfl

theorem skipBreak_of_ne {cs : List Char} (h : ∀ c ∈ cs.head?, c ≠ '\n') : skipBreak cs = cs := by
  unfold skipBreak
  split
  · exact absurd rfl (h _ rfl)
  · rfl

theorem open?_write {q : Quotes} {cs rest : List Char} (h : q.Spells cs (q.inner cs))
    (hrest : NoMark rest) :
    open? (q.write cs ++ rest) = some (q, q.inner cs ++ q.marks ++ rest) := by
  rw [write_eq]
  rcases q with ⟨double, _ | _⟩
  · rw [show ∀ tail, (Quotes.mk double false).marks ++ tail
        = (Quotes.mk double false).mark :: tail from fun _ => rfl]
    simp only [Bool.false_and, Bool.false_eq_true, if_false, List.nil_append, List.cons_append,
      List.append_assoc]
    refine open?_line fun more hmore => ?_
    have hhead := h.head_ne rfl
    rcases hinner : (Quotes.mk double false).inner cs with _ | ⟨d, ds⟩ <;>
      rw [hinner] at hmore hhead
    · -- Nothing is between the marks, and no mark follows them.
      have hnext : rest = (Quotes.mk double false).mark :: more := (List.cons.inj hmore).2
      exact hrest.ne ⟨double, false⟩ _ (by rw [hnext]; rfl) rfl
    · exact hhead d rfl (List.cons.inj hmore).1
  · rw [List.append_assoc, open?_block]
    simp only [Bool.true_and, List.append_assoc, Option.some.injEq, Prod.mk.injEq, true_and]
    split
    · rfl
    · rename_i hlines
      rw [List.nil_append]
      refine skipBreak_of_ne fun c hc he => ?_
      subst he
      rcases hinner : (Quotes.mk double true).inner cs with _ | ⟨d, ds⟩ <;> rw [hinner] at hc h
      · cases double <;> cases hc
      · cases hc
        exact hlines (List.contains_iff_mem.mpr h.of_lineBreak)

/-- **Every text is read back from between its marks.** -/
theorem text_quoted (s : String) {rest : List Char} (hrest : NoMark rest) :
    text (quoted s ++ rest) = some (s, rest) := by
  have hspells := spells_forText s.toList
  rw [text, quoted, open?_write hspells hrest]
  simp only [hspells.body (hrest.ne _), Option.map_some, String.ofList_toList]

theorem noReturn_quoted (s : String) : '\r' ∉ quoted s := by
  have hmarks : '\r' ∉ (forText s.toList).marks := fun hin =>
    ne_mark _ (by decide) (by decide) (List.eq_of_mem_replicate hin)
  have hinner := (spells_forText s.toList).noReturn
  rw [quoted, write_eq]
  simp only [List.mem_append, not_or]
  refine ⟨hmarks, ?_, hinner, hmarks⟩
  split <;> simp

theorem quoted_cons (s : String) : ∃ c cs, quoted s = c :: cs ∧ (c = '"' ∨ c = '\x27') := by
  rw [quoted, write_eq]
  rcases forText s.toList with ⟨_ | _, _ | _⟩
  all_goals first
    | exact ⟨'"', _, rfl, .inl rfl⟩
    | exact ⟨'\x27', _, rfl, .inr rfl⟩

end Almanac.Toml
