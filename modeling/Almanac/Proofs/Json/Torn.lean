import Mathlib
import Almanac.Proofs.Json.Cut
import Almanac.Proofs.Json.Scan

/-!
# The trees of texts that break off

`Torn j t` says that `t` is the tree of a text of `j` that breaks off somewhere inside.  Up
to that place it holds what the whole text holds, and there it holds the fault of a text that
ended too early, or a number with fewer digits in front of such a fault.  `Tree.scan_cut`: the
text of a value that is cut off anywhere is scanned into a torn tree.
-/

namespace Almanac.Json

/-! ## Torn trees -/

mutual
/-- The tree of a text that breaks off inside a value. -/
inductive Torn : Json → Tree → Prop where
  | broken {j : Json} {b : Break} {begun : Bool} (h : b.read.isEnd = true) : Torn j (.broken b begun)
  | list {js : List Json} {ts : List Tree} {stop : Stop Tree} (h : TornItems js ts stop) :
      Torn (.list js) (.list ts stop)
  | object {fs : List (String × Json)} {ts : List (String × Tree)} {stop : Stop Tree}
      (h : TornFields fs ts stop) : Torn (.object fs) (.object (Tree.named ts) stop)
inductive TornItems : List Json → List Tree → Stop Tree → Prop where
  | cut {js : List Json} {comma : Bool} {b : Break} (h : b.read.isEnd = true) :
      TornItems js [] (.cut comma b)
  | inside {j : Json} {js : List Json} {t : Tree} (h : Torn j t) : TornItems (j :: js) [t] .inside
  | short {v : Number} {n : Numeral} {js : List Json} {comma : Bool} {b : Break}
      (hn : (Numeral.of v).Shortened n) (h : b.read.isEnd = true) :
      TornItems (.number v :: js) [.number n] (.cut comma b)
  | whole {j : Json} {js : List Json} {ts : List Tree} {stop : Stop Tree}
      (h : TornItems js ts stop) : TornItems (j :: js) (Tree.of j :: ts) stop
inductive TornFields : List (String × Json) → List (String × Tree) → Stop Tree → Prop where
  | cut {fs : List (String × Json)} {comma : Bool} {b : Break} (h : b.read.isEnd = true) :
      TornFields fs [] (.cut comma b)
  | inside {k : String} {j : Json} {fs : List (String × Json)} {t : Tree} (h : Torn j t) :
      TornFields ((k, j) :: fs) [(k, t)] .inside
  | short {k : String} {v : Number} {n : Numeral} {fs : List (String × Json)} {comma : Bool}
      {b : Break} (hn : (Numeral.of v).Shortened n) (h : b.read.isEnd = true) :
      TornFields ((k, .number v) :: fs) [(k, .number n)] (.cut comma b)
  | whole {k : String} {j : Json} {fs : List (String × Json)} {ts : List (String × Tree)}
      {stop : Stop Tree} (h : TornFields fs ts stop) :
      TornFields ((k, j) :: fs) ((k, Tree.of j) :: ts) stop
end

theorem TornFields.names {fs : List (String × Json)} {ts : List (String × Tree)}
    {stop : Stop Tree} (h : TornFields fs ts stop) : ts.map Prod.fst <+: fs.map Prod.fst := by
  match h with
  | .cut _ => exact List.nil_prefix
  | .inside _ => exact ⟨_, rfl⟩
  | .short _ _ => exact ⟨_, rfl⟩
  | .whole h =>
      rw [List.map_cons, List.map_cons, List.prefix_cons_inj]
      exact TornFields.names h

namespace Tree

/-- What is scanned of a text that breaks off: a torn tree with nothing behind it, or a number
with fewer digits, whose end is not noticed before the next part is asked for. -/
inductive ScannedCut : Json → Tree × Rest → Prop where
  | torn {j : Json} {t : Tree} (h : Torn j t) : ScannedCut j (t, none)
  | short {v : Number} {n : Numeral} (h : (Numeral.of v).Shortened n) :
      ScannedCut (.number v) (.number n, some [])

/-! ## Scalars -/

theorem scan_nil (j : Json) (fuel : Nat) : ScannedCut j (scan fuel []) := by
  cases fuel with
  | zero => exact .torn (.broken rfl)
  | succ fuel => exact .torn (.broken rfl)

theorem ofWord_cut (j : Json) (t : Tree) {word cut : List Char} (h : IsCut cut word) :
    ScannedCut j (ofWord word t cut) := by
  rw [ofWord, scanWord_cut h]
  exact .torn (.broken rfl)

theorem ofNumeral_cut {v : Number} {cut : List Char} (h : IsCut cut (Numeral.of v).unsigned) :
    ScannedCut (.number v) (ofNumeral (Numeral.of v).negative cut) := by
  rw [ofNumeral]
  rcases Numeral.scanNumeral_cut (Numeral.isSpelled_of v) h with ⟨b, hb, hend⟩ | ⟨n, hn, hscan⟩
  · rw [hb]
    exact .torn (.broken hend)
  · rw [hscan]
    exact .short hn

/-- A scalar that is cut off behind its first character is read as what that one begins. -/
theorem scan_cut_scalar {j : Json} {fuel : Nat} {c : Char} {cs cut : List Char}
    (hspace : isSpace c = false) (hlist : c ≠ '[') (hobject : c ≠ '\x7b') (h : IsCut cut (c :: cs))
    (hscan : ∀ more, IsCut more cs → ScannedCut j (ofScalar (c :: more))) :
    ScannedCut j (scan (fuel + 1) cut) := by
  rcases h.of_cons with rfl | ⟨more, rfl, hmore⟩
  · exact scan_nil j _
  · rw [scan_scalar fuel hspace hlist hobject]
    exact hscan more hmore

theorem scan_cut_number {v : Number} {fuel : Nat} {cut : List Char} (h : IsCut cut v.write) :
    ScannedCut (.number v) (scan (fuel + 1) cut) := by
  obtain ⟨c, cs, he, hopen⟩ := opens_number v
  rw [he] at h
  refine scan_cut_scalar hopen.opens.1 (hopen.ne (by decide) (by decide))
    (hopen.ne (by decide) (by decide)) h ?_
  intro more hmore
  rw [← Numeral.text_of, Numeral.text] at he
  -- The sign, if there is one, is the first character.
  by_cases hneg : (Numeral.of v).negative
  · rw [if_pos hneg] at he
    obtain ⟨rfl, rfl⟩ := List.cons.inj he
    have hnum := ofNumeral_cut hmore
    rwa [hneg] at hnum
  · rw [if_neg hneg] at he
    rw [Bool.not_eq_true] at hneg
    have hspelled := (Numeral.isSpelled_of v).whole
    obtain ⟨d, ds, hd⟩ := List.exists_cons_of_ne_nil hspelled.1
    have hfirst : d.isDigit = true := hspelled.2 d (hd ▸ List.mem_cons_self)
    have hcut : IsCut (c :: more) (Numeral.of v).unsigned := by
      obtain ⟨e, rest, rfl⟩ := hmore
      exact ⟨e, rest, he⟩
    rw [Numeral.unsigned, hd] at he
    obtain ⟨rfl, -⟩ := List.cons.inj he
    have hnum := ofNumeral_cut hcut
    rwa [hneg, ← ofScalar_digit hfirst] at hnum

/-! ## Parts of lists and objects -/

/-- Whether the ends of a frame are those of a text that ended too early. -/
def Frame.NoticesEnd (frame : Frame) : Prop :=
  frame.unfinished.isEnd = true ∧ frame.endAfterComma.read.isEnd = true

/-- Behind a part that is cut off there is nothing, or its comma, or its beginning. -/
theorem Frame.next_cut {frame : Frame} (hend : frame.NoticesEnd) (first : Bool)
    (hcomma : ',' ≠ frame.close) {cut part : List Char}
    (hopen : ∀ c ∈ part.head?, isSpace c = false ∧ c ≠ frame.close)
    (h : IsCut cut ((if first then [] else [',']) ++ part)) :
    (∃ comma b, frame.next first cut = .fault comma b ∧ b.read.isEnd = true) ∨
      ∃ cs, cs ≠ [] ∧ cut = (if first then [] else [',']) ++ cs ∧ IsCut cs part ∧
        frame.next first cut = .part cs := by
  rcases h.of_append with hmark | ⟨more, rfl, hmore⟩
  · cases first with
    | true => exact absurd hmark not_isCut_nil
    | false =>
        rw [hmark.of_singleton]
        exact .inl ⟨_, _, rfl, hend.1⟩
  cases more with
  | nil =>
      cases first with
      | true => exact .inl ⟨_, _, rfl, hend.1⟩
      | false =>
          refine .inl ⟨true, frame.endAfterComma, ?_, hend.2⟩
          have hskip : skipSpace [','] = [','] := skipSpace_cons (by decide) []
          have hempty : skipSpace [] = [] := rfl
          simp only [Bool.false_eq_true, if_false, List.append_nil, next, hskip, if_neg hcomma,
            if_true, hempty]
  | cons c more =>
      obtain ⟨hspace, hclose⟩ := hopen c (hmore.head? rfl)
      exact .inr ⟨c :: more, List.cons_ne_nil c more, rfl, hmore,
        Json.Frame.next_part frame (separates_mark first) hcomma hspace hclose more⟩

theorem scanItems_nil (fuel : Nat) (first : Bool) :
    scanItems fuel first [] = ([], .cut false (.both (.endOf .list)), none) := by
  cases fuel <;> rfl

theorem scanFields_nil (fuel : Nat) (first : Bool) :
    scanFields fuel first [] = ([], .cut false (.both (.endOf .object)), none) := by
  cases fuel <;> rfl

/-! ## Whole values -/

mutual
/-- **A text that breaks off is scanned into a torn tree**, unless it is a number of which
some digits are left. -/
theorem scan_cut (depth : Nat) (j : Json) {fuel : Nat} {cut : List Char}
    (hf : 2 * cut.length + 1 ≤ fuel) (h : IsCut cut (j.write .compact depth)) :
    ScannedCut j (scan fuel cut) := by
  obtain ⟨fuel, rfl⟩ : ∃ n, fuel = n + 1 := ⟨fuel - 1, by omega⟩
  match j with
  | .null =>
      exact scan_cut_scalar (by decide) (by decide) (by decide) h fun _ => ofWord_cut _ _
  | .bool true =>
      exact scan_cut_scalar (by decide) (by decide) (by decide) h fun _ => ofWord_cut _ _
  | .bool false =>
      exact scan_cut_scalar (by decide) (by decide) (by decide) h fun _ => ofWord_cut _ _
  | .number v => exact scan_cut_number h
  | .text s =>
      refine scan_cut_scalar (by decide) (by decide) (by decide) h fun more hmore => ?_
      have hscan : scanText .start more = .error (.both (.endOf .text)) := scanText_cut hmore []
      rw [ofScalar, hscan]
      exact .torn (.broken rfl)
  | .list items =>
      rw [write] at h
      rcases h.of_cons with rfl | ⟨more, rfl, hmore⟩
      · exact scan_nil _ _
      rw [List.length_cons] at hf
      have hroom : 2 * more.length + 2 ≤ fuel := by omega
      obtain ⟨ts, stop, hscan, htorn⟩ := scanItems_cut depth true items hroom hmore
      rw [scan, skipSpace_cons (by decide)]
      simp only [hscan]
      exact .torn (.list htorn)
  | .object fields =>
      rw [write] at h
      rcases h.of_cons with rfl | ⟨more, rfl, hmore⟩
      · exact scan_nil _ _
      rw [List.length_cons] at hf
      have hroom : 2 * more.length + 2 ≤ fuel := by omega
      obtain ⟨ts, stop, hscan, htorn⟩ := scanFields_cut depth true fields hroom hmore
      rw [scan, skipSpace_cons (by decide)]
      simp only [hscan]
      exact .torn (.object htorn)

theorem scanItems_cut (depth : Nat) (first : Bool) (items : List Json) {fuel : Nat}
    {cut : List Char} (hf : 2 * cut.length + 2 ≤ fuel)
    (h : IsCut cut (writeItems .compact depth first items)) :
    ∃ ts stop, scanItems fuel first cut = (ts, stop, none) ∧ TornItems items ts stop := by
  match items with
  | [] =>
      have hclose : IsCut cut [']'] := by simpa [writeItems, Layout.lead] using h
      rw [hclose.of_singleton, scanItems_nil]
      exact ⟨_, _, rfl, .cut rfl⟩
  | j :: js =>
      obtain ⟨fuel, rfl⟩ : ∃ n, fuel = n + 1 := ⟨fuel - 1, by omega⟩
      simp only [writeItems, Layout.lead, List.append_nil, List.append_assoc] at h
      have hopen : ∀ c ∈ (j.write .compact (depth + 1) ++ writeItems .compact depth false js).head?,
          isSpace c = false ∧ c ≠ Frame.list.close := by
        obtain ⟨d, ds, he, hspace, hclose, -⟩ := opens_write .compact (depth + 1) j
        rw [he]
        rintro c hc
        obtain rfl := Option.some.inj hc
        exact ⟨hspace, hclose⟩
      rw [scanItems]
      have hend : Frame.list.NoticesEnd := ⟨rfl, rfl⟩
      rcases Frame.next_cut hend first (by decide) hopen h with
        ⟨comma, b, hnext, hb⟩ | ⟨part, hne, rfl, hpart, hnext⟩
      · rw [hnext]
        exact ⟨_, _, rfl, .cut hb⟩
      rw [hnext]
      rw [List.length_append] at hf
      rcases hpart.of_append with hitem | ⟨left, rfl, hleft⟩
      · have hroom : 2 * part.length + 1 ≤ fuel := by omega
        have hscan := scan_cut (depth + 1) j hroom hitem
        generalize hresult : scan fuel part = result at hscan
        cases hscan with
        | torn htorn =>
            simp only [hresult]
            exact ⟨_, _, rfl, .inside htorn⟩
        | short hn =>
            simp only [hresult, scanItems_nil]
            exact ⟨_, _, rfl, .short hn rfl⟩
      · -- The item is whole, and one of those behind it is cut off.
        rw [List.length_append] at hf
        have hends := hleft.endsNumeral (by simpa using endsNumeral_writeItems .compact depth js [])
        have hroom : 2 * (j.write .compact (depth + 1)).length ≤ fuel := by omega
        have hscan := scan_write .compact (depth + 1) j hroom hends
        have hsize : 0 < (j.write .compact (depth + 1)).length := by
          obtain ⟨d, ds, he, -⟩ := opens_write .compact (depth + 1) j
          rw [he]
          exact Nat.succ_pos _
        have hless : 2 * left.length + 2 ≤ fuel := by omega
        obtain ⟨ts, stop, hitems, htorn⟩ := scanItems_cut depth false js hless hleft
        simp only [hscan, hitems]
        exact ⟨_, _, rfl, .whole htorn⟩

theorem scanFields_cut (depth : Nat) (first : Bool) (fields : List (String × Json)) {fuel : Nat}
    {cut : List Char} (hf : 2 * cut.length + 2 ≤ fuel)
    (h : IsCut cut (writeFields .compact depth first fields)) :
    ∃ ts stop, scanFields fuel first cut = (named ts, stop, none) ∧ TornFields fields ts stop := by
  match fields with
  | [] =>
      have hclose : IsCut cut ['\x7d'] := by simpa [writeFields, Layout.lead] using h
      rw [hclose.of_singleton, scanFields_nil]
      exact ⟨[], _, rfl, .cut rfl⟩
  | (k, j) :: fs =>
      obtain ⟨fuel, rfl⟩ : ∃ n, fuel = n + 1 := ⟨fuel - 1, by omega⟩
      simp only [writeFields, writeText, Layout.lead, Layout.gap, List.append_nil, List.append_assoc,
        List.cons_append, List.nil_append] at h
      rw [scanFields]
      have hend : Frame.object.NoticesEnd := ⟨rfl, rfl⟩
      rcases Frame.next_cut hend first (by decide) (by simp; decide) h with
        ⟨comma, b, hnext, hb⟩ | ⟨part, hne, rfl, hpart, hnext⟩
      · rw [hnext]
        exact ⟨[], _, rfl, .cut hb⟩
      rw [hnext]
      rw [List.length_append] at hf
      rcases hpart.of_cons with rfl | ⟨more, rfl, hmore⟩
      · exact absurd rfl hne
      have hname : IsCut more ((k.toList.flatMap writeChar ++ ['"'])
          ++ ':' :: (j.write .compact (depth + 1) ++ writeFields .compact depth false fs)) := by
        simpa using hmore
      rcases hname.of_append with hname | ⟨left, rfl, hleft⟩
      · -- The name is cut off.
        have hscan : scanText .start more = .error (.both (.endOf .text)) := scanText_cut hname []
        simp only [hscan]
        exact ⟨[], _, rfl, .cut rfl⟩
      have hscan := scanText_text k left
      simp only [List.append_assoc, List.singleton_append, hscan]
      rcases hleft.of_cons with rfl | ⟨value, rfl, hvalue⟩
      · -- The colon is missing.
        exact ⟨[(k, _)], _, rfl, .inside (.broken rfl)⟩
      rw [afterName_colon]
      simp only [List.length_cons, List.length_append] at hf
      rcases hvalue.of_append with hitem | ⟨behind, rfl, hbehind⟩
      · have hroom : 2 * value.length + 1 ≤ fuel := by omega
        have hscan := scan_cut (depth + 1) j hroom hitem
        generalize hresult : scan fuel value = result at hscan
        cases hscan with
        | torn htorn =>
            simp only [hresult]
            exact ⟨[(k, _)], _, rfl, .inside htorn⟩
        | short hn =>
            simp only [hresult, scanFields_nil]
            exact ⟨[(k, _)], _, rfl, .short hn rfl⟩
      · rw [List.length_append] at hf
        have hends := hbehind.endsNumeral (by simpa using endsNumeral_writeFields .compact depth fs [])
        have hroom : 2 * (j.write .compact (depth + 1)).length ≤ fuel := by omega
        have hless : 2 * behind.length + 2 ≤ fuel := by omega
        have hscan := scan_write .compact (depth + 1) j hroom hends
        obtain ⟨ts, stop, hfields, htorn⟩ := scanFields_cut depth false fs hless hbehind
        simp only [hscan, hfields]
        exact ⟨(k, Tree.of j) :: ts, _, rfl, .whole htorn⟩
end

theorem ofText_cut (j : Json) {cut : List Char} (h : IsCut cut (j.write .compact 0)) :
    ScannedCut j (ofText cut) := by
  apply scan_cut 0 j _ h
  omega

end Tree

end Almanac.Json
