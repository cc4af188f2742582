import Mathlib
import Almanac.Proofs.Text.Digits
import Almanac.Proofs.Toml.Quotes
import Almanac.Toml.Reader

/-!
# Written lines are read back

A line is the header of a table, or a bare name with a value.  The value is a text between
marks or an integer in digits: `value_quoted`, `value_digits`.  Line after line of a
document is read as the statement that it makes: `statements_head`, `statements_pair`.
-/

namespace Almanac.Toml

variable {n : String} {rest written : List Char} {v : Value} {fuel : Nat}

/-! ## Integers -/

theorem digits_cons (n : Nat) : ∃ c cs, Text.digits n = c :: cs ∧ c.isDigit = true := by
  obtain ⟨c, cs, he⟩ := List.exists_cons_of_ne_nil (Text.digits_ne_nil n)
  exact ⟨c, cs, he, Text.isDigit_of_mem_digits (he ▸ List.mem_cons_self)⟩

theorem isDigit_ne {c d : Char} (hc : c.isDigit = true) (hd : d.isDigit = false) : c ≠ d := by
  rintro rfl
  rw [hc] at hd
  contradiction

theorem afterWord_of_isDigit {w c : Char} (hw : w.isDigit = false) (hc : c.isDigit = true)
    (ws cs : List Char) : afterWord (w :: ws) (c :: cs) = none := by
  rw [afterWord, if_neg (isDigit_ne hc hw).symm]

namespace Scalar

theorem moreDigits_digits {ds : List Char} (hds : ∀ c ∈ ds, c.isDigit = true)
    (rest : List Char) :
    moreDigits Char.isDigit (ds ++ '\n' :: rest) = some (ds, '\n' :: rest) := by
  induction ds with
  | nil => rfl
  | cons d ds ih =>
      have hd : d.isDigit = true := hds d List.mem_cons_self
      have hds' : ∀ c ∈ ds, c.isDigit = true := fun c hc => hds c (List.mem_cons_of_mem _ hc)
      have hline : d ≠ '_' := isDigit_ne hd (by decide)
      rw [List.cons_append]
      unfold moreDigits
      split
      · contradiction
      · rename_i heq
        exact absurd (List.cons.inj heq).1 hline
      · rename_i heq
        exact absurd (List.cons.inj heq).1 hline
      · rename_i heq
        obtain ⟨rfl, rfl⟩ := List.cons.inj heq
        rw [if_pos hd, ih hds']
        rfl

theorem whole_digits (n : Nat) (rest : List Char) :
    whole (Text.digits n ++ '\n' :: rest) = some (Text.digits n, '\n' :: rest) := by
  obtain ⟨c, cs, he, hc⟩ := digits_cons n
  unfold whole
  split
  · -- Nothing follows a leading zero.
    rename_i cs' heq
    rw [he] at heq
    obtain ⟨rfl, hcs⟩ := List.cons.inj heq
    cases cs with
    | nil =>
        cases hcs
        rw [he]
        rfl
    | cons d ds => exact absurd he (Text.digits_ne_zero_cons n d ds)
  · have hcs : ∀ d ∈ cs, d.isDigit = true := fun d hd =>
      Text.isDigit_of_mem_digits (he ▸ List.mem_cons_of_mem c hd)
    rw [he, List.cons_append, digits, if_pos hc, moreDigits_digits hcs]
    rfl

theorem sign_digits (n : Nat) (rest : List Char) :
    sign (Text.digits n ++ rest) = (false, Text.digits n ++ rest) := by
  obtain ⟨c, cs, he, hc⟩ := digits_cons n
  rw [he, List.cons_append]
  unfold sign
  split
  · rename_i heq
    exact absurd (List.cons.inj heq).1 (isDigit_ne hc (by decide))
  · rename_i heq
    exact absurd (List.cons.inj heq).1 (isDigit_ne hc (by decide))
  · rfl

/-- An integer is read back if it has 64 bits with its sign. -/
theorem decimal_digits {n : Nat} (hn : n < UInt64.size / 2) (rest : List Char) :
    decimal (Text.digits n ++ '\n' :: rest) = some (.integer n, '\n' :: rest) := by
  have hmax : ((n : Int) ≤ Int64.maxValue.toInt) := by
    have hbound : (Int64.maxValue.toInt : Int) = 9223372036854775807 := by decide
    have hsize : UInt64.size / 2 = 9223372036854775808 := by decide
    omega
  have hmin : Int64.minValue.toInt ≤ (n : Int) := by
    have hbound : (Int64.minValue.toInt : Int) = -9223372036854775808 := by decide
    omega
  have hinteger : integer false n = some (.integer n) := by
    rw [integer]
    exact if_pos ⟨hmin, hmax⟩
  rw [decimal, sign_digits]
  simp only [whole_digits, Option.bind_eq_bind, Option.bind_some, fraction,
    Text.valueOf_digits, hinteger]
  rfl

/-- An integer at the end of a line is no field of a date or a time. -/
theorem afterField_digits {ds : List Char} (hds : ∀ c ∈ ds, c.isDigit = true) (k : Nat)
    {mark : Char} (hdigit : mark.isDigit = false) (hline : mark ≠ '\n') (rest : List Char) :
    afterField k mark (ds ++ '\n' :: rest) = none := by
  have hexact : exactDigits k (ds ++ '\n' :: rest) = none ∨
      ∃ value, exactDigits k (ds ++ '\n' :: rest) = some (value, ds.drop k ++ '\n' :: rest) := by
    by_cases hk : k ≤ ds.length
    · rw [exactDigits]
      split
      · exact .inr ⟨_, by rw [List.drop_append_of_le_length hk]⟩
      · exact .inl rfl
    · -- The line break is among the characters.
      left
      rw [exactDigits, if_neg]
      rintro ⟨-, hall⟩
      have hbreak : '\n' ∈ (ds ++ '\n' :: rest).take k := by
        rw [List.take_append]
        obtain ⟨m, hm⟩ : ∃ m, k - ds.length = m + 1 := ⟨k - ds.length - 1, by omega⟩
        rw [hm, List.take_succ_cons]
        simp
      exact absurd (List.all_eq_true.mp hall _ hbreak) (by decide)
  have hword : afterWord [mark] (ds.drop k ++ '\n' :: rest) = none := by
    rcases hdrop : ds.drop k with _ | ⟨d, ds'⟩
    · exact if_neg hline
    · have hd := hds d (List.mem_of_mem_drop (hdrop ▸ List.mem_cons_self))
      exact afterWord_of_isDigit hdigit hd _ _
  rw [afterField]
  rcases hexact with he | ⟨value, he⟩
  · simp only [he, Option.bind_eq_bind, Option.bind_none]
  · simp only [he, hword, Option.bind_eq_bind, Option.bind_some, Option.bind_none]

theorem number_digits {n : Nat} (hn : n < UInt64.size / 2) (rest : List Char) :
    number (Text.digits n ++ '\n' :: rest) = some (.integer n, '\n' :: rest) := by
  obtain ⟨c, cs, he, hc⟩ := digits_cons n
  -- No letter follows a leading zero.
  have hbase : ∀ d more, d.isDigit = false → d ≠ '\n' →
      Text.digits n ++ '\n' :: rest ≠ '0' :: d :: more := by
    intro d more hd hline heq
    rw [he] at heq
    obtain ⟨rfl, hcs⟩ := List.cons.inj heq
    cases cs with
    | nil => exact hline (List.cons.inj hcs).1.symm
    | cons e es => exact Text.digits_ne_zero_cons n e es he
  have hinf : afterWord ['i', 'n', 'f'] (Text.digits n ++ '\n' :: rest) = none := by
    rw [he]
    exact afterWord_of_isDigit (by decide) hc _ _
  have hnan : afterWord ['n', 'a', 'n'] (Text.digits n ++ '\n' :: rest) = none := by
    rw [he]
    exact afterWord_of_isDigit (by decide) hc _ _
  unfold number
  split
  · exact absurd ‹_› (hbase 'x' _ (by decide) (by decide))
  · exact absurd ‹_› (hbase 'o' _ (by decide) (by decide))
  · exact absurd ‹_› (hbase 'b' _ (by decide) (by decide))
  · simp only [sign_digits, hinf, hnan, Option.or_none]
    exact decimal_digits hn rest

end Scalar

open Scalar in
/-- **An integer is read back**, whatever stands on the next line. -/
theorem scalar_digits {n : Nat} (hn : n < UInt64.size / 2) (rest : List Char) :
    scalar (Text.digits n ++ '\n' :: rest) = some (.integer n, '\n' :: rest) := by
  obtain ⟨c, cs, he, hc⟩ := digits_cons n
  have hds : ∀ c ∈ Text.digits n, c.isDigit = true := fun c hc => Text.isDigit_of_mem_digits hc
  have hword : ∀ w ws, w.isDigit = false →
      afterWord (w :: ws) (Text.digits n ++ '\n' :: rest) = none := by
    intro w ws hw
    rw [he]
    exact afterWord_of_isDigit hw hc _ _
  have hdate : beginsDate (Text.digits n ++ '\n' :: rest) = false := by
    rw [beginsDate, afterField_digits hds 4 (by decide) (by decide)]
    rfl
  have htime : beginsTime (Text.digits n ++ '\n' :: rest) = false := by
    rw [beginsTime, afterField_digits hds 2 (by decide) (by decide)]
    rfl
  rw [scalar, hword 't' _ (by decide), hword 'f' _ (by decide)]
  simp only [hdate, htime, Bool.or_self, Bool.false_eq_true, if_false]
  exact number_digits hn rest

/-! ## Values -/

/-- A value that is written stands for itself at the end of a line. -/
structure Writes (written : List Char) (v : Value) : Prop where
  cons : ∃ c cs, written = c :: cs ∧ isBlank c = false
  noReturn : '\r' ∉ written
  reads : ∀ rest, value maxDepth (written ++ '\n' :: rest) = some (v, '\n' :: rest)

/-- **A text between its marks stands for the text.** -/
theorem writes_quoted (s : String) : Writes (quoted s) (.text s) := by
  obtain ⟨c, cs, he, hc⟩ := quoted_cons s
  refine ⟨⟨c, cs, he, by rcases hc with rfl | rfl <;> rfl⟩, noReturn_quoted s, fun rest => ?_⟩
  have htext : text (quoted s ++ '\n' :: rest) = some (s, '\n' :: rest) := by
    refine text_quoted s ?_
    rintro d ⟨⟩
    decide
  have hvalue : value maxDepth (quoted s ++ '\n' :: rest)
      = (text (quoted s ++ '\n' :: rest)).map fun found => (.text found.1, found.2) := by
    rw [he]
    rcases hc with rfl | rfl <;> rfl
  rw [hvalue, htext]
  rfl

theorem value_of_isDigit {c : Char} (hc : c.isDigit = true) (cs : List Char) :
    value maxDepth (c :: cs) = scalar (c :: cs) := by
  have hne : ∀ {d ds}, d.isDigit = false → c :: cs ≠ d :: ds := fun hd he =>
    isDigit_ne hc hd (List.cons.inj he).1
  rw [maxDepth, value]
  · unfold value.simple
    split
    · exact absurd ‹_› (hne (by decide))
    · exact absurd ‹_› (hne (by decide))
    · rfl
  · exact fun ds he => hne (by decide) he
  · exact fun ds he => hne (by decide) he

/-- **The digits of an integer stand for the integer.** -/
theorem writes_digits {n : Nat} (hn : n < UInt64.size / 2) :
    Writes (Text.digits n) (.integer n) := by
  obtain ⟨c, cs, he, hc⟩ := digits_cons n
  refine ⟨⟨c, cs, he, ?_⟩, fun hr => ?_, fun rest => ?_⟩
  · have hspace : c ≠ ' ' := isDigit_ne hc (by decide)
    have htab : c ≠ '\t' := isDigit_ne hc (by decide)
    simp [isBlank, hspace, htab]
  · exact isDigit_ne (Text.isDigit_of_mem_digits hr) (by decide) rfl
  · have hvalue := value_of_isDigit hc (cs ++ '\n' :: rest)
    rw [← List.cons_append, ← he, scalar_digits hn] at hvalue
    exact hvalue

/-! ## Names -/

def isBareName (n : String) : Bool := !n.toList.isEmpty && n.toList.all isBare

theorem isBare_ne {c d : Char} (hc : isBare c = true) (hd : isBare d = false) : c ≠ d := by
  rintro rfl
  rw [hc] at hd
  contradiction

theorem isBareName_iff : isBareName n = true ↔ n.toList ≠ [] ∧ ∀ c ∈ n.toList, isBare c = true := by
  simp [isBareName]

theorem bareName_cons (h : isBareName n = true) :
    ∃ c cs, n.toList = c :: cs ∧ isBare c = true := by
  obtain ⟨hne, hall⟩ := isBareName_iff.mp h
  obtain ⟨c, cs, he⟩ := List.exists_cons_of_ne_nil hne
  exact ⟨c, cs, he, hall c (he ▸ List.mem_cons_self)⟩

theorem name_bare (h : isBareName n = true) (hrest : ∀ c ∈ rest.head?, isBare c = false) :
    name (n.toList ++ rest) = some (n, rest) := by
  obtain ⟨hne, hall⟩ := isBareName_iff.mp h
  have htake : (n.toList ++ rest).takeWhile isBare = n.toList := by
    rw [List.takeWhile_append_of_pos hall]
    cases rest with
    | nil => simp
    | cons c cs => simp [hrest c rfl]
  have hdrop : (n.toList ++ rest).dropWhile isBare = rest := by
    rw [List.dropWhile_append_of_pos hall]
    cases rest with
    | nil => rfl
    | cons c cs => simp [hrest c rfl]
  obtain ⟨c, cs, he, hc⟩ := bareName_cons h
  unfold name
  split
  · rename_i heq
    rw [he] at heq
    exact absurd (List.cons.inj heq).1 (isBare_ne hc (by decide))
  · rename_i heq
    rw [he] at heq
    exact absurd (List.cons.inj heq).1 (isBare_ne hc (by decide))
  · simp only [htake, hdrop, List.isEmpty_iff, hne, if_false, String.ofList_toList]

theorem skipBlanks_cons {c : Char} (h : isBlank c = false) (cs : List Char) :
    skipBlanks (c :: cs) = c :: cs := by
  rw [skipBlanks, List.dropWhile_cons, h]
  rfl

theorem isBlank_of_isBare {c : Char} (h : isBare c = true) : isBlank c = false := by
  have hspace : c ≠ ' ' := isBare_ne h (by decide)
  have htab : c ≠ '\t' := isBare_ne h (by decide)
  simp [isBlank, hspace, htab]

/-- A bare name is a key of its own unless a full stop follows. -/
theorem key_bare (room : Nat) (h : isBareName n = true) (hrest : ∀ c ∈ rest.head?, isBare c = false)
    (hdot : ∀ c ∈ (skipBlanks rest).head?, c ≠ '.') :
    key (room + 1) (n.toList ++ rest) = some (⟨[], n⟩, skipBlanks rest) := by
  have hskip : skipBlanks (n.toList ++ rest) = n.toList ++ rest := by
    obtain ⟨c, cs, he, hc⟩ := bareName_cons h
    rw [he]
    exact skipBlanks_cons (isBlank_of_isBare hc) _
  rw [key, hskip, name_bare h hrest]
  simp only
  split
  · rename_i heq
    rw [heq] at hdot
    exact absurd rfl (hdot _ rfl)
  · rfl

/-! ## Lines -/

theorem unifyBreaks_eq {cs : List Char} (h : '\r' ∉ cs) : unifyBreaks cs = cs := by
  induction cs with
  | nil => rfl
  | cons c cs ih =>
      obtain ⟨hc, hcs⟩ := not_or.mp (List.mem_cons.not.mp h)
      unfold unifyBreaks
      split
      · contradiction
      · exact absurd (List.cons.inj ‹_›).1.symm hc
      · rename_i heq
        obtain ⟨rfl, rfl⟩ := List.cons.inj heq
        rw [ih hcs]

theorem statement_head (h : isBareName n = true) (rest : List Char) :
    statement ('[' :: (n.toList ++ ']' :: rest)) = some (.head ⟨[], n⟩, rest) := by
  have hkey : key maxNames (n.toList ++ ']' :: rest) = some (⟨[], n⟩, ']' :: rest) := by
    refine key_bare 78 h ?_ ?_ <;>
      · rintro c ⟨⟩
        decide
  obtain ⟨c, cs, he, hc⟩ := bareName_cons h
  unfold statement
  split
  · rename_i heq
    have htail := (List.cons.inj heq).2
    rw [he] at htail
    exact absurd (List.cons.inj htail).1 (isBare_ne hc (by decide))
  · rename_i heq
    obtain rfl := (List.cons.inj heq).2
    rw [hkey]
    rfl
  · rename_i hother
    exact absurd rfl (hother _)

theorem statement_pair (h : isBareName n = true) (hw : Writes written v) (rest : List Char) :
    statement (n.toList ++ ([' ', '=', ' '] ++ (written ++ '\n' :: rest)))
      = some (.pair ⟨[], n⟩ v, '\n' :: rest) := by
  have hkey : key maxNames (n.toList ++ ([' ', '=', ' '] ++ (written ++ '\n' :: rest)))
      = some (⟨[], n⟩, '=' :: ' ' :: (written ++ '\n' :: rest)) := by
    refine key_bare 78 h ?_ ?_ <;>
      · rintro c ⟨⟩
        decide
  have hblank : skipBlanks (' ' :: (written ++ '\n' :: rest)) = written ++ '\n' :: rest := by
    obtain ⟨c, cs, he, hc⟩ := hw.cons
    rw [he]
    exact skipBlanks_cons hc _
  have hpair : pair (value maxDepth) (n.toList ++ ([' ', '=', ' '] ++ (written ++ '\n' :: rest)))
      = some ((⟨[], n⟩, v), '\n' :: rest) := by
    rw [pair, hkey]
    simp only [hblank, hw.reads, Option.map_some]
  obtain ⟨c, cs, he, hc⟩ := bareName_cons h
  have hne : ∀ {ds}, n.toList ++ ([' ', '=', ' '] ++ (written ++ '\n' :: rest)) ≠ '[' :: ds := by
    intro ds heq
    rw [he] at heq
    exact isBare_ne hc (by decide) (List.cons.inj heq).1
  unfold statement
  split
  · exact absurd ‹_› hne
  · exact absurd ‹_› hne
  · rw [hpair]
    rfl

theorem statements_line (line rest : List Char) {s : Statement} (fuel : Nat)
    (hcons : ∃ c cs, line = c :: cs ∧ isBlank c = false ∧ c ≠ '\n' ∧ c ≠ '#')
    (hs : statement (line ++ '\n' :: rest) = some (s, '\n' :: rest)) :
    statements (fuel + 1) (line ++ '\n' :: rest) = (statements fuel rest).map (s :: ·) := by
  obtain ⟨c, cs, rfl, hblank, hline, hcomment⟩ := hcons
  have hskip : skipBlanks (c :: cs ++ '\n' :: rest) = c :: cs ++ '\n' :: rest :=
    skipBlanks_cons hblank _
  have hend : endLine ('\n' :: rest) = some rest := rfl
  rw [statements, hskip]
  split
  · contradiction
  · exact absurd (List.cons.inj ‹_›).1 hline
  · exact absurd (List.cons.inj ‹_›).1 hcomment
  · rw [hs]
    simp only [hend, Option.bind_some]

theorem statements_blank (fuel : Nat) (rest : List Char) :
    statements (fuel + 1) ('\n' :: rest) = statements fuel rest := rfl

end Almanac.Toml
