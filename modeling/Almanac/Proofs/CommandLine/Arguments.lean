import Mathlib
import Almanac.CommandLine.Arguments

/-!
# Readings of arguments

`Given.Reads` says how a list of arguments is read, step by step.  The switch for indented
texts changes nothing else: two lists that differ in it make arguments that differ in it
(`Arguments.ofList_besidePretty`).
-/

namespace Almanac.CommandLine

variable {args args' : List String} {g g' : Given}

/-! ## Readings -/

inductive Given.Reads : List String → Given → Given → Prop where
  | nil {g : Given} : Reads [] g g
  | last {arg : String} {g : Given} (word : Word.ofText arg = .endOfOptions) : Reads [arg] g g
  | switch {arg : String} {args : List String} {s : Switch} {g g₁ g' : Given}
      (word : Word.ofText arg = .switch s) (flip : g.flip s = .ok g₁) (rest : Reads args g₁ g') :
      Reads (arg :: args) g g'
  | attached {arg text : String} {args : List String} {f : Field} {g g₁ g' : Given}
      (word : Word.ofText arg = .field f (some text)) (take : g.take f text = .ok g₁)
      (rest : Reads args g₁ g') : Reads (arg :: args) g g'
  | separate {arg text : String} {args : List String} {f : Field} {g g₁ g' : Given}
      (word : Word.ofText arg = .field f none) (plain : Word.ofText text = .text)
      (take : g.take f text = .ok g₁) (rest : Reads args g₁ g') :
      Reads (arg :: text :: args) g g'

theorem Given.reads_of_read (h : g.read args = .ok g') : Given.Reads args g g' := by
  fun_induction Given.read g args with
  | case1 g =>
      cases h
      exact .nil
  | case2 g arg hword =>
      cases h
      exact .last hword
  | case3 g arg s args hword g₁ hflip ih => exact .switch hword hflip (ih h)
  | case5 g arg f s args hword g₁ htake ih => exact .attached hword htake (ih h)
  | case7 g arg f s args hword hplain g₁ htake ih => exact .separate hword hplain htake (ih h)
  | _ => contradiction

theorem Given.Reads.read (h : Given.Reads args g g') : g.read args = .ok g' := by
  induction h with
  | nil => rfl
  | last word => rw [Given.read.eq_def]; simp only [word]
  | switch word flip _ ih => rw [Given.read.eq_def]; simp only [word, flip, ih]
  | attached word take _ ih => rw [Given.read.eq_def]; simp only [word, take, ih]
  | separate word plain take _ ih =>
      rw [Given.read.eq_def]
      simp only [word, plain, take, ih, if_true]

/-! ## The switch for indented texts -/

def prettyArgument : String := "--pretty"

theorem ofText_prettyArgument : Word.ofText prettyArgument = .switch .pretty := by decide

/-- Texts are taken whether or not the switch was given before. -/
theorem Given.take_pretty {f : Field} {text : String} (h : g.take f text = .ok g') (b : Bool) :
    g'.pretty = g.pretty ∧
      ({ g with pretty := b } : Given).take f text = .ok { g' with pretty := b } := by
  unfold Given.take at h ⊢
  split at h
  · rename_i haccepts
    cases h
    exact ⟨rfl, if_pos haccepts⟩
  · contradiction

theorem Given.flip_eq_ok {s : Switch} (h : g.flip s = .ok g') :
    s = .pretty ∧ g.pretty = false ∧ g' = { g with pretty := true } := by
  cases s with
  | pretty =>
      simp only [Given.flip] at h
      split at h
      · contradiction
      · rename_i hpretty
        cases h
        exact ⟨rfl, Bool.eq_false_iff.mpr hpretty, rfl⟩
  | help => contradiction
  | version => contradiction

/-- Once the switch was given, the rest is read as if it had not been. -/
theorem Given.Reads.unpretty (h : Given.Reads args g g') (hpretty : g.pretty = true) :
    g'.pretty = true ∧
      Given.Reads args { g with pretty := false } { g' with pretty := false } := by
  induction h with
  | nil => exact ⟨hpretty, .nil⟩
  | last word => exact ⟨hpretty, .last word⟩
  | switch word flip _ ih =>
      obtain ⟨-, hplain, -⟩ := Given.flip_eq_ok flip
      rw [hplain] at hpretty
      contradiction
  | attached word take _ ih =>
      obtain ⟨heq, htake⟩ := Given.take_pretty take false
      obtain ⟨hlast, hrest⟩ := ih (heq.trans hpretty)
      exact ⟨hlast, .attached word htake hrest⟩
  | separate word plain take _ ih =>
      obtain ⟨heq, htake⟩ := Given.take_pretty take false
      obtain ⟨hlast, hrest⟩ := ih (heq.trans hpretty)
      exact ⟨hlast, .separate word plain htake hrest⟩

/-- **The switch may be left out**, wherever it stands. -/
theorem Given.Reads.withoutPretty {before after : List String}
    (h : Given.Reads (before ++ prettyArgument :: after) g g') :
    g.pretty = false ∧ g'.pretty = true ∧
      Given.Reads (before ++ after) g { g' with pretty := false } := by
  have hword := ofText_prettyArgument
  -- The switch is no text for a field before it, so the list is read up to it.
  generalize hargs : before ++ prettyArgument :: after = args at h
  induction h generalizing before with
  | nil => exact absurd hargs (by simp)
  | last word =>
      cases before with
      | nil =>
          obtain ⟨rfl, -⟩ := List.cons.inj hargs
          rw [hword] at word
          contradiction
      | cons arg before => exact absurd (List.cons.inj hargs).2 (by simp)
  | @switch arg args s g g₁ g' word flip rest ih =>
      obtain ⟨-, hplain, rfl⟩ := Given.flip_eq_ok flip
      cases before with
      | nil =>
          obtain ⟨rfl, rfl⟩ := List.cons.inj hargs
          obtain ⟨hlast, hrest⟩ := rest.unpretty rfl
          have hg : ({ g with pretty := false } : Given) = g := by rw [← hplain]
          rw [hg] at hrest
          exact ⟨hplain, hlast, hrest⟩
      | cons arg' before =>
          obtain ⟨hagain, -, -⟩ := ih (List.cons.inj hargs).2
          contradiction
  | @attached arg text args f g g₁ g' word take rest ih =>
      cases before with
      | nil =>
          obtain ⟨rfl, -⟩ := List.cons.inj hargs
          rw [hword] at word
          contradiction
      | cons arg' before =>
          obtain ⟨rfl, htail⟩ := List.cons.inj hargs
          obtain ⟨hfirst, hlast, hrest⟩ := ih htail
          exact ⟨(Given.take_pretty take false).1.symm.trans hfirst, hlast,
            .attached word take hrest⟩
  | @separate arg text args f g g₁ g' word plain take rest ih =>
      rcases before with _ | ⟨arg', _ | ⟨text', before⟩⟩
      · obtain ⟨rfl, -⟩ := List.cons.inj hargs
        rw [hword] at word
        contradiction
      · obtain ⟨-, htail⟩ := List.cons.inj hargs
        obtain ⟨rfl, -⟩ := List.cons.inj htail
        rw [hword] at plain
        contradiction
      · obtain ⟨rfl, htail⟩ := List.cons.inj hargs
        obtain ⟨rfl, hrest⟩ := List.cons.inj htail
        obtain ⟨hfirst, hlast, hrest⟩ := ih hrest
        exact ⟨(Given.take_pretty take false).1.symm.trans hfirst, hlast,
          .separate word plain take hrest⟩

/-- The first of two lists has the switch besides the arguments of the second. -/
def BesidePretty (args args' : List String) : Prop :=
  ∃ before after, args = before ++ prettyArgument :: after ∧ args' = before ++ after

/-- **Without the switch the arguments are the same**, but for the switch. -/
theorem Arguments.ofList_besidePretty {env : Settings.Environment} {a : Arguments}
    (h : Arguments.ofList args env = .ok a) (hbeside : BesidePretty args args') :
    Arguments.ofList args' env = .ok { a with pretty := false } := by
  obtain ⟨before, after, rfl, rfl⟩ := hbeside
  unfold Arguments.ofList at h ⊢
  rcases hread : ({} : Given).read (before ++ prettyArgument :: after) with stop | g
  · rw [hread] at h
    contradiction
  · obtain ⟨-, -, hreads⟩ := (Given.reads_of_read hread).withoutPretty
    rw [hread] at h
    rw [hreads.read]
    -- The options are the same, so they make the same arguments.
    simp only [Except.bind, Arguments.ofGiven, Arguments.chart?, Given.text?, Given.number?]
      at h ⊢
    split at h
    · cases h
      rfl
    · contradiction

theorem Arguments.eq_of_besidePretty {env : Settings.Environment} {a a' : Arguments}
    (h : Arguments.ofList args env = .ok a) (h' : Arguments.ofList args' env = .ok a')
    (hbeside : BesidePretty args args' ∨ BesidePretty args' args) :
    ∃ pretty, a' = { a with pretty } := by
  rcases hbeside with hbeside | hbeside
  · refine ⟨false, Except.ok.inj (h'.symm.trans ?_)⟩
    exact Arguments.ofList_besidePretty h hbeside
  · have ha := Except.ok.inj (h.symm.trans (Arguments.ofList_besidePretty h' hbeside))
    refine ⟨a'.pretty, ?_⟩
    rw [ha]

end Almanac.CommandLine
