import Mathlib
import Almanac.Profile
import Almanac.Proofs.Calendar.DateText

/-!
# The parts of a canonical text

The canonical text of a profile has four parts between bars.  No part has a bar in it, so
the text gives back its parts, and these say everything about the profile but the second of
the birth.
-/

namespace Almanac

/-! ## What the parts are written with -/

theorem Date.mem_writeYear {y : Int} {c : Char} (h : c ∈ writeYear y) :
    c.isDigit = true ∨ c = '-' ∨ c = '+' := by
  unfold writeYear at h
  split at h
  · rcases List.mem_cons.mp h with rfl | hc
    · exact .inr (.inl rfl)
    · exact .inl (Text.isDigit_of_mem_padded hc)
  · split at h
    · rcases List.mem_cons.mp h with rfl | hc
      · exact .inr (.inr rfl)
      · exact .inl (Text.isDigit_of_mem_padded hc)
    · exact .inl (Text.isDigit_of_mem_padded h)

theorem Date.mem_write {d : Date} {c : Char} (h : c ∈ d.write) :
    c.isDigit = true ∨ c = '-' ∨ c = '+' := by
  simp only [write, List.mem_append, List.mem_cons] at h
  rcases h with (hyear | rfl | hmonth) | rfl | hday
  · exact mem_writeYear hyear
  · exact .inr (.inl rfl)
  · exact .inl (Text.isDigit_of_mem_padded hmonth)
  · exact .inr (.inl rfl)
  · exact .inl (Text.isDigit_of_mem_padded hday)

theorem TimeOfDay.mem_writeMinutes {t : TimeOfDay} {c : Char} (h : c ∈ t.writeMinutes) :
    c.isDigit = true ∨ c = ':' := by
  rcases List.mem_append.mp h with hc | hc
  · exact .inl (Text.isDigit_of_mem_padded hc)
  · rcases List.mem_cons.mp hc with rfl | hc
    · exact .inr rfl
    · exact .inl (Text.isDigit_of_mem_padded hc)

/-! ## What the parts say -/

/-- A date is read back from its text, so no two dates have one text. -/
theorem Date.write_injective : Function.Injective Date.write := by
  intro d e h
  have hd := read_write gap_trimStart d
  rw [h, read_write gap_trimStart e] at hd
  exact (Except.ok.inj hd).symm

theorem TimeOfDay.writeMinutes_eq_iff {s t : TimeOfDay} :
    s.writeMinutes = t.writeMinutes ↔ s.hour = t.hour ∧ s.minute = t.minute := by
  constructor
  · intro h
    have hlen (u : TimeOfDay) : (Text.padded 2 u.hour).length = 2 :=
      Text.length_padded (Text.length_digits_le_two (Nat.lt_trans u.hour_lt (by decide)))
    obtain ⟨hhour, hrest⟩ := List.append_inj h ((hlen s).trans (hlen t).symm)
    exact ⟨Text.padded_injective 2 hhour, Text.padded_injective 2 (List.cons.inj hrest).2⟩
  · rintro ⟨hhour, hminute⟩
    rw [writeMinutes, writeMinutes, hhour, hminute]

namespace Profile

/-- Profiles that state the same birth, to the minute. -/
structure Agrees (p q : Profile) : Prop where
  calendar : p.calendar = q.calendar
  birthDate : p.birthDate = q.birthDate
  hour : p.birthTime.hour = q.birthTime.hour
  minute : p.birthTime.minute = q.birthTime.minute
  gender : p.gender = q.gender

def parts (p : Profile) : List (List Char) :=
  [p.calendar.name.toList, p.birthDate.write, p.birthTime.writeMinutes, p.gender.name.toList]

theorem toList_normalized (p : Profile) : p.normalized.toList = ['|'].intercalate p.parts := by
  simp [normalized, parts, Date.text]

theorem bar_notMem_parts (p : Profile) : ∀ part ∈ p.parts, '|' ∉ part := by
  have hcalendar : '|' ∉ p.calendar.name.toList := by cases p.calendar <;> decide
  have hgender : '|' ∉ p.gender.name.toList := by cases p.gender <;> decide
  have hdate : '|' ∉ p.birthDate.write := fun h => by simpa using Date.mem_write h
  have hminutes : '|' ∉ p.birthTime.writeMinutes := fun h => by
    simpa using TimeOfDay.mem_writeMinutes h
  simp only [parts, List.forall_mem_cons]
  exact ⟨hcalendar, hdate, hminutes, hgender, List.forall_mem_nil _⟩

theorem parts_eq_iff {p q : Profile} : p.parts = q.parts ↔ p.Agrees q := by
  have hcalendars : ∀ a b : CalendarKind, a.name.toList = b.name.toList → a = b := by
    intro a b
    cases a <;> cases b <;> decide
  have hgenders : ∀ a b : Gender, a.name.toList = b.name.toList → a = b := by
    intro a b
    cases a <;> cases b <;> decide
  simp only [parts, List.cons.injEq, and_true]
  constructor
  · rintro ⟨hcalendar, hdate, hminutes, hgender⟩
    obtain ⟨hhour, hminute⟩ := TimeOfDay.writeMinutes_eq_iff.mp hminutes
    exact ⟨hcalendars _ _ hcalendar, Date.write_injective hdate, hhour, hminute,
      hgenders _ _ hgender⟩
  · intro h
    exact ⟨by rw [h.calendar], by rw [h.birthDate],
      TimeOfDay.writeMinutes_eq_iff.mpr ⟨h.hour, h.minute⟩, by rw [h.gender]⟩

end Profile

end Almanac
