import Mathlib
import Almanac.Cache.Key
import Almanac.Proofs.Profile.Normalized
import Almanac.Proofs.Text.Trimming

/-!
# The canonical text is canonical

The canonical text of a profile splits into four parts, and these are texts that a person
could have typed for the same birth.  They are read as the profile cut to the minute,
whose canonical text is the same again: `Profile.normalized_canonical`.
-/

namespace Almanac

open Calendar Calendar.Scan

/-! ## Times -/

namespace TimeOfDay

def toMinute (t : TimeOfDay) : TimeOfDay :=
  { t with
    second := 0, nanos := 0
    second_le := Nat.le_trans (Nat.zero_le _) t.second_le
    nanos_lt := Nat.lt_of_le_of_lt (Nat.zero_le _) t.nanos_lt }

theorem make_toMinute (t : TimeOfDay) : make t.hour t.minute 0 0 = .ok t.toMinute := by
  have hfields : ofFields? t.hour t.minute 0 0 = some t.toMinute :=
    dif_pos ⟨t.hour_lt, t.minute_lt, by decide, by decide⟩
  rw [make, hfields]

theorem scanMinutes_writeMinutes (t : TimeOfDay) :
    scanMinutes id t.writeMinutes = .ok (t.hour, t.minute, []) := by
  have hhour := t.hour_lt
  have hminute := t.minute_lt
  have hlast := twoDigits_padded (n := t.minute) (by omega) []
  rw [List.append_nil] at hlast
  have hours : within 0 23 t.hour = .ok () := if_pos ⟨by omega, by omega⟩
  have minutes : within 0 59 t.minute = .ok () := if_pos ⟨by omega, by omega⟩
  simp only [scanMinutes, writeMinutes, twoDigits_padded (n := t.hour) (by omega), bind,
    Except.bind, hours, id, Scan.mark, if_true, hlast, minutes, pure, Except.pure]

/-- What is written of a time is read as the time to the minute. -/
theorem parse?_writeMinutes (t : TimeOfDay) :
    parse? (String.ofList t.writeMinutes) = .ok t.toMinute := by
  have hsolid : ∀ c ∈ t.writeMinutes, Text.isBlank c = false := by
    intro c hc
    rcases mem_writeMinutes hc with hdigit | rfl
    · exact Text.isBlank_of_isDigit hdigit
    · rfl
  have hread : readMinutes t.writeMinutes = .ok t.toMinute := by
    simp only [readMinutes, scanMinutes_writeMinutes, bind, Except.bind, Scan.finish, make_toMinute]
  simp only [parse?, String.toList_ofList, Text.trim_of_noBlank hsolid, hread]

end TimeOfDay

/-! ## Names -/

theorem Gender.parse_name (g : Gender) : parse g.name = .ok g := by
  cases g with
  | male => decide
  | female => decide

theorem CalendarKind.parse_name (c : CalendarKind) : parse c.name = .ok c := by
  cases c with
  | solar => decide
  | lunar => decide

/-! ## Profiles -/

namespace Profile

def toMinute (p : Profile) : Profile := { p with birthTime := p.birthTime.toMinute }

theorem year_of_parse {date time gender calendar : String} {p : Profile}
    (h : parse date time gender calendar = .ok p) :
    firstYear ≤ p.birthDate.year ∧ p.birthDate.year ≤ lastYear := by
  simp only [parse, bind, Except.bind] at h
  -- The four texts are read, and the year is looked at last.
  repeat' split at h
  all_goals try contradiction
  rw [make] at h
  split at h
  · rename_i hyear
    cases h
    exact hyear
  · contradiction

/-- The parts of the canonical text of a profile whose year is accepted are read as the
profile to the minute. -/
theorem parse_parts {p : Profile}
    (hyear : firstYear ≤ p.birthDate.year ∧ p.birthDate.year ≤ lastYear) :
    parse p.birthDate.text (.ofList p.birthTime.writeMinutes) p.gender.name p.calendar.name
      = .ok p.toMinute := by
  have hdate : readDate p.birthDate.text = .ok p.birthDate := by
    rw [readDate, Date.parse?_text]
  have htime : readTime (.ofList p.birthTime.writeMinutes) = .ok p.birthTime.toMinute := by
    rw [readTime, TimeOfDay.parse?_writeMinutes]
  simp only [parse, hdate, htime, Gender.parse_name, CalendarKind.parse_name, bind, Except.bind]
  exact if_pos hyear

theorem splitOn_normalized (p : Profile) : p.normalized.toList.splitOn '|' = p.parts := by
  rw [toList_normalized]
  exact List.splitOn_intercalate '|' p.bar_notMem_parts (by simp [parts])

/-- **The canonical text of a profile that was read is canonical**: it has four parts, these
are read as the profile to the minute, and that has the same text and the same keys. -/
theorem normalized_canonical {date time gender calendar : String} {p : Profile}
    (h : parse date time gender calendar = .ok p) :
    (∃ c d t g, p.normalized.toList.splitOn '|' = [c, d, t, g] ∧
      parse (.ofList d) (.ofList t) (.ofList g) (.ofList c) = .ok p.toMinute) ∧
    p.toMinute.normalized = p.normalized ∧
    ∀ shape, Cache.key p.toMinute shape = Cache.key p shape := by
  have hsame : p.toMinute.normalized = p.normalized := rfl
  refine ⟨⟨_, _, _, _, p.splitOn_normalized, ?_⟩, hsame, ?_⟩
  · have hparts := parse_parts (year_of_parse h)
    rwa [Date.text, ← String.ofList_toList (s := p.gender.name),
      ← String.ofList_toList (s := p.calendar.name)] at hparts
  · intro shape
    rw [Cache.key, Cache.key, Cache.keyText, Cache.keyText, hsame]

/-- A birth in a leap second, typed with few digits and in Chinese. -/
theorem normalized_canonical_typedBirth :
    ∃ p, parse "\u3000+1984-2-29 " "23:59:60\n" " 女" "农历" = .ok p ∧
      p.normalized = "lunar|1984-02-29|23:59|female" ∧
      (∃ c d t g, p.normalized.toList.splitOn '|' = [c, d, t, g] ∧
        parse (.ofList d) (.ofList t) (.ofList g) (.ofList c) = .ok p.toMinute) ∧
      p.toMinute.normalized = p.normalized ∧
      ∀ shape, Cache.key p.toMinute shape = Cache.key p shape := by
  have htext : (parse "\u3000+1984-2-29 " "23:59:60\n" " 女" "农历").map normalized
      = .ok "lunar|1984-02-29|23:59|female" := by
    decide +kernel
  rcases hread : parse "\u3000+1984-2-29 " "23:59:60\n" " 女" "农历" with e | p
  · rw [hread] at htext
    contradiction
  · rw [hread] at htext
    exact ⟨p, rfl, Except.ok.inj htext, normalized_canonical hread⟩

end Profile

end Almanac
