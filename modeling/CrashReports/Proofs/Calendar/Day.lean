import CrashReports.Calendar.Day
import Mathlib.Tactic.IntervalCases

/-!
# Neighbouring days

The day after and the day before undo each other, and both exist away from the ends
of the calendar.  No day lies between a day and the one after it.
-/

namespace CrashReports

theorem isLeapYear_iff {year : Int} :
    isLeapYear year = true ↔ year % 4 = 0 ∧ (year % 100 ≠ 0 ∨ year % 400 = 0) := by
  simp [isLeapYear]

theorem twentyEight_le_daysInMonth {year : Int} {month : Nat} (h : 1 ≤ month) (h' : month ≤ 12) :
    28 ≤ daysInMonth year month := by
  interval_cases month <;> simp only [daysInMonth] <;> first | decide | split <;> decide

theorem one_le_daysInMonth {year : Int} {month : Nat} (h : 1 ≤ month) (h' : month ≤ 12) :
    1 ≤ daysInMonth year month :=
  Nat.le_trans (by decide) (twentyEight_le_daysInMonth h h')

namespace Day

theorem monthDay_bounds (d : Day) :
    1 ≤ d.month ∧ d.month ≤ 12 ∧ 1 ≤ d.day ∧ d.day ≤ 31 :=
  ⟨d.isDay.month_pos, d.isDay.month_le, d.isDay.day_pos, d.day_le_thirtyOne⟩

theorem not_lt {d e : Day} : ¬ d < e ↔ e ≤ d :=
  Int.not_lt

theorem lt_iff_lex {d e : Day} :
    d < e ↔ d.year < e.year ∨
      d.year = e.year ∧ (d.month < e.month ∨ d.month = e.month ∧ d.day < e.day) := by
  have hdBounds := d.monthDay_bounds
  have heBounds := e.monthDay_bounds
  rw [lt_def, rank, rank]
  omega

theorem exists_ofYmd? {year : Int} {month day : Nat} (h : IsDay year month day) :
    ∃ d, ofYmd? year month day = some d :=
  ⟨⟨year, month, day, h⟩, dif_pos h⟩

theorem exists_next {d : Day} (h : d.year < lastYear) : ∃ e, d.next? = some e := by
  have hd := d.isDay
  have hfirst := hd.first_le
  unfold next?
  split
  case isTrue hlt =>
    exact exists_ofYmd? ⟨hfirst, hd.le_last, hd.month_pos, hd.month_le, by omega, by omega⟩
  case isFalse hge =>
    split
    case isTrue hlt =>
      have hpos : 1 ≤ daysInMonth d.year (d.month + 1) := one_le_daysInMonth (by omega) (by omega)
      exact exists_ofYmd? ⟨hfirst, hd.le_last, by omega, by omega, by omega, hpos⟩
    case isFalse hge' =>
      exact exists_ofYmd?
        ⟨by omega, by omega, by decide, by decide, by decide, by simp [daysInMonth]⟩

theorem exists_prev {d : Day} (h : firstYear < d.year) : ∃ e, d.prev? = some e := by
  have hd := d.isDay
  have hpos := hd.month_pos
  have hmonth := hd.month_le
  have hlast := hd.le_last
  unfold prev?
  split
  case isTrue hlt =>
    have hle := hd.day_le
    exact exists_ofYmd? ⟨hd.first_le, hlast, hpos, hmonth, by omega, by omega⟩
  case isFalse hge =>
    split
    case isTrue hlt =>
      have hdays : 1 ≤ daysInMonth d.year (d.month - 1) := one_le_daysInMonth (by omega) (by omega)
      exact exists_ofYmd? ⟨hd.first_le, hlast, by omega, by omega, hdays, Nat.le_refl _⟩
    case isFalse hge' =>
      exact exists_ofYmd?
        ⟨by omega, by omega, by decide, by decide, by decide, by simp [daysInMonth]⟩

theorem year_of_next? {d e : Day} (h : d.next? = some e) : d.year ≤ e.year := by
  unfold next? at h
  split at h
  · exact (ofYmd?_eq_some_iff.1 h).1.ge
  · split at h
    · exact (ofYmd?_eq_some_iff.1 h).1.ge
    · have hy := (ofYmd?_eq_some_iff.1 h).1
      omega

/-- The days before the day after are those up to the day itself. -/
theorem lt_next_iff {d e : Day} (h : d.next? = some e) (f : Day) : f < e ↔ f ≤ d := by
  have hd := d.monthDay_bounds
  have hf := f.monthDay_bounds
  have hlast := f.isDay.day_le
  rw [← not_lt, lt_iff_lex, lt_iff_lex]
  unfold next? at h
  split at h
  case isTrue hlt =>
    obtain ⟨hy, hm, hday⟩ := ofYmd?_eq_some_iff.1 h
    rw [hy, hm, hday]
    omega
  case isFalse hge =>
    -- a day of the same month is not past its end
    have hend : f.year = d.year → f.month = d.month → f.day ≤ d.day := by
      intro hyear hmonth
      rw [hyear, hmonth] at hlast
      omega
    split at h
    case isTrue hlt =>
      obtain ⟨hy, hm, hday⟩ := ofYmd?_eq_some_iff.1 h
      rw [hy, hm, hday]
      omega
    case isFalse hge' =>
      obtain ⟨hy, hm, hday⟩ := ofYmd?_eq_some_iff.1 h
      rw [hy, hm, hday]
      omega

theorem year_of_prev? {d e : Day} (h : d.prev? = some e) :
    e.year = d.year ∨ e.year = d.year - 1 ∧ e.month = 12 := by
  unfold prev? at h
  split at h
  · exact .inl (ofYmd?_eq_some_iff.1 h).1
  · split at h
    · exact .inl (ofYmd?_eq_some_iff.1 h).1
    · obtain ⟨hy, hm, -⟩ := ofYmd?_eq_some_iff.1 h
      exact .inr ⟨hy, hm⟩

theorem next?_of_prev? {d e : Day} (h : d.prev? = some e) : e.next? = some d := by
  have hpos := d.isDay.month_pos
  have hle := d.isDay.month_le
  have hday := d.isDay.day_le
  have hday' := d.isDay.day_pos
  unfold prev? at h
  unfold next?
  -- the steps back within a month, to a month before, and to the year before
  split at h
  case isTrue hlt =>
    obtain ⟨hy, hm, hd⟩ := ofYmd?_eq_some_iff.1 h
    rw [hy, hm, hd, if_pos (by omega), ofYmd?_eq_some_iff]
    exact ⟨rfl, rfl, by omega⟩
  case isFalse hge =>
    split at h
    case isTrue hlt =>
      obtain ⟨hy, hm, hd⟩ := ofYmd?_eq_some_iff.1 h
      rw [hy, hm, hd, if_neg (Nat.lt_irrefl _), if_pos (by omega), ofYmd?_eq_some_iff]
      exact ⟨rfl, by omega, by omega⟩
    case isFalse hge' =>
      obtain ⟨hy, hm, hd⟩ := ofYmd?_eq_some_iff.1 h
      rw [hy, hm, hd, if_neg (by simp [daysInMonth]), if_neg (by omega), ofYmd?_eq_some_iff]
      exact ⟨by omega, by omega, by omega⟩

end Day

end CrashReports
