import CrashReports.Proofs.Store.Fetch

/-!
# Where the filter of texts is the range of days

A range is made of days, but the store compares texts.  A sign breaks the order of the
calendar: texts that begin with `+` come before all others, so a range that ends after
the year 9999 selects nothing; and among the years with a minus sign a later year comes
first.  The days of stored rows reach from -4713 to 9999, and for these it is said here
which of them a range selects (`withinText_iff`), and for which ranges and days this is
what the calendar says (`fetches_select_iff`).
-/

namespace CrashReports.Store

/-- The days that a range selects, without texts. -/
def WithinWritten (r : DayRange) (d : Day) : Prop :=
  r.stop.year ≤ 9999 ∧
    if 0 ≤ d.year then r.Contains d
    else r.start.year < 0 ∧ r.start.writtenRank ≤ d.writtenRank ∧
      (0 ≤ r.stop.year ∨ d.writtenRank ≤ r.stop.writtenRank)

instance (r : DayRange) (d : Day) : Decidable (WithinWritten r d) :=
  inferInstanceAs (Decidable (_ ∧ _))

/-- The texts of a range and a day are ordered as the calendar has it. -/
def FilterFits (r : DayRange) (d : Day) : Prop :=
  if 9999 < r.stop.year then ¬ r.Contains d
  else
    0 ≤ d.year ∨ 0 ≤ r.start.year ∨
      ((r.start.writtenRank ≤ d.writtenRank ∧
          (0 ≤ r.stop.year ∨ d.writtenRank ≤ r.stop.writtenRank)) ↔
        r.Contains d)

instance (r : DayRange) (d : Day) : Decidable (FilterFits r d) := by
  unfold FilterFits
  infer_instance

variable {r : DayRange} {d : Day}

theorem withinText_ofDay_iff :
    WithinText r (Ymd.ofDay d) ↔ ¬ d.render < r.start.render ∧ ¬ r.stop.render < d.render := by
  unfold WithinText DayRange.bounds
  rw [toString_ofDay, ← Std.not_lt, ← Std.not_lt, Day.toString_lt_iff, Day.toString_lt_iff]

/-- Which days a range selects, if their years have four digits. -/
theorem withinText_iff (h0 : -9999 ≤ d.year) (h1 : d.year ≤ 9999) :
    WithinText r (Ymd.ofDay d) ↔ WithinWritten r d := by
  have hends := Day.year_le_of_le r.start_le_stop
  rw [withinText_ofDay_iff]
  unfold WithinWritten
  obtain hlate | hstop := Int.lt_or_le 9999 r.stop.year
  -- the plus sign of the end comes before everything that a stored day can begin with
  · have hlt := Day.render_lt_of_late hlate h1
    exact iff_of_false (fun h => h.2 hlt) (by omega)
  · rw [and_iff_right hstop]
    obtain hplain | hneg : 0 ≤ d.year ∨ d.year < 0 := by omega
    -- ends without a sign are ordered as days, and ends with a minus sign come before them
    · rw [if_pos hplain, DayRange.Contains]
      apply and_congr
      · obtain hstart | hstart : 0 ≤ r.start.year ∨ r.start.year < 0 := by omega
        · rw [Day.render_lt_of_plain ⟨hplain, h1⟩ ⟨hstart, by omega⟩, Day.lt_def, Day.le_def]
          omega
        · have hlt := Day.render_lt_of_neg_of_plain hstart ⟨hplain, h1⟩
          have hle : r.start < d := Day.lt_iff_lex.2 (.inl (by omega))
          exact iff_of_true (List.lt_asymm hlt) (Day.lt_def.1 hle).le
      · obtain hstop' | hstop' : 0 ≤ r.stop.year ∨ r.stop.year < 0 := by omega
        · rw [Day.render_lt_of_plain ⟨hstop', hstop⟩ ⟨hplain, h1⟩, Day.lt_def, Day.le_def]
          omega
        · have hlt := Day.render_lt_of_neg_of_plain hstop' ⟨hplain, h1⟩
          have hle : ¬ d ≤ r.stop := fun h => by
            have := Day.year_le_of_le h
            omega
          exact iff_of_false (fun h => h hlt) hle
    -- among days with a minus sign the places of the texts count
    · rw [if_neg (by omega)]
      obtain hstart | hstart : 0 ≤ r.start.year ∨ r.start.year < 0 := by omega
      · have hlt := Day.render_lt_of_neg_of_plain hneg (e := r.start) ⟨hstart, by omega⟩
        exact iff_of_false (fun h => h.1 hlt) (by omega)
      · rw [and_iff_right hstart, (Day.render_lt_of_neg h0 hneg hstart).1]
        obtain hstop' | hstop' : 0 ≤ r.stop.year ∨ r.stop.year < 0 := by omega
        · have hlt := Day.render_lt_of_neg_of_plain hneg (e := r.stop) ⟨hstop', hstop⟩
          rw [and_iff_left (List.lt_asymm hlt), and_iff_left (.inl hstop')]
          omega
        · rw [(Day.render_lt_of_neg h0 hneg hstop').2]
          omega

/-- What a range selects fits the calendar exactly if its texts do. -/
theorem withinWritten_iff_contains :
    (WithinWritten r d ↔ r.Contains d) ↔ FilterFits r d := by
  have hends := Day.year_le_of_le r.start_le_stop
  unfold WithinWritten FilterFits
  obtain hlate | hstop := Int.lt_or_le 9999 r.stop.year
  · rw [if_pos hlate]
    exact iff_false_left fun h => absurd h.1 (by omega)
  · rw [if_neg (show ¬ 9999 < r.stop.year by omega), and_iff_right hstop]
    obtain hplain | hneg : 0 ≤ d.year ∨ d.year < 0 := by omega
    · rw [if_pos hplain]
      exact iff_of_true Iff.rfl (.inl hplain)
    · rw [if_neg (by omega), or_iff_right (show ¬ 0 ≤ d.year by omega)]
      obtain hstart | hstart : 0 ≤ r.start.year ∨ r.start.year < 0 := by omega
      · have hbefore : ¬ r.Contains d := fun h => by
          have := Day.year_le_of_le h.1
          omega
        exact iff_of_true (iff_of_false (by omega) hbefore) (.inl hstart)
      · rw [and_iff_right hstart, or_iff_right (show ¬ 0 ≤ r.start.year by omega)]

/-- Both fetches take a row with a day of the calendar for the ranges that contain this
day, and count it on that day, exactly if the texts of range and day are ordered as the
days are. -/
theorem fetches_select_iff (now : Int) (t : Table) (r : DayRange) {row : Row}
    (hrow : row ∈ t.rows) {d : Day} (hday : row.crashedOn.day? now = some (.ofDay d)) :
    ((row ∈ eventRows now t r ↔ r.Contains d) ∧
        (IsCountedOn now t r row (.ofDay d) ↔ r.Contains d)) ↔
      FilterFits r d := by
  obtain ⟨hlow, hhigh⟩ := year_of_day? hday
  have hwithin : WithinText r (Ymd.ofDay d) ↔ WithinWritten r d :=
    withinText_iff (Int.le_trans (by decide) hlow) hhigh
  have hevents : row ∈ eventRows now t r ↔ WithinWritten r d := by
    rw [mem_eventRows_of_day now t r hrow hday, hwithin]
  have hcounts : IsCountedOn now t r row (.ofDay d) ↔ WithinWritten r d := by
    rw [isCountedOn_of_day now t r hrow hday, and_iff_right rfl, hwithin]
  rw [hevents, hcounts, and_self, withinWritten_iff_contains]

/-- A single crash. -/
def loneRow : Row :=
  ⟨1, .text "web", .text "web", .text "x", .text "2024-06-02 08:00:00"⟩

/-- The table of a single crash. -/
def loneTable : Table := ⟨[loneRow], by simp⟩

/-- The day of that crash. -/
def loneDay : Day := ⟨2024, 6, 2, by decide⟩

/-- A range that begins on that day and ends after the year 9999. -/
def wideRange : DayRange := ⟨loneDay, ⟨10000, 1, 1, by decide⟩, by decide⟩

theorem day?_loneRow : loneRow.crashedOn.day? noon = some (.ofDay loneDay) := by
  decide +kernel

theorem fetches_select_loneRow :
    loneRow ∈ loneTable.rows ∧ loneRow.crashedOn.day? noon = some (.ofDay loneDay) ∧
      (((loneRow ∈ eventRows noon loneTable wideRange ↔ wideRange.Contains loneDay) ∧
          (IsCountedOn noon loneTable wideRange loneRow (.ofDay loneDay) ↔
            wideRange.Contains loneDay)) ↔
        FilterFits wideRange loneDay) :=
  ⟨List.mem_singleton_self _, day?_loneRow,
    fetches_select_iff noon loneTable wideRange (List.mem_singleton_self _) day?_loneRow⟩

/-- A range that is accepted and contains the day of a row selects nothing. -/
theorem wideRange_selects_nothing :
    DayRange.parse (some "2024-06-02") (some "+10000-01-01") = .ok wideRange ∧
      loneRow ∈ loneTable.rows ∧ loneRow.crashedOn.day? noon = some (.ofDay loneDay) ∧
      wideRange.Contains loneDay ∧
      (⟨some loneTable, noon⟩ : Store).events wideRange = .ok [] ∧
      (⟨some loneTable, noon⟩ : Store).counts wideRange = .ok [] := by
  refine ⟨by decide +kernel, List.mem_singleton_self _, day?_loneRow, by decide, ?_, ?_⟩
  · decide +kernel
  · decide +kernel

end CrashReports.Store
