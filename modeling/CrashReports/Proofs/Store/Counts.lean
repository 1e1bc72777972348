import CrashReports.Proofs.Store.Records

/-!
# Crashes that reach the chart

The rows of a day and a container are counted in one group, the group becomes one record,
and the record fills one cell of the series.  The identity that separates groups is the
stored one, though, and the identity that finds the cell is the one that was read from
it: a missing container and one whose text is empty are two groups and one cell.  The
first record of the cell decides it, so on a day that has both kinds the chart shows one
of the two groups only (`count_eq_length_crashesOn_iff`).
-/

namespace CrashReports.Store

/-- The rows of a table on a day whose container reads as a text. -/
def crashesOn (now : Int) (t : Table) (d : Day) (id : String) : List Row :=
  t.rows.filter fun row =>
    decide (row.crashedOn.day? now = some (.ofDay d) ∧
      readColumn "container_id" row.containerId = .ok id)

/-- The rows of a table on a day with a stored container. -/
def cellRows (now : Int) (t : Table) (d : Day) (c : TextCell) : List Row :=
  t.rows.filter fun row =>
    decide (row.crashedOn.day? now = some (.ofDay d)) && decide (row.containerId = c)

/-- Two stored containers of a day read as the same text. -/
def HasBothEmptyIds (now : Int) (t : Table) (d : Day) : Prop :=
  cellRows now t d .null ≠ [] ∧ cellRows now t d (.text "") ≠ []

variable {now : Int} {t : Table} {r : DayRange} {d : Day}

theorem length_crashesOn (now : Int) (t : Table) (d : Day) (id : String) :
    (crashesOn now t d id).length =
      (cellRows now t d (.text id)).length +
        if id = "" then (cellRows now t d .null).length else 0 := by
  unfold crashesOn cellRows
  generalize t.rows = rows
  induction rows with
  | nil => simp
  | cons row rows ih =>
    by_cases hday : row.crashedOn.day? now = some (.ofDay d)
    · have hread := @readColumn_eq_ok_iff "container_id" row.containerId id
      simp only [List.filter_cons, hday, true_and, decide_true, Bool.true_and, hread] at ih ⊢
      by_cases htext : row.containerId = .text id
      · simp only [htext, ih, true_or, decide_true, if_true, List.length_cons, reduceCtorEq,
          decide_false, Bool.false_eq_true, if_false]
        omega
      · by_cases hnull : row.containerId = .null
        · by_cases hid : id = ""
          · simp only [hnull, hid, true_and, if_true, reduceCtorEq, decide_true, decide_false,
              false_or, Bool.false_eq_true, if_false, List.length_cons] at ih ⊢
            omega
          · simp only [hnull, hid, and_false, or_false, reduceCtorEq, decide_false,
              Bool.false_eq_true, if_false] at ih ⊢
            exact ih
        · simp only [htext, hnull, false_and, or_false, decide_false, Bool.false_eq_true, if_false]
          exact ih
    · simp only [List.filter_cons, hday, false_and, decide_false, Bool.false_and,
        Bool.false_eq_true, if_false] at ih ⊢
      exact ih

/-! ### Groups of a day -/

theorem withinText_of_contains (hr : r.IsPlain) (hd : r.Contains d) :
    WithinText r (Ymd.ofDay d) :=
  (withinText_iff_contains hr (hr.of_contains hd)).2 hd

variable (now t) in
/-- There is a group for a day and a stored container if the table has such a row. -/
theorem exists_group_of_day (hr : r.IsPlain) (hd : r.Contains d) (c : TextCell) :
    (∃ g ∈ countGroups now t r, g.day = .ofDay d ∧ g.containerId = c) ↔
      cellRows now t d c ≠ [] := by
  rw [exists_mem_countGroups]
  constructor
  · rintro ⟨-, row, hrow, hday, hid⟩
    have hmem : row ∈ cellRows now t d c := List.mem_filter.2 ⟨hrow, by simp [hday, hid]⟩
    exact List.ne_nil_of_mem hmem
  · intro hne
    obtain ⟨row, hrow⟩ := List.exists_mem_of_ne_nil _ hne
    obtain ⟨hrow, hkey⟩ := List.mem_filter.1 hrow
    rw [Bool.and_eq_true, decide_eq_true_iff, decide_eq_true_iff] at hkey
    exact ⟨withinText_of_contains hr hd, row, hrow, hkey⟩

theorem size_eq_length_cellRows {g : Group} (hg : g ∈ countGroups now t r)
    (hday : g.day = .ofDay d) : g.size = (cellRows now t d g.containerId).length := by
  rw [size_of_mem_countGroups now t r hg, cellRows, hday]

/-- On every day of a range the chart shows for a container the number of its rows, except
for the empty text on a day on which it stands for two stored containers. -/
theorem count_eq_length_crashesOn_iff (hr : r.IsPlain) {records : List CountRecord}
    (h : (⟨some t, now⟩ : Store).counts r = .ok records) (hd : r.Contains d) (id : String) :
    (((⟨some t, now⟩ : Store).source.query r).report.series.count d id).toNat =
        (crashesOn now t d id).length ↔
      ¬ (id = "" ∧ HasBothEmptyIds now t d) := by
  have htext := exists_group_of_day now t hr hd (.text id)
  have hnull := exists_group_of_day now t hr hd .null
  rw [series_of_query h, toNat_count h, length_crashesOn]
  cases hgroup : (countGroups now t r).find? fun g => decide (Fills d id g) with
  | none =>
    -- no group of the cell, so the table has no row for it either
    have hnone : ∀ g ∈ countGroups now t r, ¬ Fills d id g := by
      simpa using List.find?_eq_none.1 hgroup
    have hnotext : cellRows now t d (.text id) = [] := by
      by_contra hne
      obtain ⟨g, hg, hday, hid⟩ := htext.2 hne
      exact hnone g hg ⟨hday, readColumn_eq_ok_iff.2 (.inl hid)⟩
    have hnonull : id = "" → cellRows now t d .null = [] := by
      intro hempty
      by_contra hne
      obtain ⟨g, hg, hday, hid⟩ := hnull.2 hne
      exact hnone g hg ⟨hday, readColumn_eq_ok_iff.2 (.inr ⟨hid, hempty⟩)⟩
    constructor
    · rintro - ⟨rfl, -, hne⟩
      exact hne hnotext
    · intro _
      rw [hnotext]
      by_cases hempty : id = ""
      · rw [if_pos hempty, hnonull hempty]
        rfl
      · rw [if_neg hempty]
        rfl
  | some g =>
    have hmem := List.mem_of_find?_eq_some hgroup
    have hfills := List.find?_some hgroup
    rw [decide_eq_true_iff] at hfills
    obtain ⟨hday, hread⟩ := hfills
    have hsize := size_eq_length_cellRows hmem hday
    have hpos := group_size_pos ((mem_countGroups now t r).1 hmem)
    simp only [Option.elim_some, HasBothEmptyIds, ← List.length_pos_iff]
    -- the group counts the rows of its own container; the rows of the other one are missing
    rcases readColumn_eq_ok_iff.1 hread with hid | ⟨hid, rfl⟩
    · rw [hid] at hsize
      by_cases hempty : id = ""
      · subst hempty
        rw [if_pos rfl]
        simp only [true_and]
        omega
      · rw [if_neg hempty]
        exact iff_of_true (by omega) fun hboth => hempty hboth.1
    · rw [hid] at hsize
      rw [if_pos rfl]
      simp only [true_and]
      omega

/-- A day with a crash of a missing container, one of an empty one, and two of another. -/
def mixedTable : Table :=
  ⟨[⟨1, .null, .text "a", .text "x", .text "2024-05-01 08:00:00"⟩,
    ⟨2, .text "", .text "b", .text "y", .text "2024-05-01 09:00:00"⟩,
    ⟨3, .text "web", .null, .null, .text "2024-05-01 10:00:00"⟩,
    ⟨5, .text "web", .null, .null, .text "2024-05-01 07:00:00"⟩], by simp⟩

/-- The day of `mixedTable`. -/
def mixedDay : Day := ⟨2024, 5, 1, by decide⟩

/-- The range of that day alone. -/
def mixedRange : DayRange := ⟨mixedDay, mixedDay, by decide⟩

/-- The records of `mixedTable`. -/
def mixedRecords : List CountRecord :=
  [⟨"web", "", some mixedDay, 2⟩, ⟨"", "a", some mixedDay, 1⟩, ⟨"", "b", some mixedDay, 1⟩]

theorem isPlain_mixedRange : mixedRange.IsPlain := by
  decide +kernel

theorem counts_mixedTable :
    (⟨some mixedTable, noon⟩ : Store).counts mixedRange = .ok mixedRecords := by
  decide +kernel

theorem count_web_of_mixedTable :
    mixedRange.IsPlain ∧ (⟨some mixedTable, noon⟩ : Store).counts mixedRange = .ok mixedRecords ∧
      mixedRange.Contains mixedDay ∧
      ((((⟨some mixedTable, noon⟩ : Store).source.query mixedRange).report.series.count mixedDay
          "web").toNat = (crashesOn noon mixedTable mixedDay "web").length ↔
        ¬ ("web" = "" ∧ HasBothEmptyIds noon mixedTable mixedDay)) :=
  ⟨isPlain_mixedRange, counts_mixedTable, by decide,
    count_eq_length_crashesOn_iff isPlain_mixedRange counts_mixedTable (by decide) "web"⟩

/-- The chart shows one crash of the empty text where the table has two. -/
theorem count_empty_of_mixedTable :
    mixedRange.IsPlain ∧ (⟨some mixedTable, noon⟩ : Store).counts mixedRange = .ok mixedRecords ∧
      mixedRange.Contains mixedDay ∧
      (((⟨some mixedTable, noon⟩ : Store).source.query mixedRange).report.series.count mixedDay
          "").toNat = 1 ∧
      (crashesOn noon mixedTable mixedDay "").length = 2 := by
  refine ⟨isPlain_mixedRange, counts_mixedTable, by decide, ?_, by decide +kernel⟩
  rw [series_of_query counts_mixedTable]
  decide +kernel

end CrashReports.Store
