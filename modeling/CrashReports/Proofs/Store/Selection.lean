import CrashReports.Proofs.Calendar.DayText
import CrashReports.Proofs.Store.Arrange
import CrashReports.Proofs.Store.JulianDay

/-!
# The rows that a range selects

Both fetches of a store take the same rows: those whose day, as text, lies between the
texts of the ends of the range.  Selection looks at nothing but the day, and it keeps the
order of the row numbers.

Between ends that are written in four digits it is the calendar that decides:
`withinText_iff_contains`.
-/

namespace CrashReports

namespace Day

theorem year_le_of_le {d e : Day} (h : d ≤ e) : d.year ≤ e.year := by
  by_contra hlt
  have hlt' : e < d := lt_iff_lex.2 (.inl (by omega))
  rw [le_def] at h
  rw [lt_def] at hlt'
  omega

end Day

/-- Both ends of a range are written in four digits. -/
def DayRange.IsPlain (r : DayRange) : Prop :=
  r.start.IsPlain ∧ r.stop.IsPlain

instance (r : DayRange) : Decidable r.IsPlain :=
  inferInstanceAs (Decidable (_ ∧ _))

theorem DayRange.IsPlain.of_contains {r : DayRange} (hr : r.IsPlain) {d : Day} (hd : r.Contains d) :
    d.IsPlain :=
  ⟨hr.1.1.trans (Day.year_le_of_le hd.1), (Day.year_le_of_le hd.2).trans hr.2.2⟩

namespace Store

variable {now : Int}

/-- The text of a day lies between the texts of the ends of a range. -/
def WithinText (r : DayRange) (y : Ymd) : Prop :=
  r.bounds.1 ≤ toString y ∧ toString y ≤ r.bounds.2

@[simp]
theorem toString_ofDay (d : Day) : toString (Ymd.ofDay d) = toString d := rfl

theorem Ymd.toString_inj {y z : Ymd} : toString y = toString z ↔ y = z := by
  show String.ofList y.render = String.ofList z.render ↔ y = z
  rw [String.ofList_inj, Ymd.render, Ymd.render, renderYmd_inj, Ymd.mk.injEq]

theorem withinText_iff_contains {r : DayRange} (hr : r.IsPlain) {d : Day} (hd : d.IsPlain) :
    WithinText r (Ymd.ofDay d) ↔ r.Contains d := by
  unfold WithinText DayRange.bounds DayRange.Contains
  rw [toString_ofDay, Day.toString_le_iff_of_plain hr.1 hd, Day.toString_le_iff_of_plain hd hr.2]

theorem selectedDay?_eq_some_iff {r : DayRange} {row : Row} {y : Ymd} :
    selectedDay? now r row = some y ↔ row.crashedOn.day? now = some y ∧ WithinText r y := by
  unfold selectedDay?
  cases hday : row.crashedOn.day? now with
  | none => simp
  | some d =>
    dsimp only
    constructor
    · intro h
      split at h
      case isTrue hwithin =>
        obtain rfl := Option.some.inj h
        exact ⟨rfl, hwithin⟩
      case isFalse => cases h
    · rintro ⟨heq, hwithin⟩
      obtain rfl := Option.some.inj heq
      exact if_pos hwithin

theorem selected_cons (now : Int) (r : DayRange) (row : Row) (rows : List Row) :
    selected now r (row :: rows) =
      ((selectedDay? now r row).map fun d => (d, row)).toList ++ selected now r rows := by
  unfold selected
  rw [List.filterMap_cons]
  cases selectedDay? now r row <;> rfl

theorem mem_selected {r : DayRange} {rows : List Row} {x : Selected} :
    x ∈ selected now r rows ↔
      x.2 ∈ rows ∧ x.2.crashedOn.day? now = some x.1 ∧ WithinText r x.1 := by
  unfold selected
  simp only [List.mem_filterMap, Option.map_eq_some_iff, selectedDay?_eq_some_iff]
  constructor
  · rintro ⟨row, hrow, y, hy, rfl⟩
    exact ⟨hrow, hy⟩
  · rintro ⟨hrow, hy⟩
    exact ⟨x.2, hrow, x.1, hy, rfl⟩

/-- A row is selected if its day is; no other row can stand for it. -/
theorem mem_map_snd_selected {r : DayRange} {rows : List Row} {row : Row} :
    row ∈ (selected now r rows).map Prod.snd ↔
      row ∈ rows ∧ ∃ y, row.crashedOn.day? now = some y ∧ WithinText r y := by
  rw [List.mem_map]
  constructor
  · rintro ⟨x, hx, rfl⟩
    obtain ⟨hrow, hday⟩ := mem_selected.1 hx
    exact ⟨hrow, x.1, hday⟩
  · rintro ⟨hrow, y, hday⟩
    exact ⟨(y, row), mem_selected.2 ⟨hrow, hday⟩, rfl⟩

/-- Selection passes a property of two rows on to the selected ones. -/
theorem selected_pairwise {P : Row → Row → Prop} {r : DayRange} {rows : List Row}
    (h : rows.Pairwise P) : (selected now r rows).Pairwise fun a b => P a.2 b.2 := by
  refine List.pairwise_filterMap.2 (h.imp ?_)
  intro a b hab x hx y hy
  obtain ⟨d, -, rfl⟩ := Option.map_eq_some_iff.1 hx
  obtain ⟨e, -, rfl⟩ := Option.map_eq_some_iff.1 hy
  exact hab

/-- How many rows of a day within the range have a property is the same before and after
selection. -/
theorem length_filter_selected {r : DayRange} {y : Ymd} (hy : WithinText r y) (rows : List Row)
    (p : Row → Bool) :
    ((selected now r rows).filter fun x => decide (x.1 = y) && p x.2).length =
      (rows.filter fun row => decide (row.crashedOn.day? now = some y) && p row).length := by
  induction rows with
  | nil => rfl
  | cons row rows ih =>
    rw [selected_cons, List.filter_append, List.length_append, ih, List.filter_cons]
    by_cases hday : row.crashedOn.day? now = some y
    · rw [selectedDay?_eq_some_iff.2 ⟨hday, hy⟩]
      cases hp : p row <;> simp [hday, hp, Nat.add_comm]
    -- a row of another day is selected for that day, if at all
    · have hhead : (((selectedDay? now r row).map fun d => (d, row)).toList.filter fun x =>
          decide (x.1 = y) && p x.2) = [] := by
        cases hsel : selectedDay? now r row with
        | none => rfl
        | some d =>
          have hne : d ≠ y := by
            rintro rfl
            exact hday (selectedDay?_eq_some_iff.1 hsel).1
          simp [hne]
      rw [hhead]
      simp [hday]

end Store

end CrashReports
