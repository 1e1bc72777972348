import CrashReports.Proofs.Crash.Binning

/-!
# Looking up in any series

A series that was read from elsewhere need not be a full matrix.  A container may stand twice in
its legend or not at all, there may be more or fewer rows than containers, and a row may have any
number of cells.  As long as its days are ascending, what is looked up in it is what one finds by
going through its lists from their beginnings (`Series.isLookedUp_of_ascending`): the row at the
first entry of the container, the cell at the index of the day, and nothing where one of them is
missing.
-/

namespace CrashReports.Series

/-- The index of the first legend entry of a container. -/
structure IsFirstEntry (containers : List ContainerKey) (id : String) (i : Nat) : Prop where
  entry : ∃ k, containers[i]? = some k ∧ k.containerId = id
  first : ∀ j k, containers[j]? = some k → k.containerId = id → i ≤ j

/-- The cell of a container on a day: in the row at the first entry of the container, at an index
of the day. -/
def HasCell (s : Series) (d : Day) (id : String) (n : UInt32) : Prop :=
  ∃ (i j : Nat) (row : List UInt32), IsFirstEntry s.containers id i ∧ s.counts[i]? = some row ∧
    s.dates[j]? = some d ∧ row[j]? = some n

/-- The count of a container on a day, with the day looked for from the beginning. -/
def scannedCount (s : Series) (d : Day) (id : String) : UInt32 :=
  match s.dates.idxOf? d, s.row? id with
  | some column, some row => row[column]?.getD 0
  | _, _ => 0

/-- What looking up in a series must give. -/
structure IsLookedUp (s : Series) : Prop where
  row?_eq_some_iff : ∀ id row,
    s.row? id = some row ↔ ∃ i, IsFirstEntry s.containers id i ∧ s.counts[i]? = some row
  /-- There is no row for a container that is not in the legend, or whose entry stands beyond the
  last row. -/
  row?_eq_none_iff : ∀ id, s.row? id = none ↔
    (∀ k ∈ s.containers, k.containerId ≠ id) ∨
      ∃ i, IsFirstEntry s.containers id i ∧ s.counts.length ≤ i
  count_eq_scannedCount : ∀ d id, s.count d id = s.scannedCount d id
  count_eq_iff : ∀ d id n,
    s.count d id = n ↔ s.HasCell d id n ∨ n = 0 ∧ ¬ ∃ m, s.HasCell d id m
  /-- The search for the day looks nowhere outside of the days. -/
  watch_eq_ok : ∀ d, Axis.watch s.dates d = .ok (Axis.search s.dates d)
  column_lt : ∀ d column, Axis.search s.dates d = some column → column < s.dates.length

/-! ### Rows -/

theorem rowIndex?_eq_some_iff_isFirstEntry {containers : List ContainerKey} {id : String}
    {i : Nat} : rowIndex? containers id = some i ↔ IsFirstEntry containers id i := by
  rw [rowIndex?, List.findIdx?_eq_some_iff_getElem]
  constructor
  · rintro ⟨hi, hid, hfirst⟩
    refine ⟨⟨containers[i], List.getElem?_eq_getElem hi, by simpa using hid⟩, ?_⟩
    intro j k hj hk
    by_contra hlt
    obtain ⟨hj', rfl⟩ := List.getElem?_eq_some_iff.1 hj
    exact hfirst j (by omega) (by simpa using hk)
  · rintro ⟨⟨k, hi, hid⟩, hfirst⟩
    obtain ⟨hi', rfl⟩ := List.getElem?_eq_some_iff.1 hi
    refine ⟨hi', by simpa using hid, fun j hj hjd => ?_⟩
    have hle := hfirst j _ (List.getElem?_eq_getElem (by omega)) (by simpa using hjd)
    omega

variable {s : Series} {d : Day} {id : String}

theorem IsFirstEntry.row?_eq {i : Nat} (h : IsFirstEntry s.containers id i) :
    s.row? id = s.counts[i]? := by
  rw [row?, rowIndex?_eq_some_iff_isFirstEntry.2 h]
  rfl

theorem row?_eq_none_of_not_mem (h : ∀ k ∈ s.containers, k.containerId ≠ id) :
    s.row? id = none := by
  have hindex : rowIndex? s.containers id = none := by
    rw [rowIndex?_eq_none_iff]
    simpa [ids] using h
  rw [row?, hindex]
  rfl

/-- A container is in the legend with a first entry, or it is not there. -/
theorem exists_isFirstEntry_or (s : Series) (id : String) :
    (∃ i, IsFirstEntry s.containers id i) ∨ ∀ k ∈ s.containers, k.containerId ≠ id := by
  cases hindex : rowIndex? s.containers id with
  | some i => exact .inl ⟨i, rowIndex?_eq_some_iff_isFirstEntry.1 hindex⟩
  | none =>
    right
    simpa [ids] using rowIndex?_eq_none_iff.1 hindex

theorem row?_eq_some_iff_exists {row : List UInt32} :
    s.row? id = some row ↔ ∃ i, IsFirstEntry s.containers id i ∧ s.counts[i]? = some row := by
  constructor
  · intro hrow
    obtain ⟨i, hi⟩ | hnone := exists_isFirstEntry_or s id
    · exact ⟨i, hi, hi.row?_eq ▸ hrow⟩
    · rw [row?_eq_none_of_not_mem hnone] at hrow
      cases hrow
  · rintro ⟨i, hi, hrow⟩
    rw [hi.row?_eq, hrow]

theorem row?_eq_none_iff_of_entries :
    s.row? id = none ↔ (∀ k ∈ s.containers, k.containerId ≠ id) ∨
      ∃ i, IsFirstEntry s.containers id i ∧ s.counts.length ≤ i := by
  constructor
  · intro hrow
    obtain ⟨i, hi⟩ | hnone := exists_isFirstEntry_or s id
    · rw [hi.row?_eq, List.getElem?_eq_none_iff] at hrow
      exact .inr ⟨i, hi, hrow⟩
    · exact .inl hnone
  · rintro (hnone | ⟨i, hi, hlength⟩)
    · exact row?_eq_none_of_not_mem hnone
    · rw [hi.row?_eq, List.getElem?_eq_none_iff]
      exact hlength

/-! ### Cells -/

/-- The count is the cell at the index of the day, if row, day and cell are there. -/
theorem count_eq_scannedCount_of_ascending (h : Axis.Ascending s.dates) (d : Day) (id : String) :
    s.count d id = s.scannedCount d id := by
  unfold count scannedCount
  rw [Axis.search_eq_idxOf? h]
  cases s.dates.idxOf? d with
  | none => rfl
  | some column => cases s.row? id <;> rfl

theorem HasCell.count_eq (h : Axis.Ascending s.dates) {n : UInt32} (hcell : s.HasCell d id n) :
    s.count d id = n := by
  obtain ⟨i, j, row, hi, hrow, hday, hn⟩ := hcell
  have hsearch := (Axis.search_eq_some_iff h).2 hday
  simp [count, hsearch, hi.row?_eq, hrow, hn]

theorem count_eq_zero_of_not_hasCell (h : Axis.Ascending s.dates)
    (hnone : ¬ ∃ m, s.HasCell d id m) : s.count d id = 0 := by
  unfold count
  cases hsearch : Axis.search s.dates d with
  | none => rfl
  | some column =>
    cases hrow : s.row? id with
    | none => rfl
    | some row =>
      cases hcell : row[column]? with
      | none => simp [hcell]
      | some n =>
        obtain ⟨i, hi, hcounts⟩ := row?_eq_some_iff_exists.1 hrow
        have hday := (Axis.search_eq_some_iff h).1 hsearch
        exact absurd ⟨n, i, column, row, hi, hcounts, hday, hcell⟩ hnone

theorem count_eq_iff_of_ascending (h : Axis.Ascending s.dates) {n : UInt32} :
    s.count d id = n ↔ s.HasCell d id n ∨ n = 0 ∧ ¬ ∃ m, s.HasCell d id m := by
  by_cases hcell : ∃ m, s.HasCell d id m
  · obtain ⟨m, hm⟩ := hcell
    rw [hm.count_eq h]
    constructor
    · rintro rfl
      exact .inl hm
    · rintro (hn | ⟨-, hnone⟩)
      · rw [← hm.count_eq h, hn.count_eq h]
      · exact absurd ⟨m, hm⟩ hnone
  · rw [count_eq_zero_of_not_hasCell h hcell]
    constructor
    · rintro rfl
      exact .inr ⟨rfl, hcell⟩
    · rintro (hn | ⟨rfl, -⟩)
      · exact absurd ⟨n, hn⟩ hcell
      · rfl

/-- Whatever else a series holds: if its days are ascending, looking up in it gives what stands
in its lists. -/
theorem isLookedUp_of_ascending (h : Axis.Ascending s.dates) : s.IsLookedUp where
  row?_eq_some_iff _ _ := row?_eq_some_iff_exists
  row?_eq_none_iff _ := row?_eq_none_iff_of_entries
  count_eq_scannedCount := count_eq_scannedCount_of_ascending h
  count_eq_iff _ _ _ := count_eq_iff_of_ascending h
  watch_eq_ok := Axis.watch_eq_ok s.dates
  column_lt _ _ hsearch := (List.getElem?_eq_some_iff.1 ((Axis.search_eq_some_iff h).1 hsearch)).1

/-- A series with a container that stands twice in the legend, a row that is too long, one that is
too short, and no row for the last two entries. -/
def raggedSeries : Series :=
  ⟨[⟨2023, 4, 28, by decide⟩, ⟨2023, 4, 30, by decide⟩, ⟨2023, 5, 1, by decide⟩],
    [⟨"web", "web"⟩, ⟨"db", "db"⟩, ⟨"web", "old web"⟩, ⟨"cache", "cache"⟩], [[4, 5, 6, 7], [8]]⟩

theorem isLookedUp_raggedSeries :
    Axis.Ascending raggedSeries.dates ∧ raggedSeries.IsLookedUp := by
  have h : Axis.Ascending raggedSeries.dates := by
    unfold Axis.Ascending
    decide
  exact ⟨h, isLookedUp_of_ascending h⟩

example : (raggedSeries.row? "web", raggedSeries.row? "cache", raggedSeries.row? "proxy") =
    (some [4, 5, 6, 7], none, none) := by
  decide

end CrashReports.Series
