import CrashReports.Proofs.Crash.Chart

/-!
# Binning undoes the listing of cells

The series that are binned from records are the dense ones (`Series.IsDense`): a full matrix over
ascending days and distinct containers.  Each of them is binned from its own cells, listed as
records, be it container by container or day by day (`isDense_iff_ofRecords`).

Both orders are cases of one statement: any list of records that has the cells of a dense series,
each as often as one likes, and first meets the containers in the order of the legend is binned
to that series (`IsListing.ofRecords_eq`).
-/

namespace CrashReports.Series

/-! ### Dense series -/

/-- A series with one cell for each day and container, on axes without repetitions. -/
structure IsDense (s : Series) : Prop where
  ascending : Axis.Ascending s.dates
  nodup : (ids s.containers).Nodup
  rows : s.counts.length = s.containers.length
  cells : ∀ row ∈ s.counts, row.length = s.dates.length
  dates_eq_nil_iff : s.dates = [] ↔ s.containers = []

theorem isDense_ofRecords (records : List CountRecord) : (ofRecords records).IsDense where
  ascending := ascending_dates records
  nodup := nodup_ids_legendOf (dated records)
  rows := length_counts_ofRecords records
  cells _ h := length_row_ofRecords records h
  dates_eq_nil_iff := (dates_eq_nil_iff records).trans (containers_eq_nil_iff records).symm

variable {s : Series}

/-- A cell of a dense series is found by its day and its container. -/
theorem IsDense.count_eq (h : s.IsDense) {i j : Nat} {k : ContainerKey} {d : Day}
    {row : List UInt32} {n : UInt32} (hk : s.containers[i]? = some k)
    (hrow : s.counts[i]? = some row) (hd : s.dates[j]? = some d) (hn : row[j]? = some n) :
    s.count d k.containerId = n := by
  have hindex := (rowIndex?_eq_some_iff h.nodup).2 (getElem?_ids_eq_some_iff.2 ⟨k, hk, rfl⟩)
  have hcolumn := (Axis.search_eq_some_iff h.ascending).2 hd
  have hread : s.row? k.containerId = some row := by
    rw [row?, hindex]
    exact hrow
  simp only [count, hcolumn, hread, Option.bind_some, hn, Option.getD_some]

/-- The counts of a dense series are the matrix of its cells. -/
theorem IsDense.counts_eq (h : s.IsDense) :
    s.counts = matrix s.dates s.containers s.count := by
  refine List.ext_getElem (by rw [length_matrix, h.rows]) fun i hi hi' => ?_
  have hk : i < s.containers.length := h.rows ▸ hi
  have hlength := h.cells _ (List.getElem_mem hi)
  refine List.ext_getElem ?_ fun j hj hj' => ?_
  · rw [hlength, length_of_mem_matrix (List.getElem_mem hi')]
  · have hd : j < s.dates.length := hlength ▸ hj
    have hcount := h.count_eq (List.getElem?_eq_getElem hk) (List.getElem?_eq_getElem hi)
      (List.getElem?_eq_getElem hd) (List.getElem?_eq_getElem hj)
    simpa [matrix] using hcount.symm

/-! ### Listings -/

/-- The record of one cell. -/
def cellRecord (k : ContainerKey) (d : Day) (n : UInt32) : CountRecord :=
  ⟨k.containerId, k.containerName, some d, n⟩

/-- The cells of a series as records, container by container. -/
def cellsByContainer (s : Series) : List CountRecord :=
  (s.containers.zip s.counts).flatMap fun (k, row) =>
    (s.dates.zip row).map fun (d, n) => cellRecord k d n

/-- The cells of a series as records, day by day. -/
def cellsByDay (s : Series) : List CountRecord :=
  s.dates.zipIdx.flatMap fun (d, column) =>
    (s.containers.zip s.counts).filterMap fun (k, row) => row[column]?.map fun n => cellRecord k d n

/-- Records that are the cells of a series, with the containers in the order of its legend. -/
structure IsListing (records : List CountRecord) (s : Series) : Prop where
  mem_iff : ∀ r, r ∈ records ↔
    ∃ k ∈ s.containers, ∃ d ∈ s.dates, r = cellRecord k d (s.count d k.containerId)
  ids : (records.map CountRecord.containerId).eraseDups = ids s.containers

theorem IsDense.cellsByContainer_eq (h : s.IsDense) :
    s.cellsByContainer = s.containers.flatMap fun k =>
      s.dates.map fun d => cellRecord k d (s.count d k.containerId) := by
  unfold cellsByContainer
  rw [h.counts_eq, matrix, ← List.map_prod_left_eq_zip, List.flatMap_map]
  refine List.flatMap_congr fun k _ => ?_
  dsimp only
  rw [← List.map_prod_left_eq_zip, List.map_map]
  rfl

theorem IsDense.cellsByDay_eq (h : s.IsDense) :
    s.cellsByDay = s.dates.flatMap fun d =>
      s.containers.map fun k => cellRecord k d (s.count d k.containerId) := by
  unfold cellsByDay
  rw [h.counts_eq, matrix, ← List.map_prod_left_eq_zip]
  conv_rhs => rw [← List.zipIdx_map_fst 0 s.dates, List.flatMap_map]
  refine List.flatMap_congr fun p hmem => ?_
  obtain ⟨d, column⟩ := p
  have hd : s.dates[column]? = some d := List.mem_zipIdx_iff_getElem?.1 hmem
  dsimp only
  rw [List.filterMap_map, ← List.filterMap_eq_map]
  refine List.filterMap_congr fun k _ => ?_
  simp only [Function.comp_apply, List.getElem?_map, hd, Option.map_some]

theorem IsDense.isListing_cellsByContainer (h : s.IsDense) : IsListing s.cellsByContainer s where
  mem_iff r := by
    simp only [h.cellsByContainer_eq, List.mem_flatMap, List.mem_map, eq_comm]
  ids := by
    rw [h.cellsByContainer_eq]
    by_cases hempty : s.dates = []
    · rw [h.dates_eq_nil_iff.1 hempty]
      rfl
    · have hids := Gather.eraseDups_flatMap_map_const hempty h.nodup
      rw [Series.ids, List.flatMap_map] at hids
      rw [List.map_flatMap]
      simp only [List.map_map]
      exact hids

theorem IsDense.isListing_cellsByDay (h : s.IsDense) : IsListing s.cellsByDay s where
  mem_iff r := by
    simp only [h.cellsByDay_eq, List.mem_flatMap, List.mem_map, eq_comm]
    exact ⟨fun ⟨d, hd, k, hk, hr⟩ => ⟨k, hk, d, hd, hr⟩, fun ⟨k, hk, d, hd, hr⟩ => ⟨d, hd, k, hk, hr⟩⟩
  ids := by
    rw [h.cellsByDay_eq]
    by_cases hempty : s.dates = []
    · rw [hempty, h.dates_eq_nil_iff.1 hempty]
      rfl
    · rw [List.map_flatMap]
      simp only [List.map_map]
      exact Gather.eraseDups_flatMap_const hempty h.nodup

/-! ### Binning a listing -/

namespace IsListing

variable {records : List CountRecord} (h : IsListing records s)
include h

theorem filter_isDated : records.filter CountRecord.isDated = records := by
  refine List.filter_eq_self.2 fun r hr => ?_
  obtain ⟨k, -, d, -, rfl⟩ := (h.mem_iff r).1 hr
  rfl

theorem dates_eq (hs : s.IsDense) : (ofRecords records).dates = s.dates := by
  refine (ascending_dates records).ext hs.ascending fun d => ?_
  rw [mem_dates_iff]
  constructor
  · rintro ⟨r, hr, hd⟩
    obtain ⟨k, -, e, he, rfl⟩ := (h.mem_iff r).1 hr
    exact Option.some.inj hd ▸ he
  · intro hd
    have hne : s.containers ≠ [] := mt hs.dates_eq_nil_iff.2 (List.ne_nil_of_mem hd)
    obtain ⟨k, hk⟩ := List.exists_mem_of_ne_nil _ hne
    exact ⟨_, (h.mem_iff _).2 ⟨k, hk, d, hd, rfl⟩, rfl⟩

/-- The legend has the names of the cells, and with them the containers of the series. -/
theorem mem_containers {k : ContainerKey} (hk : k ∈ (ofRecords records).containers) :
    k ∈ s.containers := by
  have hname := name_of_mem_ofRecords records hk
  rw [h.filter_isDated] at hname
  obtain ⟨r, hr, hname⟩ := Option.map_eq_some_iff.1 hname
  have hid : r.containerId = k.containerId := by simpa using List.find?_some hr
  obtain ⟨l, hl, d, -, rfl⟩ := (h.mem_iff r).1 (List.mem_of_find?_eq_some hr)
  have heq : l = k := ContainerKey.ext hid hname
  exact heq ▸ hl

theorem containers_eq (hs : s.IsDense) : (ofRecords records).containers = s.containers := by
  -- the two legends have the same identities, and these are distinct in the legend of `s`
  have hids : Series.ids (ofRecords records).containers = Series.ids s.containers := by
    rw [Series.ids, ids_ofRecords, h.filter_isDated, h.ids]
  have hlength : (ofRecords records).containers.length = s.containers.length := by
    simpa [Series.ids] using congrArg List.length hids
  refine List.ext_getElem hlength fun i hi hi' => ?_
  have hid : ((ofRecords records).containers[i]).containerId = s.containers[i].containerId := by
    simpa [Series.ids] using List.getElem_of_eq hids (by simpa [Series.ids] using hi)
  exact List.inj_on_of_nodup_map hs.nodup (h.mem_containers (List.getElem_mem hi))
    (List.getElem_mem hi') hid

/-- Every record of a cell has the count of the cell, so the first one has it. -/
theorem firstCount?_eq {k : ContainerKey} (hk : k ∈ s.containers) {d : Day} (hd : d ∈ s.dates) :
    firstCount? (dated records) d k.containerId = some (s.count d k.containerId) := by
  rw [firstCount?_dated]
  cases hfind : records.find? fun r =>
      decide (r.crashedOn = some d ∧ r.containerId = k.containerId) with
  | none =>
    have hcell := (h.mem_iff _).2 ⟨k, hk, d, hd, rfl⟩
    exact absurd (List.find?_eq_none.1 hfind _ hcell) (by simp [cellRecord])
  | some r =>
    obtain ⟨l, -, e, -, rfl⟩ := (h.mem_iff r).1 (List.mem_of_find?_eq_some hfind)
    obtain ⟨hday, hid⟩ : e = d ∧ l.containerId = k.containerId := by
      simpa [cellRecord] using List.find?_some hfind
    rw [← hday, ← hid]
    rfl

/-- A dense series is binned from every listing of its cells. -/
theorem ofRecords_eq (hs : s.IsDense) : ofRecords records = s := by
  refine Series.ext (h.dates_eq hs) (h.containers_eq hs) ?_
  rw [ofRecords_counts, h.dates_eq hs, h.containers_eq hs, hs.counts_eq]
  refine matrix_congr fun d hd id hid => ?_
  obtain ⟨k, hk, rfl⟩ := List.mem_map.1 hid
  rw [h.firstCount?_eq hk hd, Option.getD_some]

end IsListing

/-- The series that are binned from records are the dense ones, and they are those that are binned
from the list of their own cells, in either order.  So a binned series that is listed and binned
again stays what it is. -/
theorem isDense_iff_ofRecords :
    (∀ s : Series, (∃ records, ofRecords records = s) ↔ s.IsDense) ∧
      (∀ s : Series, s.IsDense ↔ ofRecords s.cellsByContainer = s) ∧
      (∀ s : Series, s.IsDense ↔ ofRecords s.cellsByDay = s) ∧
      ∀ records, ofRecords (ofRecords records).cellsByContainer = ofRecords records ∧
        ofRecords (ofRecords records).cellsByDay = ofRecords records := by
  have hdense : ∀ {s records}, ofRecords records = s → s.IsDense := by
    rintro s records rfl
    exact isDense_ofRecords records
  have hcontainers {s : Series} (h : s.IsDense) : ofRecords s.cellsByContainer = s :=
    h.isListing_cellsByContainer.ofRecords_eq h
  have hdays {s : Series} (h : s.IsDense) : ofRecords s.cellsByDay = s :=
    h.isListing_cellsByDay.ofRecords_eq h
  refine ⟨fun s => ⟨fun ⟨_, h⟩ => hdense h, fun h => ⟨_, hdays h⟩⟩, fun s => ⟨hcontainers, hdense⟩,
    fun s => ⟨hdays, hdense⟩, fun records => ?_⟩
  have h := isDense_ofRecords records
  exact ⟨hcontainers h, hdays h⟩

end CrashReports.Series
