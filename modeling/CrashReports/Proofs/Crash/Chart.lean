import CrashReports.Proofs.Crash.Binning

/-!
# What a chart says about its records

The series of a list of daily counts in terms of the list itself (`IsChartOf`): its days are the
days of the records, its containers those of the records that have a day, and every cell, on
the axes or off them, is the count of the first record of its day and container.  Records
without a day leave no trace; two lists that differ in such records only have the same series
(`isChartOf_ofRecords`).
-/

namespace CrashReports

/-- Whether a record has a day. -/
def CountRecord.isDated (r : CountRecord) : Bool :=
  r.crashedOn.isSome

namespace Series

/-! ### Dated records -/

theorem dated_cons (r : CountRecord) (records : List CountRecord) :
    dated (r :: records) = (r.crashedOn.map fun d => (d, r)).toList ++ dated records := by
  unfold dated
  rw [List.filterMap_cons]
  cases r.crashedOn <;> rfl

/-- The dated records are those of the list that have a day, in its order. -/
theorem map_snd_dated (records : List CountRecord) :
    (dated records).map Prod.snd = records.filter CountRecord.isDated := by
  induction records with
  | nil => rfl
  | cons r records ih =>
    rw [dated_cons, List.map_append, ih, List.filter_cons]
    cases h : r.crashedOn <;> simp [CountRecord.isDated, h]

theorem dated_filter (records : List CountRecord) :
    dated (records.filter CountRecord.isDated) = dated records := by
  induction records with
  | nil => rfl
  | cons r records ih =>
    rw [List.filter_cons]
    cases h : r.crashedOn <;> simp [CountRecord.isDated, dated_cons, h, ih]

theorem dated_eq_nil_iff {records : List CountRecord} :
    dated records = [] ↔ ∀ r ∈ records, r.crashedOn = none := by
  simp [dated, List.filterMap_eq_nil_iff]

/-- The first record of a day and container, found among all records. -/
theorem firstCount?_dated (records : List CountRecord) (d : Day) (id : String) :
    firstCount? (dated records) d id =
      (records.find? fun r => decide (r.crashedOn = some d ∧ r.containerId = id)).map
        CountRecord.crashCount := by
  unfold firstCount?
  induction records with
  | nil => rfl
  | cons r records ih =>
    rw [dated_cons, List.find?_append, List.find?_cons]
    cases h : r.crashedOn with
    | none => simpa using ih
    | some e =>
      by_cases hcell : d = e ∧ id = r.containerId
      · simp [hcell]
      · have hcell' : ¬ (e = d ∧ r.containerId = id) := fun ⟨hd, hid⟩ => hcell ⟨hd.symm, hid.symm⟩
        simpa [hcell, hcell'] using ih

/-! ### Sizes -/

theorem length_matrix {α : Type} (axis : List Day) (legend : List ContainerKey)
    (f : Day → String → α) : (matrix axis legend f).length = legend.length := by
  simp [matrix]

theorem length_of_mem_matrix {α : Type} {axis : List Day} {legend : List ContainerKey}
    {f : Day → String → α} {row : List α} (h : row ∈ matrix axis legend f) :
    row.length = axis.length := by
  obtain ⟨k, -, rfl⟩ := List.mem_map.1 h
  simp

/-- Full rows have as many cells as there are days and containers. -/
theorem cellCount_of_full {s : Series} (hrows : s.counts.length = s.containers.length)
    (hcells : ∀ row ∈ s.counts, row.length = s.dates.length) :
    s.cellCount = s.dates.length * s.containers.length := by
  have hlengths : s.counts.map List.length = List.replicate s.counts.length s.dates.length := by
    rw [List.map_congr_left hcells, List.map_const']
  have hsum : s.cellCount = (s.counts.map List.length).sum := rfl
  rw [hsum, hlengths, List.sum_replicate_nat, hrows, Nat.mul_comm]

/-! ### The chart of a list -/

/-- What the series of a list of daily counts must be. -/
structure IsChartOf (s : Series) (records : List CountRecord) : Prop where
  ascending : s.dates.Pairwise fun d e => d < e
  mem_dates : ∀ d, d ∈ s.dates ↔ ∃ r ∈ records, r.crashedOn = some d
  /-- The containers of the dated records, in the order in which they first occur. -/
  ids : s.containers.map ContainerKey.containerId =
    ((records.filter CountRecord.isDated).map CountRecord.containerId).eraseDups
  /-- A container has the name of its first dated record. -/
  name : ∀ k ∈ s.containers,
    ((records.filter CountRecord.isDated).find? fun r =>
      decide (r.containerId = k.containerId)).map CountRecord.containerName = some k.containerName
  rows : s.counts.length = s.containers.length
  cells : ∀ row ∈ s.counts, row.length = s.dates.length
  cellCount : s.cellCount = s.dates.length * s.containers.length
  isEmpty_iff : s.isEmpty = true ↔ s.cellCount = 0
  cellCount_eq_zero_iff : s.cellCount = 0 ↔ ∀ r ∈ records, r.crashedOn = none
  /-- Every cell, on the axes or not, has the count of its first record. -/
  count : ∀ d id, s.count d id =
    ((records.find? fun r => decide (r.crashedOn = some d ∧ r.containerId = id)).map
      CountRecord.crashCount).getD 0
  /-- There is a row for each container with a dated record, and for no other. -/
  row : ∀ id, s.row? id =
    if ∃ r ∈ records, r.isDated = true ∧ r.containerId = id then
      some (s.dates.map fun d => s.count d id)
    else none

variable (records : List CountRecord)

theorem ids_ofRecords :
    (ofRecords records).containers.map ContainerKey.containerId =
      ((records.filter CountRecord.isDated).map CountRecord.containerId).eraseDups := by
  have hkeys := legendGather.map_entryKey_collect (dated records)
  rw [← legendOf_eq_collect] at hkeys
  rw [← map_snd_dated, List.map_map]
  exact hkeys

theorem name_of_mem_ofRecords {k : ContainerKey} (h : k ∈ (ofRecords records).containers) :
    ((records.filter CountRecord.isDated).find? fun r =>
      decide (r.containerId = k.containerId)).map CountRecord.containerName =
        some k.containerName := by
  rw [ofRecords_containers, legendOf_eq_collect] at h
  have hentry := legendGather.entry_of_mem_collect h
  rw [entry_legendGather, List.head?_filter] at hentry
  obtain ⟨p, hp, rfl⟩ := Option.map_eq_some_iff.1 hentry
  have hfind : (dated records).find? (fun q => decide (q.2.containerId = p.2.containerId)) =
      some p := hp
  rw [← map_snd_dated, List.find?_map]
  change (((dated records).find? fun q => decide (q.2.containerId = p.2.containerId)).map
    Prod.snd).map CountRecord.containerName = some p.2.containerName
  rw [hfind]
  rfl

theorem length_counts_ofRecords :
    (ofRecords records).counts.length = (ofRecords records).containers.length := by
  rw [ofRecords_counts, length_matrix]

theorem length_row_ofRecords {row : List UInt32} (h : row ∈ (ofRecords records).counts) :
    row.length = (ofRecords records).dates.length := by
  rw [ofRecords_counts] at h
  exact length_of_mem_matrix h

theorem cellCount_ofRecords :
    (ofRecords records).cellCount =
      (ofRecords records).dates.length * (ofRecords records).containers.length :=
  cellCount_of_full (length_counts_ofRecords records) fun _ h => length_row_ofRecords records h

theorem mem_dates_iff {d : Day} :
    d ∈ (ofRecords records).dates ↔ ∃ r ∈ records, r.crashedOn = some d := by
  rw [mem_dates]
  constructor
  · rintro ⟨p, hp, rfl⟩
    exact ⟨p.2, mem_dated.1 hp⟩
  · rintro ⟨r, hr, hd⟩
    exact ⟨(d, r), mem_dated.2 ⟨hr, hd⟩, rfl⟩

theorem mem_ids_iff {id : String} :
    id ∈ ids (ofRecords records).containers ↔
      ∃ r ∈ records, r.isDated = true ∧ r.containerId = id := by
  rw [ids, ids_ofRecords, List.mem_eraseDups]
  simp only [List.mem_map, List.mem_filter, and_assoc]

theorem dates_eq_nil_iff : (ofRecords records).dates = [] ↔ dated records = [] := by
  simp only [List.eq_nil_iff_forall_not_mem, mem_dates]
  exact ⟨fun h p hp => h p.1 ⟨p, hp, rfl⟩, fun h d ⟨p, hp, _⟩ => h p hp⟩

theorem containers_eq_nil_iff : (ofRecords records).containers = [] ↔ dated records = [] := by
  have hids : (ofRecords records).containers = [] ↔ ids (legendOf (dated records)) = [] :=
    List.map_eq_nil_iff.symm
  simp only [hids, List.eq_nil_iff_forall_not_mem, mem_ids_legendOf]
  exact ⟨fun h p hp => h p.2.containerId ⟨p, hp, rfl⟩, fun h id ⟨p, hp, _⟩ => h p hp⟩

theorem cellCount_ofRecords_eq_zero_iff :
    (ofRecords records).cellCount = 0 ↔ dated records = [] := by
  rw [cellCount_ofRecords, Nat.mul_eq_zero, List.length_eq_zero_iff, List.length_eq_zero_iff,
    dates_eq_nil_iff, containers_eq_nil_iff, or_self]

theorem isEmpty_ofRecords_iff : (ofRecords records).isEmpty = true ↔ dated records = [] := by
  rw [isEmpty, Bool.and_eq_true, List.isEmpty_iff, List.isEmpty_iff, dates_eq_nil_iff,
    containers_eq_nil_iff, and_self]

/-- The series of a list of daily counts is its chart, and the records without a day have no
part in it. -/
theorem isChartOf_ofRecords :
    IsChartOf (ofRecords records) records ∧
      ofRecords (records.filter CountRecord.isDated) = ofRecords records := by
  constructor
  · exact {
      ascending := ascending_dates records
      mem_dates := fun d => mem_dates_iff records
      ids := ids_ofRecords records
      name := fun k hk => name_of_mem_ofRecords records hk
      rows := length_counts_ofRecords records
      cells := fun row hrow => length_row_ofRecords records hrow
      cellCount := cellCount_ofRecords records
      isEmpty_iff := by rw [isEmpty_ofRecords_iff, cellCount_ofRecords_eq_zero_iff]
      cellCount_eq_zero_iff := by rw [cellCount_ofRecords_eq_zero_iff, dated_eq_nil_iff]
      count := fun d id => by rw [count_ofRecords, firstCount?_dated]
      row := fun id => by
        rw [row?_ofRecords]
        simp only [mem_ids_iff, count_ofRecords] }
  · unfold ofRecords
    rw [dated_filter]

end Series

end CrashReports
