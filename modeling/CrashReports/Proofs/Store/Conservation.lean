import CrashReports.Proofs.Crash.Transcript
import CrashReports.Proofs.Store.Counts
import Mathlib.Algebra.BigOperators.Group.List.Basic

/-!
# The crashes that both fetches tell of

One fetch returns the crashes of a range one by one, the other one counts them by day and
stored container.  Both go over the same rows, and the sizes of the groups add up to the
number of rows (`sum_size_groupsOf`).  Neither reading drops or merges a row, so the counts
add up to the events, for each container and for all of them (`conserves_of_fetches`).

Hence a report has the same containers in both its halves (`halvesAgree_of_fetches`).  This does
not need the chart to show every crash: where two groups share a cell it holds the first of
them, which is not empty.
-/

namespace CrashReports.Store

/-! ### Sizes of groups -/

/-- Adding a row adds one to the size of some group of its container. -/
theorem sum_size_add (p : TextCell → Bool) (x : Selected) (gs : List Group) :
    (((groupGather.add x gs).filter fun g => p g.containerId).map Group.size).sum =
      ((gs.filter fun g => p g.containerId).map Group.size).sum +
        if p x.2.containerId then 1 else 0 := by
  induction gs with
  | nil =>
    have hadd : groupGather.add x [] = [⟨x.1, x.2.containerId, x.2, 1⟩] := rfl
    rw [hadd]
    cases hp : p x.2.containerId <;> simp [hp]
  | cons g gs ih =>
    have hcons : groupGather.add x (g :: gs) =
        if (g.day, g.containerId) = (x.1, x.2.containerId) then g.add x.2 :: gs
        else g :: groupGather.add x gs := rfl
    rw [hcons]
    split
    case isTrue hkey =>
      have hid : g.containerId = x.2.containerId := (Prod.mk.inj hkey).2
      have hid' : (g.add x.2).containerId = x.2.containerId := hid
      have hsize : (g.add x.2).size = g.size + 1 := rfl
      cases hp : p x.2.containerId with
      | false => simp [hid, hid', hp]
      | true => simp [hid, hid', hp, hsize, Nat.add_right_comm]
    case isFalse =>
      cases hp : p g.containerId with
      | false => simp [hp, ih]
      | true => simp [hp, ih, Nat.add_assoc]

/-- The groups of a container have as many rows as are selected of it. -/
theorem sum_size_groupsOf (p : TextCell → Bool) (xs : List Selected) :
    (((groupsOf xs).filter fun g => p g.containerId).map Group.size).sum =
      (xs.filter fun x => p x.2.containerId).length := by
  rw [groupsOf_eq_collect]
  induction xs using List.reverseRecOn with
  | nil => rfl
  | append_singleton xs x ih =>
    rw [Gather.collect_append_singleton, sum_size_add, ih, List.filter_append, List.length_append]
    cases hp : p x.2.containerId <;> simp [hp]

theorem sum_size_countGroups (now : Int) (t : Table) (r : DayRange) (p : TextCell → Bool) :
    (((countGroups now t r).filter fun g => p g.containerId).map Group.size).sum =
      ((eventRows now t r).filter fun row => p row.containerId).length := by
  have hgroups := ((countGroups_perm now t r).filter fun g => p g.containerId).map Group.size
  have hrows := (eventRows_perm now t r).filter fun row => p row.containerId
  rw [hgroups.sum_eq, hrows.length_eq, sum_size_groupsOf, List.filter_map, List.length_map]
  rfl

/-! ### Events and counts -/

/-- Whether a stored container reads as a text with a property. -/
def readsWith (p : String → Bool) (c : TextCell) : Bool :=
  (readColumn "container_id" c).toOption.any p

theorem readsWith_of_readColumn {p : String → Bool} {c : TextCell} {id : String}
    (h : readColumn "container_id" c = .ok id) : readsWith p c = p id := by
  simp [readsWith, h, Except.toOption]

variable {now : Int} {t : Table} {r : DayRange} {es : List Event} {records : List CountRecord}

theorem map_size_of_readGroup {gs : List Group} {cs : List CountRecord}
    (h : List.Forall₂ (fun g c => readGroup g = .ok c) gs cs) :
    gs.map Group.size = cs.map fun c => c.crashCount.toNat := by
  induction h with
  | nil => rfl
  | cons hread _ ih =>
    rw [List.map_cons, List.map_cons, ih, toNat_crashCount_of_readGroup hread]

/-- Of the containers with a property there are as many events as crashes are counted. -/
theorem length_filter_events (he : (⟨some t, now⟩ : Store).events r = .ok es)
    (hc : (⟨some t, now⟩ : Store).counts r = .ok records) (p : String → Bool) :
    (es.filter fun e => p e.containerId).length =
      ((records.filter fun c => p c.containerId).map fun c => c.crashCount.toNat).sum := by
  have hevents : List.Forall₂ (fun row e => readEvent row = .ok e)
      ((eventRows now t r).filter fun row => readsWith p row.containerId)
      (es.filter fun e => p e.containerId) := by
    refine List.rel_filter (fun row e hread => ?_) (readEvent_of_events he)
    exact Bool.eq_iff_iff.1 (readsWith_of_readColumn (readEvent_eq_ok_iff.1 hread).1)
  have hcounts : List.Forall₂ (fun g c => readGroup g = .ok c)
      ((countGroups now t r).filter fun g => readsWith p g.containerId)
      (records.filter fun c => p c.containerId) := by
    refine List.rel_filter (fun g c hread => ?_) (readGroup_of_counts hc)
    exact Bool.eq_iff_iff.1 (readsWith_of_readColumn (readGroup_eq_ok_iff.1 hread).1)
  calc (es.filter fun e => p e.containerId).length
      = ((eventRows now t r).filter fun row => readsWith p row.containerId).length :=
        hevents.length_eq.symm
    _ = (((countGroups now t r).filter fun g => readsWith p g.containerId).map Group.size).sum :=
        (sum_size_countGroups now t r (readsWith p)).symm
    _ = ((records.filter fun c => p c.containerId).map fun c => c.crashCount.toNat).sum := by
        congr 1
        exact map_size_of_readGroup hcounts

/-- A record is the count of a day and a stored container: it has that day, what the
container reads as, and the number of the rows that have both. -/
structure IsCountOf (now : Int) (t : Table) (key : Ymd × TextCell) (c : CountRecord) : Prop where
  day : c.crashedOn.map Ymd.ofDay = some key.1
  containerId : readColumn "container_id" key.2 = .ok c.containerId
  crashCount : c.crashCount.toNat =
    (t.rows.filter fun row => decide (row.crashedOn.day? now = some key.1) &&
      decide (row.containerId = key.2)).length

theorem isCountOf_of_readGroup {g : Group} (hg : g ∈ countGroups now t r) {c : CountRecord}
    (h : readGroup g = .ok c) : IsCountOf now t (groupGather.entryKey g) c := by
  obtain ⟨hid, -, ⟨d, hday, hcrashed⟩, -⟩ := readGroup_eq_ok_iff.1 h
  have hkey : c.crashedOn.map Ymd.ofDay = some g.day := by
    rw [hcrashed, hday]
    rfl
  exact ⟨hkey, hid, (toNat_crashCount_of_readGroup h).trans (size_of_mem_countGroups now t r hg)⟩

theorem exists_day_of_counts (hc : (⟨some t, now⟩ : Store).counts r = .ok records)
    {c : CountRecord} (h : c ∈ records) : ∃ d, c.crashedOn = some d := by
  obtain ⟨g, -, hread⟩ := exists_left_of_mem (readGroup_of_counts hc) h
  obtain ⟨-, -, ⟨d, -, hday⟩, -⟩ := readGroup_eq_ok_iff.1 hread
  exact ⟨d, hday⟩

theorem crashCount_pos_of_counts (hc : (⟨some t, now⟩ : Store).counts r = .ok records)
    {c : CountRecord} (h : c ∈ records) : 1 ≤ c.crashCount.toNat := by
  obtain ⟨g, hg, hread⟩ := exists_left_of_mem (readGroup_of_counts hc) h
  rw [toNat_crashCount_of_readGroup hread]
  exact group_size_pos ((mem_countGroups now t r).1 hg)

/-- A list of events and a list of records tell of the same crashes of a table. -/
structure Conserves (now : Int) (t : Table) (es : List Event) (records : List CountRecord) :
    Prop where
  dated : ∀ c ∈ records, c.crashedOn.isSome
  pos : ∀ c ∈ records, 1 ≤ c.crashCount.toNat
  /-- No two records count the rows of the same day and stored container. -/
  keys : ∃ keys : List (Ymd × TextCell), keys.Nodup ∧ List.Forall₂ (IsCountOf now t) keys records
  container : ∀ id, (es.filter fun e => decide (e.containerId = id)).length =
    ((records.filter fun c => decide (c.containerId = id)).map fun c => c.crashCount.toNat).sum
  total : es.length = (records.map fun c => c.crashCount.toNat).sum

/-- No crash is lost or made up between the two fetches of a range, whatever is stored. -/
theorem conserves_of_fetches (he : (⟨some t, now⟩ : Store).events r = .ok es)
    (hc : (⟨some t, now⟩ : Store).counts r = .ok records) : Conserves now t es records where
  dated c h := by
    obtain ⟨d, hday⟩ := exists_day_of_counts hc h
    exact Option.isSome_of_eq_some hday
  pos c h := crashCount_pos_of_counts hc h
  keys := by
    refine ⟨(countGroups now t r).map groupGather.entryKey, ?_, ?_⟩
    · exact ((countGroups_perm now t r).map _).nodup_iff.2 (nodup_keys_groupsOf _)
    · have hmem := (List.forall₂_and_left _ _).2 ⟨fun _ hg => hg, readGroup_of_counts hc⟩
      exact List.forall₂_map_left_iff.2 (hmem.imp fun g c h => isCountOf_of_readGroup h.1 h.2)
  container id := length_filter_events he hc fun i => decide (i = id)
  total := by
    have hall := length_filter_events he hc fun _ => true
    rwa [List.filter_true, List.filter_true] at hall

/-- Crashes of one day whose times are stored as text, as a number and as bytes, with a
container that is missing and one that is empty. -/
def oddTable : Table :=
  ⟨[⟨1, .null, .text "a", .text "x", .text "2024-05-01 08:00:00"⟩,
    ⟨2, .text "", .text "b", .null, .number (.integer 2460432)⟩,
    ⟨3, .text "web", .null, .null, .text "2024-05-01 10:00"⟩,
    ⟨5, .text "web", .null, .text "y", .bytes (Text.utf8 "2024-05-01")⟩], by simp⟩

/-- The events of `oddTable`; two of its times are read by the store only. -/
def oddEvents : List Event :=
  [⟨"web", "", some (.atMidnight mixedDay), "y"⟩,
    ⟨"", "a", some ⟨mixedDay, (TimeOfDay.ofParts? 8 0 0 0).get (by decide)⟩, "x"⟩,
    ⟨"web", "", none, ""⟩, ⟨"", "b", none, ""⟩]

theorem events_oddTable : (⟨some oddTable, noon⟩ : Store).events mixedRange = .ok oddEvents := by
  have hrows : eventRows noon oddTable mixedRange =
      [⟨5, .text "web", .null, .text "y", .bytes (Text.utf8 "2024-05-01")⟩,
        ⟨1, .null, .text "a", .text "x", .text "2024-05-01 08:00:00"⟩,
        ⟨3, .text "web", .null, .null, .text "2024-05-01 10:00"⟩,
        ⟨2, .text "", .text "b", .null, .number (.integer 2460432)⟩] := by
    decide +kernel
  -- the reader of bytes does not compute here, so the stamps are given by their texts
  have hread : ∀ {row : Row} {e : Event} (stamp : String),
      row.crashedOn.textBytes = Text.utf8 stamp →
      readColumn "container_id" row.containerId = .ok e.containerId ∧
        readColumn "container_name" row.containerName = .ok e.containerName ∧
        readColumn "logs" row.logs = .ok e.logText ∧ e.crashedOn = Timestamp.parse stamp →
      readEvent row = .ok e := fun stamp hbytes ⟨hid, hname, hlogs, htime⟩ =>
    readEvent_eq_ok_iff.2 ⟨hid, hname, hlogs, stamp, readStamp_eq_ok_iff.2 hbytes, htime⟩
  rw [events_eq, hrows, mapM_eq_ok_iff]
  refine .cons (hread "2024-05-01" rfl ?_) (.cons (hread "2024-05-01 08:00:00" rfl ?_)
    (.cons (hread "2024-05-01 10:00" rfl ?_) (.cons (hread "2460432" ?_ ?_) .nil)))
  all_goals decide +kernel

theorem counts_oddTable : (⟨some oddTable, noon⟩ : Store).counts mixedRange = .ok mixedRecords := by
  decide +kernel

theorem conserves_oddTable :
    (⟨some oddTable, noon⟩ : Store).events mixedRange = .ok oddEvents ∧
      (⟨some oddTable, noon⟩ : Store).counts mixedRange = .ok mixedRecords ∧
      Conserves noon oddTable oddEvents mixedRecords :=
  ⟨events_oddTable, counts_oddTable, conserves_of_fetches events_oddTable counts_oddTable⟩

/-! ### The halves of a report -/

/-- A container has events exactly if it has records. -/
theorem exists_event_iff (he : (⟨some t, now⟩ : Store).events r = .ok es)
    (hc : (⟨some t, now⟩ : Store).counts r = .ok records) {id : String} :
    (∃ e ∈ es, e.containerId = id) ↔ ∃ c ∈ records, c.containerId = id := by
  have hevents : (∃ e ∈ es, e.containerId = id) ↔
      0 < (es.filter fun e => decide (e.containerId = id)).length := by
    simp only [List.length_pos_iff_exists_mem, List.mem_filter, decide_eq_true_iff]
  rw [hevents, length_filter_events he hc fun i => decide (i = id), List.sum_pos_iff_exists_pos_nat]
  simp only [List.mem_map, List.mem_filter, decide_eq_true_iff]
  constructor
  · rintro ⟨-, ⟨c, ⟨h, hid⟩, -⟩, -⟩
    exact ⟨c, h, hid⟩
  · rintro ⟨c, h, hid⟩
    exact ⟨_, ⟨c, ⟨h, hid⟩, rfl⟩, crashCount_pos_of_counts hc h⟩

/-- No record is left out of the chart for want of a day. -/
theorem exists_dated_iff (hc : (⟨some t, now⟩ : Store).counts r = .ok records) {id : String} :
    (∃ p ∈ Series.dated records, p.2.containerId = id) ↔ ∃ c ∈ records, c.containerId = id := by
  constructor
  · rintro ⟨p, hp, hid⟩
    exact ⟨p.2, (Series.mem_dated.1 hp).1, hid⟩
  · rintro ⟨c, h, hid⟩
    obtain ⟨d, hday⟩ := exists_day_of_counts hc h
    exact ⟨(d, c), Series.mem_dated.2 ⟨h, hday⟩, hid⟩

/-- The transcripts and the series of a report have the same containers, each of them once,
and no row and no column of the series is without crashes. -/
structure HalvesAgree (report : Report) : Prop where
  transcript_iff : ∀ id, (report.transcript? id).isSome ↔ (report.series.row? id).isSome
  row : ∀ id row, report.series.row? id = some row → ∃ n ∈ row, n ≠ 0
  column : ∀ column < report.series.dates.length,
    ∃ row ∈ report.series.counts, ∃ n, row[column]? = some n ∧ n ≠ 0
  transcripts : (report.transcripts.map Transcript.containerId).Nodup
  legend : (report.series.containers.map ContainerKey.containerId).Nodup

/-- The log viewer and the chart show the same containers, whatever is stored. -/
theorem halvesAgree_of_fetches (he : (⟨some t, now⟩ : Store).events r = .ok es)
    (hc : (⟨some t, now⟩ : Store).counts r = .ok records) :
    HalvesAgree ((⟨some t, now⟩ : Store).source.query r).report := by
  have hcount : ∀ c ∈ records, c.crashCount ≠ 0 := by
    intro c h hzero
    have hpos := crashCount_pos_of_counts hc h
    rw [hzero] at hpos
    exact absurd hpos (by decide)
  rw [query_of_ok he hc]
  refine ⟨fun id => ?_, fun id row => ?_, fun column => ?_, ?_, ?_⟩
  · calc (Transcript.find? (Transcript.consolidate es) id).isSome
        ↔ ∃ e ∈ es, e.containerId = id := Transcript.isSome_find?_consolidate
      _ ↔ ∃ c ∈ records, c.containerId = id := exists_event_iff he hc
      _ ↔ ∃ p ∈ Series.dated records, p.2.containerId = id := (exists_dated_iff hc).symm
      _ ↔ ((Series.ofRecords records).row? id).isSome :=
          (Series.isSome_row?_ofRecords records).symm
  · exact Series.exists_ne_zero_of_row? hcount
  · exact Series.exists_ne_zero_of_column hcount
  · exact Transcript.nodup_containerId_consolidate es
  · exact Series.nodup_ids_legendOf (Series.dated records)

theorem halvesAgree_oddTable :
    (⟨some oddTable, noon⟩ : Store).events mixedRange = .ok oddEvents ∧
      (⟨some oddTable, noon⟩ : Store).counts mixedRange = .ok mixedRecords ∧
      HalvesAgree ((⟨some oddTable, noon⟩ : Store).source.query mixedRange).report :=
  ⟨events_oddTable, counts_oddTable, halvesAgree_of_fetches events_oddTable counts_oddTable⟩

end CrashReports.Store
