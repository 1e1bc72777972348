import CrashReports.Proofs.Crash.Query
import CrashReports.Proofs.Outcome
import CrashReports.Proofs.Store.FoundDay
import CrashReports.Proofs.Store.Groups
import CrashReports.Proofs.Store.Selection
import CrashReports.Proofs.Text.Bytes

/-!
# What a fetch reads

A fetch arranges the rows or groups of its range and reads them one by one, so it
succeeds exactly if each of them can be read.  Here it is said what it takes to read a
row or a group, and what comes out.
-/

namespace CrashReports.Store

theorem readColumn_eq_ok_iff {name : String} {c : TextCell} {s : String} :
    readColumn name c = .ok s ↔ c = .text s ∨ c = .null ∧ s = "" := by
  cases c with
  | null => simp [readColumn, eq_comm]
  | text t => simp [readColumn]
  | broken t => simp [readColumn]
  | bytes bs => simp [readColumn]

theorem readDay_eq_ok_iff {y : Ymd} {d : Day} : readDay y = .ok d ↔ y = .ofDay d := by
  unfold readDay
  rw [← Ymd.toDay?_eq_some_iff]
  cases y.toDay? with
  | none => simp
  | some e => simp

theorem readStamp_eq_ok_iff {c : StampCell} {s : String} :
    readStamp c = .ok s ↔ c.textBytes = Text.utf8 s := by
  rw [← Text.readUtf8_eq_ok_iff, readStamp, mapError_eq_ok_iff]

theorem readEvent_eq_ok_iff {row : Row} {e : Event} :
    readEvent row = .ok e ↔
      readColumn "container_id" row.containerId = .ok e.containerId ∧
      readColumn "container_name" row.containerName = .ok e.containerName ∧
      readColumn "logs" row.logs = .ok e.logText ∧
      ∃ stamp, readStamp row.crashedOn = .ok stamp ∧ e.crashedOn = Timestamp.parse stamp := by
  unfold readEvent
  simp only [bind_eq_ok_iff]
  constructor
  · rintro ⟨id, hid, name, hname, logs, hlogs, stamp, hstamp, he⟩
    obtain rfl := Except.ok.inj he
    exact ⟨hid, hname, hlogs, stamp, hstamp, rfl⟩
  · rintro ⟨hid, hname, hlogs, stamp, hstamp, he⟩
    refine ⟨_, hid, _, hname, _, hlogs, stamp, hstamp, ?_⟩
    exact congrArg Except.ok (Event.ext rfl rfl he.symm rfl)

theorem readGroup_eq_ok_iff {g : Group} {c : CountRecord} :
    readGroup g = .ok c ↔
      readColumn "container_id" g.containerId = .ok c.containerId ∧
      readColumn "container_name" g.first.containerName = .ok c.containerName ∧
      (∃ d, g.day = .ofDay d ∧ c.crashedOn = some d) ∧
      g.size < UInt32.size ∧ c.crashCount = UInt32.ofNat g.size := by
  unfold readGroup
  simp only [bind_eq_ok_iff, readDay_eq_ok_iff]
  constructor
  · rintro ⟨id, hid, name, hname, d, hd, hc⟩
    split at hc
    case isTrue hsize =>
      obtain rfl := Except.ok.inj hc
      exact ⟨hid, hname, ⟨d, hd, rfl⟩, hsize, rfl⟩
    case isFalse => cases hc
  · rintro ⟨hid, hname, ⟨d, hd, hday⟩, hsize, hcount⟩
    refine ⟨_, hid, _, hname, d, hd, ?_⟩
    rw [if_pos hsize]
    exact congrArg Except.ok (CountRecord.ext rfl rfl hday.symm hcount.symm)

theorem toNat_crashCount_of_readGroup {g : Group} {c : CountRecord} (h : readGroup g = .ok c) :
    c.crashCount.toNat = g.size := by
  obtain ⟨-, -, -, hsize, hcount⟩ := readGroup_eq_ok_iff.1 h
  rw [hcount]
  exact UInt32.toNat_ofNat_of_lt hsize

/-! ### Both fetches of a table -/

section Table

variable (now : Int) (t : Table) (r : DayRange)

/-- The rows of the events of a range, in their order. -/
def eventRows : List Row :=
  arrange eventBefore ((selected now r t.rows).map Prod.snd)

/-- The groups of the counts of a range, in their order. -/
def countGroups : List Group :=
  arrange groupBefore (groupsOf (selected now r t.rows))

theorem events_eq : events ⟨some t, now⟩ r = (eventRows now t r).mapM readEvent := rfl

theorem counts_eq : counts ⟨some t, now⟩ r = (countGroups now t r).mapM readGroup := rfl

theorem eventRows_perm : (eventRows now t r).Perm ((selected now r t.rows).map Prod.snd) :=
  arrange_perm _

theorem countGroups_perm : (countGroups now t r).Perm (groupsOf (selected now r t.rows)) :=
  arrange_perm _

theorem mem_eventRows {row : Row} :
    row ∈ eventRows now t r ↔
      row ∈ t.rows ∧ ∃ y, row.crashedOn.day? now = some y ∧ WithinText r y := by
  rw [eventRows, mem_arrange, mem_map_snd_selected]

/-- The rows of the events are in order of time, and at one time in order of their numbers. -/
theorem eventRows_pairwise : (eventRows now t r).Pairwise fun a b =>
    eventBefore a b = true ∨ ¬ eventBefore b a = true ∧ a.number < b.number :=
  arrange_pairwise isOrder_eventBefore (List.pairwise_map.2 (selected_pairwise t.ascending))

/-- A row whose day is known is among the events if the range selects that day. -/
theorem mem_eventRows_of_day {row : Row} (hrow : row ∈ t.rows) {y : Ymd}
    (hday : row.crashedOn.day? now = some y) : row ∈ eventRows now t r ↔ WithinText r y := by
  rw [mem_eventRows, hday]
  constructor
  · rintro ⟨-, y', hy', hwithin⟩
    obtain rfl := Option.some.inj hy'
    exact hwithin
  · intro hwithin
    exact ⟨hrow, y, rfl, hwithin⟩

theorem mem_countGroups {g : Group} :
    g ∈ countGroups now t r ↔ g ∈ groupsOf (selected now r t.rows) :=
  mem_arrange

/-- The rows that are counted for a container on a day. -/
theorem mem_members_selected {row : Row} {y : Ymd} {c : TextCell} :
    (y, row) ∈ members (selected now r t.rows) y c ↔
      row ∈ t.rows ∧ row.crashedOn.day? now = some y ∧ WithinText r y ∧ row.containerId = c := by
  rw [mem_members, mem_selected]
  constructor
  · rintro ⟨⟨hrow, hday, hwithin⟩, -, hid⟩
    exact ⟨hrow, hday, hwithin, hid⟩
  · rintro ⟨hrow, hday, hwithin, hid⟩
    exact ⟨⟨hrow, hday, hwithin⟩, rfl, hid⟩

/-- The first row of a group is one of its rows and comes before the others. -/
theorem first_of_mem_countGroups {g : Group} (hg : g ∈ countGroups now t r) :
    (g.day, g.first) ∈ members (selected now r t.rows) g.day g.containerId ∧
      ∀ x ∈ members (selected now r t.rows) g.day g.containerId,
        x.2 = g.first ∨ StampFirst (fun a b => a.number < b.number) g.first x.2 :=
  group_first (selected_pairwise t.ascending) ((mem_countGroups now t r).1 hg)

/-- A day and container is counted if one of its rows is selected. -/
theorem exists_mem_countGroups {y : Ymd} {c : TextCell} :
    (∃ g ∈ countGroups now t r, g.day = y ∧ g.containerId = c) ↔
      WithinText r y ∧ ∃ row ∈ t.rows, row.crashedOn.day? now = some y ∧ row.containerId = c := by
  simp only [mem_countGroups]
  rw [exists_group_iff]
  constructor
  · intro h
    obtain ⟨x, hx⟩ := List.exists_mem_of_ne_nil _ h
    obtain ⟨hmem, rfl, hid⟩ := mem_members.1 hx
    obtain ⟨hrow, hday, hwithin⟩ := mem_selected.1 hmem
    exact ⟨hwithin, x.2, hrow, hday, hid⟩
  · rintro ⟨hwithin, row, hrow, hday, hid⟩
    exact List.ne_nil_of_mem ((mem_members_selected now t r).2 ⟨hrow, hday, hwithin, hid⟩)

/-- A group counts all rows of its day and container. -/
theorem size_of_mem_countGroups {g : Group} (hg : g ∈ countGroups now t r) :
    g.size = (t.rows.filter fun row => decide (row.crashedOn.day? now = some g.day) &&
      decide (row.containerId = g.containerId)).length := by
  obtain ⟨hwithin, -⟩ := (exists_mem_countGroups now t r).1 ⟨g, hg, rfl, rfl⟩
  rw [group_size ((mem_countGroups now t r).1 hg), members]
  exact length_filter_selected hwithin t.rows fun row => decide (row.containerId = g.containerId)

/-- A row is one of those that are counted on a day. -/
def IsCountedOn (row : Row) (y : Ymd) : Prop :=
  ∃ g ∈ countGroups now t r, g.day = y ∧
    (g.day, row) ∈ members (selected now r t.rows) g.day g.containerId

theorem isCountedOn_iff {row : Row} {y : Ymd} :
    IsCountedOn now t r row y ↔
      row ∈ t.rows ∧ row.crashedOn.day? now = some y ∧ WithinText r y := by
  constructor
  · rintro ⟨g, -, rfl, hmem⟩
    obtain ⟨hrow, hday, hwithin, -⟩ := (mem_members_selected now t r).1 hmem
    exact ⟨hrow, hday, hwithin⟩
  · rintro ⟨hrow, hday, hwithin⟩
    obtain ⟨g, hg, rfl, hid⟩ := (exists_mem_countGroups now t r).2 ⟨hwithin, row, hrow, hday, rfl⟩
    exact ⟨g, hg, rfl, (mem_members_selected now t r).2 ⟨hrow, hday, hwithin, hid.symm⟩⟩

/-- A row whose day is known is counted on no other day. -/
theorem isCountedOn_of_day {row : Row} (hrow : row ∈ t.rows) {y : Ymd}
    (hday : row.crashedOn.day? now = some y) {y' : Ymd} :
    IsCountedOn now t r row y' ↔ y' = y ∧ WithinText r y := by
  rw [isCountedOn_iff, hday]
  constructor
  · rintro ⟨-, hy', hwithin⟩
    obtain rfl := Option.some.inj hy'
    exact ⟨rfl, hwithin⟩
  · rintro ⟨rfl, hwithin⟩
    exact ⟨hrow, rfl, hwithin⟩

variable {now t r}

/-- Events that were fetched were read from the rows of the range, one from each. -/
theorem readEvent_of_events {es : List Event} (h : (⟨some t, now⟩ : Store).events r = .ok es) :
    List.Forall₂ (fun row e => readEvent row = .ok e) (eventRows now t r) es :=
  mapM_eq_ok_iff.1 (events_eq now t r ▸ h)

/-- Records that were fetched were read from the groups of the range, one from each. -/
theorem readGroup_of_counts {records : List CountRecord}
    (h : (⟨some t, now⟩ : Store).counts r = .ok records) :
    List.Forall₂ (fun g c => readGroup g = .ok c) (countGroups now t r) records :=
  mapM_eq_ok_iff.1 (counts_eq now t r ▸ h)

end Table

/-! ### Queries of a store -/

theorem query_report (s : Store) (r : DayRange) :
    (s.source.query r).report =
      Report.ofLists (immediate (s.events r)).items (immediate (s.counts r)).items := by
  rw [Source.query_eq]
  rfl

/-- The series of a report is made of the counts, whatever becomes of the events. -/
theorem series_of_query {s : Store} {r : DayRange} {records : List CountRecord}
    (h : s.counts r = .ok records) :
    (s.source.query r).report.series = Series.ofRecords records := by
  rw [query_report, h]
  rfl

theorem query_of_ok {s : Store} {r : DayRange} {es : List Event} {records : List CountRecord}
    (he : s.events r = .ok es) (hc : s.counts r = .ok records) :
    s.source.query r = ⟨Report.ofLists es records, [], [⟨.events, r⟩, ⟨.counts, r⟩]⟩ := by
  rw [Source.query_eq]
  show (⟨Report.ofLists (immediate (s.events r)).items (immediate (s.counts r)).items,
    (immediate (s.events r)).warnings .events ++ (immediate (s.counts r)).warnings .counts,
    _⟩ : Answer) = _
  rw [he, hc]
  rfl

end CrashReports.Store
