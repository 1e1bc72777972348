import CrashReports.Proofs.Store.Fetch
import CrashReports.Proofs.Store.Splitting

/-!
# When a fetch fails

A fetch reads all rows of its range or fails, and which rows make it fail is said here
(`answersForRows`).  The fetch of events needs the texts of a row and the bytes of its time;
whether the time can be shown is of no account.  The fetch of counts looks at the container of
each row, but only at the name of the first row of a group.  Rows of other days touch neither.

It is not enough that a column is stored as text: the text must be UTF-8.  And the counts of a
range fail for one more reason that lies in no column: a row may be found on a day that the
calendar does not have, and such a day cannot be read back (`fetches_fail_on_texts`).
-/

namespace CrashReports.Store

/-- A text that is UTF-8, or nothing. -/
def TextCell.HoldsText : TextCell → Prop
  | .null | .text _ => True
  | .broken _ | .bytes _ => False

instance : DecidablePred TextCell.HoldsText
  | .null => isTrue trivial
  | .text _ => isTrue trivial
  | .broken _ => isFalse id
  | .bytes _ => isFalse id

/-- The text of a column, empty if there is none. -/
def TextCell.textOrEmpty : TextCell → String
  | .text s => s
  | _ => ""

theorem readColumn_eq_ok_iff_holdsText {name : String} {c : TextCell} {s : String} :
    readColumn name c = .ok s ↔ c.HoldsText ∧ s = c.textOrEmpty := by
  cases c with
  | null => simp [readColumn, TextCell.HoldsText, TextCell.textOrEmpty, eq_comm]
  | text t => simp [readColumn, TextCell.HoldsText, TextCell.textOrEmpty, eq_comm]
  | broken t => simp [readColumn, TextCell.HoldsText]
  | bytes bs => simp [readColumn, TextCell.HoldsText]

theorem exists_eq_error_iff {α ε : Type} {x : Except ε α} :
    (∃ e, x = .error e) ↔ ¬ ∃ a, x = .ok a := by
  cases x with
  | error e => simp
  | ok a => simp

/-! ### Rows of a range -/

/-- A range selects a row by its day. -/
def Selects (now : Int) (r : DayRange) (row : Row) : Prop :=
  ∃ y, row.crashedOn.day? now = some y ∧ WithinText r y

theorem isSome_selectedDay?_iff {now : Int} {r : DayRange} {row : Row} :
    (selectedDay? now r row).isSome ↔ Selects now r row := by
  rw [Option.isSome_iff_exists]
  simp only [selectedDay?_eq_some_iff]
  rfl

instance (now : Int) (r : DayRange) : DecidablePred (Selects now r) :=
  fun _ => decidable_of_iff _ isSome_selectedDay?_iff

/-- The rows of a store that a range selects. -/
def picked (s : Store) (r : DayRange) : List Row :=
  (s.table.elim [] Table.rows).filter fun row => Selects s.now r row

/-- The rows that are counted together with a row: those of its day and container. -/
def countedWith (s : Store) (r : DayRange) (row : Row) : List Row :=
  (s.picked r).filter fun other =>
    other.crashedOn.day? s.now = row.crashedOn.day? s.now ∧
      other.containerId = row.containerId

/-- Order of the fetched rows: by the bytes of their time, and then by their number. -/
def FetchedBefore (a b : Row) : Prop :=
  a.crashedOn.textBytes < b.crashedOn.textBytes ∨
    a.crashedOn.textBytes = b.crashedOn.textBytes ∧ a.number < b.number

/-- A row gives its group the name: of the rows counted with it, it has the least stored time
and of several such times the least number. -/
def SuppliesName (s : Store) (r : DayRange) (row : Row) : Prop :=
  ∀ other ∈ s.countedWith r row,
    other = row ∨ StampFirst (fun a b => a.number < b.number) row other

/-- A row has a column of a group that cannot be read: its container, or its name if it gives
that to the group. -/
def SpoilsCounts (s : Store) (r : DayRange) (row : Row) : Prop :=
  ¬ row.containerId.HoldsText ∨ SuppliesName s r row ∧ ¬ row.containerName.HoldsText

/-- A row is found on a day of the calendar. -/
def Row.IsOnCalendar (now : Int) (row : Row) : Prop :=
  ∃ d, row.crashedOn.day? now = some (.ofDay d)

instance (now : Int) : DecidablePred (Row.IsOnCalendar now) := fun row =>
  decidable_of_iff (((row.crashedOn.day? now).bind Ymd.toDay?).isSome) (by
    rw [Option.isSome_iff_exists]
    refine exists_congr fun d => ?_
    rw [Option.bind_eq_some_iff]
    simp only [Ymd.toDay?_eq_some_iff, exists_eq_right])

/-- The columns of a row can be read as texts, and the bytes of its time as UTF-8. -/
structure Row.IsReadable (row : Row) : Prop where
  containerId : row.containerId.HoldsText
  containerName : row.containerName.HoldsText
  logs : row.logs.HoldsText
  crashedOn : ∃ stamp, row.crashedOn.textBytes = Text.utf8 stamp

/-- An event tells of a row.  A time that cannot be shown is left out of it. -/
structure IsEventOf (row : Row) (e : Event) : Prop where
  containerId : e.containerId = row.containerId.textOrEmpty
  containerName : e.containerName = row.containerName.textOrEmpty
  logText : e.logText = row.logs.textOrEmpty
  crashedOn : ∃ stamp, row.crashedOn.textBytes = Text.utf8 stamp ∧
    e.crashedOn = Timestamp.parse stamp

theorem readEvent_eq_ok_iff_isEventOf {row : Row} {e : Event} :
    readEvent row = .ok e ↔ row.IsReadable ∧ IsEventOf row e := by
  simp only [readEvent_eq_ok_iff, readColumn_eq_ok_iff_holdsText, readStamp_eq_ok_iff]
  constructor
  · rintro ⟨⟨hid, hid'⟩, ⟨hname, hname'⟩, ⟨hlogs, hlogs'⟩, stamp, hstamp, htime⟩
    exact ⟨⟨hid, hname, hlogs, stamp, hstamp⟩, hid', hname', hlogs', stamp, hstamp, htime⟩
  · rintro ⟨⟨hid, hname, hlogs, -⟩, hid', hname', hlogs', htime⟩
    exact ⟨⟨hid, hid'⟩, ⟨hname, hname'⟩, ⟨hlogs, hlogs'⟩, htime⟩

theorem exists_readEvent_iff {row : Row} :
    (∃ e, readEvent row = .ok e) ↔ row.IsReadable := by
  simp only [readEvent_eq_ok_iff_isEventOf]
  constructor
  · rintro ⟨e, h, -⟩
    exact h
  · intro h
    obtain ⟨stamp, hstamp⟩ := h.crashedOn
    exact ⟨⟨_, _, Timestamp.parse stamp, _⟩, h, rfl, rfl, rfl, stamp, hstamp, rfl⟩

section Table

variable (now : Int) (t : Table) (r : DayRange)

theorem map_snd_selected (rows : List Row) :
    (selected now r rows).map Prod.snd = rows.filter fun row => Selects now r row := by
  induction rows with
  | nil => rfl
  | cons row rows ih =>
    rw [selected_cons, List.map_append, ih, List.filter_cons]
    cases hday : selectedDay? now r row with
    | none =>
      have hnot : ¬ Selects now r row := by
        rw [← isSome_selectedDay?_iff, hday]
        exact Bool.false_ne_true
      simp [hnot]
    | some y =>
      have hselects : Selects now r row := isSome_selectedDay?_iff.1 (hday ▸ rfl)
      simp [hselects]

/-- What is selected are the picked rows, each with its day. -/
theorem selected_eq_picked :
    selected now r t.rows = selected now r (picked ⟨some t, now⟩ r) := by
  show t.rows.filterMap _ = (t.rows.filter _).filterMap _
  rw [List.filterMap_filter]
  refine List.filterMap_congr fun row _ => ?_
  by_cases hselects : Selects now r row
  · rw [if_pos (decide_eq_true hselects)]
  · rw [if_neg (by simpa using hselects)]
    rw [← isSome_selectedDay?_iff, Option.not_isSome_iff_eq_none] at hselects
    rw [hselects]
    rfl

theorem mem_picked {row : Row} :
    row ∈ picked ⟨some t, now⟩ r ↔ row ∈ t.rows ∧ Selects now r row := by
  rw [picked, List.mem_filter, decide_eq_true_iff]
  rfl

/-! ### Events -/

theorem exists_events_iff :
    (∃ es, events ⟨some t, now⟩ r = .ok es) ↔ ∀ row ∈ picked ⟨some t, now⟩ r, row.IsReadable := by
  rw [events_eq, exists_mapM_eq_ok_iff]
  simp only [exists_readEvent_iff, mem_eventRows, mem_picked]
  rfl

theorem fetchedBefore_of_eventRows : (eventRows now t r).Pairwise FetchedBefore := by
  refine (eventRows_pairwise now t r).imp ?_
  rintro a b (hlt | ⟨hnot, hnumber⟩)
  · exact .inl (of_decide_eq_true hlt)
  · by_cases heq : a.crashedOn.textBytes = b.crashedOn.textBytes
    · exact .inr ⟨heq, hnumber⟩
    · have htotal := (isTotalOrder_bytes.total heq).resolve_right hnot
      exact .inl (of_decide_eq_true htotal)

theorem exists_rows_of_events {es : List Event} (h : events ⟨some t, now⟩ r = .ok es) :
    ∃ rows, rows.Perm (picked ⟨some t, now⟩ r) ∧ rows.Pairwise FetchedBefore ∧
      List.Forall₂ IsEventOf rows es := by
  refine ⟨eventRows now t r, ?_, fetchedBefore_of_eventRows now t r, ?_⟩
  · have hperm := eventRows_perm now t r
    rw [map_snd_selected] at hperm
    exact hperm
  · exact (readEvent_of_events h).imp fun _ _ hread => (readEvent_eq_ok_iff_isEventOf.1 hread).2

/-! ### Counts -/

/-- The rows of a group are those counted with any of them. -/
theorem mem_countedWith {g : Group} {row other : Row}
    (hrow : (g.day, row) ∈ members (selected now r t.rows) g.day g.containerId) :
    other ∈ countedWith ⟨some t, now⟩ r row ↔
      (g.day, other) ∈ members (selected now r t.rows) g.day g.containerId := by
  obtain ⟨-, hday, hwithin, hid⟩ := (mem_members_selected now t r).1 hrow
  rw [countedWith, List.mem_filter, decide_eq_true_iff, mem_picked, mem_members_selected, hday, hid]
  constructor
  · rintro ⟨⟨hother, -⟩, hday', hid'⟩
    exact ⟨hother, hday', hwithin, hid'⟩
  · rintro ⟨hother, hday', -, hid'⟩
    exact ⟨⟨hother, g.day, hday', hwithin⟩, hday', hid'⟩

theorem length_countedWith {g : Group} (hg : g ∈ countGroups now t r) {row : Row}
    (hrow : (g.day, row) ∈ members (selected now r t.rows) g.day g.containerId) :
    (countedWith ⟨some t, now⟩ r row).length = g.size := by
  obtain ⟨-, hday, hwithin, hid⟩ := (mem_members_selected now t r).1 hrow
  rw [size_of_mem_countGroups now t r hg, countedWith, picked, List.filter_filter]
  refine congrArg List.length (List.filter_congr fun other _ => ?_)
  rw [hday, hid, Bool.decide_and]
  by_cases hother : other.crashedOn.day? now = some g.day
  · simp [hother, show Selects now r other from ⟨g.day, hother, hwithin⟩]
  · simp [hother]

/-- The first row of a group gives it the name, and no other row does. -/
theorem suppliesName_iff {g : Group} (hg : g ∈ countGroups now t r) {row : Row}
    (hrow : (g.day, row) ∈ members (selected now r t.rows) g.day g.containerId) :
    SuppliesName ⟨some t, now⟩ r row ↔ row = g.first := by
  obtain ⟨hmem, hfirst⟩ := first_of_mem_countGroups now t r hg
  constructor
  · intro hsupplies
    rcases hfirst _ hrow with heq | hbefore
    · exact heq
    rcases hsupplies _ ((mem_countedWith now t r hrow).2 hmem) with heq | hafter
    · exact heq.symm
    -- neither of two rows can come before the other
    rcases hbefore with hlt | ⟨hnot, hnumber⟩
    · rcases hafter with hgt | ⟨hnot', -⟩
      · exact absurd hgt (isOrder_stampBefore.asymm hlt)
      · exact absurd hlt hnot'
    · rcases hafter with hgt | ⟨-, hnumber'⟩
      · exact absurd hgt hnot
      · dsimp only at hnumber hnumber'
        omega
  · rintro rfl other hother
    exact hfirst _ ((mem_countedWith now t r hrow).1 hother)

theorem holdsText_of_readGroup {g : Group} {c : CountRecord} (h : readGroup g = .ok c) :
    g.containerId.HoldsText ∧ g.first.containerName.HoldsText ∧ ∃ d, g.day = .ofDay d := by
  obtain ⟨hid, hname, ⟨d, hday, -⟩, -⟩ := readGroup_eq_ok_iff.1 h
  exact ⟨(readColumn_eq_ok_iff_holdsText.1 hid).1, (readColumn_eq_ok_iff_holdsText.1 hname).1,
    d, hday⟩

theorem exists_readGroup {g : Group} (hsize : g.size < UInt32.size) (hid : g.containerId.HoldsText)
    (hname : g.first.containerName.HoldsText) {d : Day} (hday : g.day = .ofDay d) :
    ∃ c, readGroup g = .ok c :=
  ⟨⟨_, _, some d, _⟩, readGroup_eq_ok_iff.2 ⟨readColumn_eq_ok_iff_holdsText.2 ⟨hid, rfl⟩,
    readColumn_eq_ok_iff_holdsText.2 ⟨hname, rfl⟩, ⟨d, hday, rfl⟩, hsize, rfl⟩⟩

/-- Each picked row belongs to a group. -/
theorem exists_group_of_mem_picked {row : Row} (hrow : row ∈ picked ⟨some t, now⟩ r) :
    ∃ g ∈ countGroups now t r,
      (g.day, row) ∈ members (selected now r t.rows) g.day g.containerId := by
  obtain ⟨hmem, y, hfound⟩ := (mem_picked now t r).1 hrow
  obtain ⟨g, hg, -, hmember⟩ := (isCountedOn_iff now t r).2 ⟨hmem, hfound⟩
  exact ⟨g, hg, hmember⟩

/-- The first row of a group is one of those that are picked. -/
theorem first_mem_picked {g : Group} (hg : g ∈ countGroups now t r) :
    g.first ∈ picked ⟨some t, now⟩ r ∧
      (g.day, g.first) ∈ members (selected now r t.rows) g.day g.containerId := by
  obtain ⟨hmem, -⟩ := first_of_mem_countGroups now t r hg
  obtain ⟨hrow, hday, hwithin, -⟩ := (mem_members_selected now t r).1 hmem
  exact ⟨(mem_picked now t r).2 ⟨hrow, g.day, hday, hwithin⟩, hmem⟩

/-- Where the counts can be read, each picked row has a day of the calendar and spoils nothing. -/
theorem not_spoilsCounts_of_counts {records : List CountRecord}
    (h : counts ⟨some t, now⟩ r = .ok records) {row : Row}
    (hrow : row ∈ picked ⟨some t, now⟩ r) :
    row.IsOnCalendar now ∧ ¬ SpoilsCounts ⟨some t, now⟩ r row := by
  obtain ⟨g, hg, hmem⟩ := exists_group_of_mem_picked now t r hrow
  obtain ⟨-, hday, -, hid⟩ := (mem_members_selected now t r).1 hmem
  obtain ⟨c, hc⟩ := exists_of_mapM_eq_ok (counts_eq now t r ▸ h) hg
  obtain ⟨htext, hname, d, hd⟩ := holdsText_of_readGroup hc
  refine ⟨⟨d, hday.trans (congrArg some hd)⟩, ?_⟩
  rintro (hnot | ⟨hsupplies, hnot⟩)
  · exact hnot (hid ▸ htext)
  · rw [(suppliesName_iff now t r hg hmem).1 hsupplies] at hnot
    exact hnot hname

theorem exists_counts
    (hsize : ∀ row ∈ picked ⟨some t, now⟩ r,
      (countedWith ⟨some t, now⟩ r row).length < UInt32.size)
    (hday : ∀ row ∈ picked ⟨some t, now⟩ r, row.IsOnCalendar now)
    (hspoils : ∀ row ∈ picked ⟨some t, now⟩ r, ¬ SpoilsCounts ⟨some t, now⟩ r row) :
    ∃ records, counts ⟨some t, now⟩ r = .ok records := by
  rw [counts_eq, exists_mapM_eq_ok_iff]
  intro g hg
  obtain ⟨hfirst, hmem⟩ := first_mem_picked now t r hg
  obtain ⟨-, hfound, -, hid⟩ := (mem_members_selected now t r).1 hmem
  obtain ⟨htext, hname⟩ := not_or.1 (hspoils _ hfirst)
  obtain ⟨d, hd⟩ := hday _ hfirst
  refine exists_readGroup ?_ (hid ▸ not_not.1 htext) ?_ (Option.some.inj (hfound.symm.trans hd))
  · rw [← length_countedWith now t r hg hmem]
    exact hsize _ hfirst
  · exact not_not.1 fun hnot => hname ⟨(suppliesName_iff now t r hg hmem).2 rfl, hnot⟩

end Table

/-! ### Both fetches of a store -/

/-- The fetches of a range succeed or fail by the rows that the range selects, and by no
others. -/
structure AnswersForRows (s : Store) (r : DayRange) : Prop where
  events_fail : (∃ f, s.events r = .error f) ↔
    s.table = none ∨ ∃ row ∈ s.picked r, ¬ row.IsReadable
  events_ok : ∀ es, s.events r = .ok es → ∃ rows, rows.Perm (s.picked r) ∧
    rows.Pairwise FetchedBefore ∧ List.Forall₂ IsEventOf rows es
  counts_spoiled : (s.table = none ∨ ∃ row ∈ s.picked r, SpoilsCounts s r row) →
    ∃ f, s.counts r = .error f
  /-- Nothing else makes the counts fail, as long as the rows of each day and container can be
  counted in 32 bits and all days can be read. -/
  counts_fail : (∀ row ∈ s.picked r, (s.countedWith r row).length < UInt32.size) →
    (∀ row ∈ s.picked r, row.IsOnCalendar s.now) →
      ((∃ f, s.counts r = .error f) ↔ s.table = none ∨ ∃ row ∈ s.picked r, SpoilsCounts s r row)
  others : ∀ s' : Store, s'.now = s.now → (s'.table = none ↔ s.table = none) →
    s'.picked r = s.picked r → s'.events r = s.events r ∧ s'.counts r = s.counts r

theorem counts_spoiled {s : Store} {r : DayRange}
    (h : s.table = none ∨ ∃ row ∈ s.picked r, SpoilsCounts s r row) :
    ∃ f, s.counts r = .error f := by
  obtain ⟨table, now⟩ := s
  cases table with
  | none => exact ⟨.noTable, rfl⟩
  | some t =>
    obtain ⟨row, hrow, hspoils⟩ := h.resolve_left (by simp)
    rw [exists_eq_error_iff]
    rintro ⟨records, hrecords⟩
    exact (not_spoilsCounts_of_counts now t r hrecords hrow).2 hspoils

/-- Whatever is stored, both fetches of a range answer for the rows that it selects. -/
theorem answersForRows (s : Store) (r : DayRange) : AnswersForRows s r := by
  obtain ⟨table, now⟩ := s
  cases table with
  | none =>
    refine ⟨iff_of_true ⟨.noTable, rfl⟩ (.inl rfl), fun es hes => ?_, counts_spoiled,
      fun _ _ => iff_of_true ⟨.noTable, rfl⟩ (.inl rfl), fun s' hnow htable _ => ?_⟩
    · cases hes
    · obtain ⟨table, now'⟩ := s'
      obtain ⟨rfl, rfl⟩ : table = none ∧ now' = now := ⟨htable.2 rfl, hnow⟩
      exact ⟨rfl, rfl⟩
  | some t =>
    refine ⟨?_, fun es hes => exists_rows_of_events now t r hes, counts_spoiled,
      fun hsize hday => ⟨fun hfail => .inr ?_, counts_spoiled⟩, fun s' hnow htable hrows => ?_⟩
    · have hevents := not_congr (exists_events_iff now t r)
      push Not at hevents
      rw [exists_eq_error_iff]
      simpa using hevents
    · by_contra hnone
      push Not at hnone
      exact exists_eq_error_iff.1 hfail (exists_counts now t r hsize hday hnone)
    · obtain ⟨table, now'⟩ := s'
      obtain rfl : now' = now := hnow
      cases table with
      | none => cases htable.1 rfl
      | some t' =>
        have hselected : selected now' r t'.rows = selected now' r t.rows := by
          rw [selected_eq_picked, selected_eq_picked, hrows]
        rw [events_eq, events_eq, counts_eq, counts_eq, eventRows, eventRows, countGroups,
          countGroups, hselected]
        exact ⟨rfl, rfl⟩

/-- A day whose events cannot be read and whose counts can: a log is no UTF-8, and the name of a
later crash is no text.  The row of the next day has nothing that could be read. -/
def halfSpoiledTable : Table :=
  ⟨[⟨1, .text "web", .text "old", .broken ⟨[120, 255], rfl⟩, .text "2024-10-05 08:00:00"⟩,
    ⟨2, .text "web", .bytes [255], .null, .text "2024-10-05 09:00:00"⟩,
    ⟨3, .null, .null, .null, .text "2024-10-05 10:00"⟩,
    ⟨4, .bytes [], .bytes [], .bytes [], .text "2024-10-06 08:00:00"⟩], by simp⟩

/-- The range of that day alone. -/
def halfSpoiledRange : DayRange :=
  ⟨⟨2024, 10, 5, by decide⟩, ⟨2024, 10, 5, by decide⟩, by decide⟩

theorem answersForRows_halfSpoiledTable :
    AnswersForRows ⟨some halfSpoiledTable, noon⟩ halfSpoiledRange ∧
      (∀ row ∈ picked ⟨some halfSpoiledTable, noon⟩ halfSpoiledRange,
        (countedWith ⟨some halfSpoiledTable, noon⟩ halfSpoiledRange row).length < UInt32.size) ∧
      (∀ row ∈ picked ⟨some halfSpoiledTable, noon⟩ halfSpoiledRange, row.IsOnCalendar noon) ∧
      events ⟨some halfSpoiledTable, noon⟩ halfSpoiledRange =
        .error (.encoding "logs" ⟨1, some 1⟩) ∧
      counts ⟨some halfSpoiledTable, noon⟩ halfSpoiledRange =
        .ok [⟨"", "", some halfSpoiledRange.start, 1⟩,
          ⟨"web", "old", some halfSpoiledRange.start, 2⟩] :=
  ⟨answersForRows _ _, by decide +kernel, by decide +kernel, by decide +kernel, by decide +kernel⟩

/-- A row holds something else than texts in its columns, or a time whose bytes are no UTF-8. -/
def Row.HoldsBytes (row : Row) : Prop :=
  (∃ bs, row.containerId = .bytes bs ∨ row.containerName = .bytes bs ∨ row.logs = .bytes bs) ∨
    ¬ ∃ stamp, row.crashedOn.textBytes = Text.utf8 stamp

/-- A crash whose log is stored as a text and is no UTF-8. -/
def brokenRow : Row :=
  ⟨1, .text "web", .text "web", .broken ⟨[120, 255], rfl⟩, .text "2024-10-05 08:00:00"⟩

/-- The table of that crash alone. -/
def brokenTable : Table := ⟨[brokenRow], by simp⟩

/-- Both fetches can fail although all columns are stored as texts.  The events of a crash fail if
its log is no UTF-8, and the counts of another one fail because it is found on 0300-02-29. -/
theorem fetches_fail_on_texts :
    events ⟨some brokenTable, noon⟩ halfSpoiledRange = .error (.encoding "logs" ⟨1, some 1⟩) ∧
      ¬ ((∃ f, events ⟨some brokenTable, noon⟩ halfSpoiledRange = .error f) ↔
        (⟨some brokenTable, noon⟩ : Store).table = none ∨
          ∃ row ∈ picked ⟨some brokenTable, noon⟩ halfSpoiledRange, row.HoldsBytes) ∧
      (∀ row ∈ picked ⟨some strayTable, noon⟩ strayRange,
        (countedWith ⟨some strayTable, noon⟩ strayRange row).length < UInt32.size) ∧
      counts ⟨some strayTable, noon⟩ strayRange = .error (.noDay "0300-02-29") ∧
      ¬ ((∃ f, counts ⟨some strayTable, noon⟩ strayRange = .error f) ↔
        (⟨some strayTable, noon⟩ : Store).table = none ∨
          ∃ row ∈ picked ⟨some strayTable, noon⟩ strayRange,
            SpoilsCounts ⟨some strayTable, noon⟩ strayRange row) := by
  have hevents : events ⟨some brokenTable, noon⟩ halfSpoiledRange =
      .error (.encoding "logs" ⟨1, some 1⟩) := by
    decide +kernel
  have hcounts : counts ⟨some strayTable, noon⟩ strayRange = .error (.noDay "0300-02-29") := by
    decide +kernel
  refine ⟨hevents, fun hiff => ?_, by decide +kernel, hcounts, fun hiff => ?_⟩
  · obtain ⟨row, hrow, hbytes⟩ := (hiff.1 ⟨_, hevents⟩).resolve_left (by simp)
    obtain rfl := List.mem_singleton.1 ((mem_picked _ _ _).1 hrow).1
    rcases hbytes with ⟨bs, hid | hname | hlogs⟩ | hstamp
    · cases hid
    · cases hname
    · cases hlogs
    · exact hstamp ⟨_, rfl⟩
  · obtain ⟨row, hrow, hspoils⟩ := (hiff.1 ⟨_, hcounts⟩).resolve_left (by simp)
    obtain rfl := List.mem_singleton.1 ((mem_picked _ _ _).1 hrow).1
    rcases hspoils with hid | ⟨-, hname⟩
    · exact hid trivial
    · exact hname trivial

end CrashReports.Store
