import CrashReports.Proofs.Crash.Chart
import CrashReports.Proofs.Crash.Consolidation

/-!
# Containers are reported independently

What a report says about a container depends on the events and the dated records of that
container alone, in their order.  How those of different containers are mixed, and where records
without a day stand between them, decides nothing but the order of the transcripts and of the
legend (`Report.agreesWith_ofLists`).

Transcripts and legends are both collected by key (`Gather`), so their entries are compared key by
key; the cells of the chart are those of first records, which are found among the records of
their container.
-/

namespace CrashReports

/-- The events of a container. -/
def eventsOf (es : List Event) (id : String) : List Event :=
  es.filter fun e => decide (e.containerId = id)

/-- The records of a container that have a day. -/
def datedOf (records : List CountRecord) (id : String) : List CountRecord :=
  records.filter fun r => r.isDated && decide (r.containerId = id)

/-- Reports that say the same about each container and each day.  Their containers may stand in
another order. -/
structure Report.AgreesWith (r r' : Report) : Prop where
  transcript? : ∀ id, r.transcript? id = r'.transcript? id
  row? : ∀ id, r.series.row? id = r'.series.row? id
  legend : ∀ id, r.series.containers.find? (fun k => decide (k.containerId = id)) =
    r'.series.containers.find? fun k => decide (k.containerId = id)
  dates : r.series.dates = r'.series.dates
  count : ∀ d id, r.series.count d id = r'.series.count d id
  transcripts : r.transcripts.Perm r'.transcripts
  containers : r.series.containers.Perm r'.series.containers

namespace Transcript

/-- The transcript of a container is made of its events. -/
theorem find?_consolidate_eq_entry (es : List Event) (id : String) :
    find? (consolidate es) id = transcriptGather.entry (eventsOf es id) := by
  rw [consolidate_eq_collect]
  exact transcriptGather.find?_collect es id

end Transcript

namespace Series

variable {records records' : List CountRecord} {id : String}

theorem filter_dated (records : List CountRecord) (id : String) :
    (dated records).filter (fun p => decide (p.2.containerId = id)) =
      dated (datedOf records id) := by
  induction records with
  | nil => rfl
  | cons r records ih =>
    unfold datedOf at ih ⊢
    rw [dated_cons, List.filter_append, ih, List.filter_cons]
    cases hday : r.crashedOn with
    | none => simp [CountRecord.isDated, hday]
    | some d =>
      by_cases hid : r.containerId = id
      · simp [CountRecord.isDated, hday, hid, dated_cons]
      · simp [CountRecord.isDated, hday, hid]

theorem filter_dated_eq (h : datedOf records id = datedOf records' id) :
    (dated records).filter (fun p => decide (p.2.containerId = id)) =
      (dated records').filter fun p => decide (p.2.containerId = id) := by
  rw [filter_dated, filter_dated, h]

/-- The first record of a cell is found among the records of its container. -/
theorem firstCount?_eq_filter (points : List (Day × CountRecord)) (d : Day) (id : String) :
    firstCount? points d id =
      firstCount? (points.filter fun p => decide (p.2.containerId = id)) d id := by
  unfold firstCount?
  rw [List.find?_filter]
  congr 2
  funext p
  by_cases hid : p.2.containerId = id
  · simp [hid]
  · simp [hid, Ne.symm hid]

theorem firstCount?_eq_of_datedOf (h : datedOf records id = datedOf records' id) (d : Day) :
    firstCount? (dated records) d id = firstCount? (dated records') d id := by
  rw [firstCount?_eq_filter, filter_dated_eq h, ← firstCount?_eq_filter]

/-- A cell holds what its container's own records say. -/
theorem count_eq_of_datedOf (h : datedOf records id = datedOf records' id) (d : Day) :
    (ofRecords records).count d id = (ofRecords records').count d id := by
  rw [count_ofRecords, count_ofRecords, firstCount?_eq_of_datedOf h]

/-- A container has the name that its own records give it. -/
theorem legend_eq_of_datedOf (h : datedOf records id = datedOf records' id) :
    (ofRecords records).containers.find? (fun k => decide (k.containerId = id)) =
      (ofRecords records').containers.find? fun k => decide (k.containerId = id) := by
  rw [ofRecords_containers, ofRecords_containers, legendOf_eq_collect, legendOf_eq_collect]
  have hentries :
      legendGather.entry ((dated records).filter fun p => decide (p.2.containerId = id)) =
        legendGather.entry ((dated records').filter fun p => decide (p.2.containerId = id)) := by
    rw [filter_dated_eq h]
  exact ((legendGather.find?_collect _ id).trans hentries).trans
    (legendGather.find?_collect _ id).symm

theorem mem_ids_iff_datedOf :
    id ∈ ids (ofRecords records).containers ↔ datedOf records id ≠ [] := by
  rw [mem_ids_iff]
  simp [datedOf, List.filter_eq_nil_iff]

theorem dates_eq_of_datedOf (h : ∀ id, datedOf records id = datedOf records' id) :
    (ofRecords records).dates = (ofRecords records').dates := by
  -- each day is that of a record of some container
  have hsub : ∀ {records records' : List CountRecord},
      (∀ id, datedOf records id = datedOf records' id) → ∀ d, d ∈ (ofRecords records).dates →
        d ∈ (ofRecords records').dates := by
    intro records records' h d hd
    obtain ⟨r, hr, hday⟩ := (mem_dates_iff records).1 hd
    have hmem : r ∈ datedOf records' r.containerId := by
      rw [← h]
      simp [datedOf, hr, CountRecord.isDated, hday]
    exact (mem_dates_iff records').2 ⟨r, (List.mem_filter.1 hmem).1, hday⟩
  exact (ascending_dates records).ext (ascending_dates records') fun d =>
    ⟨hsub h d, hsub (fun id => (h id).symm) d⟩

theorem row?_eq_of_datedOf (h : ∀ id, datedOf records id = datedOf records' id) (id : String) :
    (ofRecords records).row? id = (ofRecords records').row? id := by
  simp only [row?_ofRecords, mem_ids_iff_datedOf, dates_eq_of_datedOf h, h,
    firstCount?_eq_of_datedOf (h id)]

theorem containers_perm_of_datedOf (h : ∀ id, datedOf records id = datedOf records' id) :
    (ofRecords records).containers.Perm (ofRecords records').containers := by
  rw [ofRecords_containers, ofRecords_containers, legendOf_eq_collect, legendOf_eq_collect]
  exact legendGather.collect_perm fun id => filter_dated_eq (h id)

end Series

namespace Report

/-- Two lists of events that have the same events of each container, and two lists of records
that have the same dated records of each container, are reported alike. -/
theorem agreesWith_ofLists {es es' : List Event} {records records' : List CountRecord}
    (hes : ∀ id, eventsOf es id = eventsOf es' id)
    (hrecords : ∀ id, datedOf records id = datedOf records' id) :
    (ofLists es records).AgreesWith (ofLists es' records') where
  transcript? id := by
    change Transcript.find? (Transcript.consolidate es) id =
      Transcript.find? (Transcript.consolidate es') id
    rw [Transcript.find?_consolidate_eq_entry, Transcript.find?_consolidate_eq_entry, hes]
  row? := Series.row?_eq_of_datedOf hrecords
  legend id := Series.legend_eq_of_datedOf (hrecords id)
  dates := Series.dates_eq_of_datedOf hrecords
  count d id := Series.count_eq_of_datedOf (hrecords id) d
  transcripts := by
    change (Transcript.consolidate es).Perm (Transcript.consolidate es')
    rw [Transcript.consolidate_eq_collect, Transcript.consolidate_eq_collect]
    exact Transcript.transcriptGather.collect_perm hes
  containers := Series.containers_perm_of_datedOf hrecords

/-! ### Two containers, mixed in two ways -/

/-- Three crashes of two containers; the first container goes on under another name. -/
def mixedEvents : List Event :=
  [⟨"web", "web", none, "a"⟩, ⟨"db", "db", none, "b"⟩, ⟨"web", "web-2", none, "c"⟩]

/-- The same crashes, with those of the other container first. -/
def remixedEvents : List Event :=
  [⟨"db", "db", none, "b"⟩, ⟨"web", "web", none, "a"⟩, ⟨"web", "web-2", none, "c"⟩]

/-- The first day of the records. -/
def firstDay : Day := ⟨2024, 12, 30, by decide⟩

/-- The second day of the records. -/
def secondDay : Day := ⟨2024, 12, 31, by decide⟩

/-- Records of two containers, with a cell that has two records and one record without a day. -/
def mixedRecords : List CountRecord :=
  [⟨"web", "web", some secondDay, 2⟩, ⟨"db", "db", some firstDay, 3⟩,
    ⟨"web", "web", some secondDay, 7⟩, ⟨"cache", "cache", none, 1⟩]

/-- The same records in another mixture, with other records without a day. -/
def remixedRecords : List CountRecord :=
  [⟨"db", "db", none, 9⟩, ⟨"db", "db", some firstDay, 3⟩, ⟨"web", "web", some secondDay, 2⟩,
    ⟨"web", "web", none, 4⟩, ⟨"web", "web", some secondDay, 7⟩]

theorem agreesWith_remixed :
    (∀ id, eventsOf mixedEvents id = eventsOf remixedEvents id) ∧
      (∀ id, datedOf mixedRecords id = datedOf remixedRecords id) ∧
      (ofLists mixedEvents mixedRecords).AgreesWith (ofLists remixedEvents remixedRecords) := by
  have hevents : ∀ id, eventsOf mixedEvents id = eventsOf remixedEvents id := by
    intro id
    by_cases hweb : "web" = id
    · subst hweb
      decide
    · simp [eventsOf, mixedEvents, remixedEvents, List.filter_cons, hweb]
  have hrecords : ∀ id, datedOf mixedRecords id = datedOf remixedRecords id := by
    intro id
    by_cases hweb : "web" = id
    · subst hweb
      decide
    · simp [datedOf, mixedRecords, remixedRecords, CountRecord.isDated, List.filter_cons, hweb]
  exact ⟨hevents, hrecords, agreesWith_ofLists hevents hrecords⟩

end Report

end CrashReports
