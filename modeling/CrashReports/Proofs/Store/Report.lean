import CrashReports.Proofs.Crash.Transcript
import CrashReports.Proofs.Store.PlainCrash
import CrashReports.Proofs.Store.Records

/-!
# The report on a table of plain crashes

The crashes of a range in order of time say directly what a report on them must hold
(`IsReportOf`).  A query of the store goes another way: it reads events ordered by text
and groups ordered by day, name and container, and builds the report from both.  Here it
is shown that the two agree (`query_isReportOf`).

What makes them meet is the first crash of a container.  Its name is that of the
transcript; and as the groups of one container are ordered by day, and the row of a group
with the least time is its first crash, it is the name in the legend too.
-/

namespace CrashReports.Store

namespace PlainCrash

/-- Crashes in order of time, and of row number at the same time. -/
def Precedes (a b : PlainCrash) : Prop :=
  a.moment < b.moment ∨ a.moment = b.moment ∧ a.number < b.number

/-- A crash stands at the place of another one, or before it. -/
def atMost (a b : PlainCrash) : Bool :=
  a.moment < b.moment || a.moment == b.moment && a.number ≤ b.number

theorem atMost_iff {a b : PlainCrash} :
    a.atMost b = true ↔ a.moment < b.moment ∨ a.moment = b.moment ∧ a.number ≤ b.number := by
  simp [atMost]

end PlainCrash

open PlainCrash

/-- The crashes of a range in order of time. -/
def timeline (cs : List PlainCrash) (r : DayRange) : List PlainCrash :=
  (cs.filter fun c => decide (r.Contains c.day)).mergeSort PlainCrash.atMost

/-- The transcripts of a list of crashes. -/
def transcriptsOf (cs : List PlainCrash) : List Transcript :=
  (cs.map PlainCrash.containerId).eraseDups.map fun id =>
    let own := cs.filter fun c => decide (c.containerId = id)
    ⟨id, (own.head?.map PlainCrash.name).getD "",
      String.intercalate "\n\n" (own.map PlainCrash.log)⟩

/-- What a report on a list of crashes must hold. -/
structure IsReportOf (report : Report) (cs : List PlainCrash) : Prop where
  transcripts : report.transcripts = transcriptsOf cs
  ascending : Axis.Ascending report.series.dates
  mem_dates : ∀ d, d ∈ report.series.dates ↔ ∃ c ∈ cs, c.day = d
  nodup_ids : (Series.ids report.series.containers).Nodup
  /-- The legend has the containers and names of the transcripts. -/
  legend : (report.series.containers.map fun k => (k.containerId, k.containerName)).Perm
    (report.transcripts.map fun t => (t.containerId, t.containerName))
  /-- The counts are a full matrix. -/
  counts : report.series.counts =
    Series.matrix report.series.dates report.series.containers report.series.count
  count : ∀ d id, (report.series.count d id).toNat =
    (cs.filter fun c => decide (c.day = d ∧ c.containerId = id)).length

/-! ### The order of events -/

section Timeline

variable {now : Int} {t : Table} {cs : List PlainCrash} {r : DayRange}

theorem timeline_perm (cs : List PlainCrash) (r : DayRange) :
    (timeline cs r).Perm (cs.filter fun c => decide (r.Contains c.day)) :=
  List.mergeSort_perm _ _

@[simp]
theorem mem_timeline {c : PlainCrash} : c ∈ timeline cs r ↔ c ∈ cs ∧ r.Contains c.day := by
  rw [(timeline_perm cs r).mem_iff, List.mem_filter, decide_eq_true_iff]

theorem timeline_pairwise (cs : List PlainCrash) (r : DayRange) :
    (timeline cs r).Pairwise fun a b =>
      a.moment < b.moment ∨ a.moment = b.moment ∧ a.number ≤ b.number := by
  have hsorted : (timeline cs r).Pairwise fun a b => a.atMost b = true := by
    apply List.pairwise_mergeSort
    · intro a b c hab hbc
      rw [atMost_iff] at *
      omega
    · intro a b
      rw [Bool.or_eq_true, atMost_iff, atMost_iff]
      omega
  exact hsorted.imp atMost_iff.1

theorem selected_plain (hr : r.IsPlain) (cs : List PlainCrash) :
    selected now r (cs.map PlainCrash.row) =
      (cs.filter fun c => decide (r.Contains c.day)).map fun c => (.ofDay c.day, c.row) := by
  induction cs with
  | nil => rfl
  | cons c cs ih =>
    have hwithin := withinText_iff_contains hr c.isPlain
    rw [List.map_cons, selected_cons, ih]
    by_cases hday : r.Contains c.day
    · have hselected : selectedDay? now r c.row = some (.ofDay c.day) :=
        selectedDay?_eq_some_iff.2 ⟨c.day?_row now, hwithin.2 hday⟩
      rw [hselected, List.filter_cons_of_pos (by simpa using hday)]
      rfl
    · have hselected : selectedDay? now r c.row = none := by
        rw [Option.eq_none_iff_forall_ne_some]
        intro y hy
        obtain ⟨hy, htext⟩ := selectedDay?_eq_some_iff.1 hy
        rw [c.day?_row now] at hy
        obtain rfl := Option.some.inj hy
        exact hday (hwithin.1 htext)
      rw [hselected, List.filter_cons_of_neg (by simpa using hday)]
      rfl

theorem eq_of_number_eq {a b : Row} (ha : a ∈ t.rows) (hb : b ∈ t.rows)
    (h : a.number = b.number) : a = b := by
  have hnodup : (t.rows.map Row.number).Nodup :=
    List.pairwise_map.2 (t.ascending.imp fun h => Int.ne_of_lt h)
  exact List.inj_on_of_nodup_map hnodup ha hb h

/-- The order in which events are returned. -/
def EventLe (a b : Row) : Prop :=
  eventBefore a b = true ∨ ¬ eventBefore b a = true ∧ a.number ≤ b.number

/-- The rows of the events of a range are those of its crashes in order of time. -/
theorem eventRows_eq_map (ht : t.rows = cs.map PlainCrash.row) (hr : r.IsPlain) :
    eventRows now t r = (timeline cs r).map PlainCrash.row := by
  have hselected : (selected now r t.rows).map Prod.snd =
      (cs.filter fun c => decide (r.Contains c.day)).map PlainCrash.row := by
    rw [ht, selected_plain hr, List.map_map]
    rfl
  have hperm : (eventRows now t r).Perm ((timeline cs r).map PlainCrash.row) := by
    rw [eventRows]
    refine (arrange_perm _).trans ?_
    rw [hselected]
    exact ((timeline_perm cs r).map _).symm
  have hmem : ∀ row ∈ eventRows now t r, row ∈ t.rows :=
    fun row h => ((mem_eventRows now t r).1 h).1
  have hsorted : (eventRows now t r).Pairwise EventLe :=
    (eventRows_pairwise now t r).imp fun h => h.imp id fun h => ⟨h.1, Int.le_of_lt h.2⟩
  have hsorted' : ((timeline cs r).map PlainCrash.row).Pairwise EventLe := by
    refine List.pairwise_map.2 ((timeline_pairwise cs r).imp ?_)
    intro a b hab
    rw [EventLe, eventBefore_row, eventBefore_row]
    rcases hab with hlt | ⟨heq, hle⟩
    · exact .inl hlt
    · exact .inr ⟨by omega, hle⟩
  -- both are sorted and have the same rows; rows that are level both ways are the same
  refine List.Perm.eq_of_pairwise ?_ hsorted hsorted' hperm
  intro a b ha hb hab hba
  apply eq_of_number_eq (hmem a ha) (hmem b (hperm.mem_iff.2 hb))
  rcases hab with hab | ⟨hnot, hab⟩
  · rcases hba with hba | ⟨hba, -⟩
    · exact absurd hba (isOrder_eventBefore.asymm hab)
    · exact absurd hab hba
  · rcases hba with hba | ⟨-, hba⟩
    · exact absurd hba hnot
    · exact Int.le_antisymm hab hba

theorem events_plain (ht : t.rows = cs.map PlainCrash.row) (hr : r.IsPlain) :
    (⟨some t, now⟩ : Store).events r = .ok ((timeline cs r).map PlainCrash.event) := by
  rw [events_eq, eventRows_eq_map ht hr, mapM_eq_ok_iff, List.forall₂_map_left_iff,
    List.forall₂_map_right_iff, List.forall₂_same]
  exact fun c _ => c.readEvent_row

theorem consolidate_event (cs : List PlainCrash) :
    Transcript.consolidate (cs.map PlainCrash.event) = transcriptsOf cs := by
  have hids : (cs.map PlainCrash.event).map Event.containerId = cs.map PlainCrash.containerId := by
    rw [List.map_map]
    rfl
  rw [Transcript.consolidate_eq, hids, transcriptsOf]
  refine List.map_congr_left fun id _ => ?_
  have hfilter : ((cs.map PlainCrash.event).filter fun e => decide (e.containerId = id)) =
      (cs.filter fun c => decide (c.containerId = id)).map PlainCrash.event := by
    rw [List.filter_map]
    rfl
  rw [hfilter, Transcript.ofEvents, List.head?_map, Option.map_map, List.map_map]
  rfl

/-! ### Groups of crashes -/

theorem mem_selected_plain (ht : t.rows = cs.map PlainCrash.row) (hr : r.IsPlain) {x : Selected} :
    x ∈ selected now r t.rows ↔ ∃ c ∈ timeline cs r, x = (.ofDay c.day, c.row) := by
  rw [ht, selected_plain hr, List.mem_map]
  simp only [(timeline_perm cs r).mem_iff, eq_comm]

theorem precedes_of_stampFirst {a b : PlainCrash}
    (h : StampFirst (fun x y => x.number < y.number) a.row b.row) : a.Precedes b := by
  unfold StampFirst at h
  rw [before_row, before_row] at h
  rcases h with hlt | ⟨hle, hnumber⟩
  · exact .inl hlt
  · have hnumber' : a.number < b.number := hnumber
    unfold Precedes
    omega

/-- The first row of a group is that of the first crash of its day and container. -/
theorem exists_first_of_mem_countGroups (ht : t.rows = cs.map PlainCrash.row) (hr : r.IsPlain)
    {g : Group} (hg : g ∈ countGroups now t r) :
    ∃ c ∈ timeline cs r, g.day = .ofDay c.day ∧ g.containerId = .text c.containerId ∧
      g.first = c.row ∧ ∀ c' ∈ timeline cs r, c'.day = c.day → c'.containerId = c.containerId →
        c'.row = c.row ∨ c.Precedes c' := by
  obtain ⟨hmem, hfirst⟩ := first_of_mem_countGroups now t r hg
  obtain ⟨hselected, -, hid⟩ := mem_members.1 hmem
  obtain ⟨c, hc, hpair⟩ := (mem_selected_plain ht hr).1 hselected
  obtain ⟨hday, hrow⟩ := Prod.mk.inj hpair
  have hid' : g.containerId = .text c.containerId := by
    rw [← hid]
    dsimp only
    rw [hrow]
    rfl
  refine ⟨c, hc, hday, hid', hrow, fun c' hc' hday' hcontainer => ?_⟩
  have hmember :
      (Ymd.ofDay c'.day, c'.row) ∈ members (selected now r t.rows) g.day g.containerId := by
    refine mem_members.2 ⟨(mem_selected_plain ht hr).2 ⟨c', hc', rfl⟩, ?_, ?_⟩
    · rw [hday, hday']
    · rw [hid', ← hcontainer]
      rfl
  -- of rows with the same time the group keeps the one with the lower number
  rcases hfirst _ hmember with heq | hbefore
  · exact .inl (heq.trans hrow)
  · rw [hrow] at hbefore
    exact .inr (precedes_of_stampFirst hbefore)

theorem exists_group_of_mem_timeline (ht : t.rows = cs.map PlainCrash.row) (hr : r.IsPlain)
    {c : PlainCrash} (hc : c ∈ timeline cs r) :
    ∃ g ∈ countGroups now t r, g.day = .ofDay c.day ∧ g.containerId = .text c.containerId := by
  obtain ⟨hmem, hday⟩ := mem_timeline.1 hc
  have hrow : c.row ∈ t.rows := ht ▸ List.mem_map_of_mem hmem
  exact (exists_mem_countGroups now t r).2
    ⟨(withinText_iff_contains hr c.isPlain).2 hday, c.row, hrow, c.day?_row now, rfl⟩

theorem length_filter_timeline {d : Day} (hd : r.Contains d) (id : String) :
    ((timeline cs r).filter fun c => decide (c.day = d ∧ c.containerId = id)).length =
      (cs.filter fun c => decide (c.day = d ∧ c.containerId = id)).length := by
  rw [((timeline_perm cs r).filter _).length_eq, List.filter_filter]
  congr 1
  refine List.filter_congr fun c _ => ?_
  by_cases hcell : c.day = d ∧ c.containerId = id
  · simp [hcell, hd]
  · simp [hcell]

/-- A group has as many rows as there are crashes on its day in its container. -/
theorem size_eq_length_timeline (ht : t.rows = cs.map PlainCrash.row) {g : Group}
    (hg : g ∈ countGroups now t r) {d : Day} {id : String} (hd : r.Contains d)
    (hday : g.day = .ofDay d) (hid : g.containerId = .text id) :
    g.size = ((timeline cs r).filter fun c => decide (c.day = d ∧ c.containerId = id)).length := by
  rw [length_filter_timeline hd, size_of_mem_countGroups now t r hg, ht, List.filter_map,
    List.length_map, hday, hid]
  congr 1
  refine List.filter_congr fun c _ => ?_
  have hiff : c.row.crashedOn.day? now = some (.ofDay d) ↔ c.day = d := by
    rw [c.day?_row now, Option.some.injEq, Ymd.ofDay_inj]
  have hiff' : c.row.containerId = .text id ↔ c.containerId = id := by
    show TextCell.text c.containerId = .text id ↔ _
    rw [TextCell.text.injEq]
  simp only [Function.comp_apply, hiff, hiff', Bool.decide_and]

theorem exists_counts_plain (ht : t.rows = cs.map PlainCrash.row) (hr : r.IsPlain)
    (hfew : ∀ d id, (cs.filter fun c => decide (c.day = d ∧ c.containerId = id)).length < 2 ^ 32) :
    ∃ records, (⟨some t, now⟩ : Store).counts r = .ok records := by
  rw [counts_eq]
  apply exists_mapM_eq_ok
  intro g hg
  obtain ⟨c, hc, hday, hid, hfirst, -⟩ := exists_first_of_mem_countGroups ht hr hg
  have hcontains := (mem_timeline.1 hc).2
  have hsize := size_eq_length_timeline ht hg hcontains hday hid
  rw [length_filter_timeline hcontains] at hsize
  refine ⟨⟨c.containerId, c.name, some c.day, UInt32.ofNat g.size⟩, readGroup_eq_ok_iff.2 ?_⟩
  refine ⟨by rw [hid]; rfl, ?_, ⟨c.day, hday, rfl⟩, hsize ▸ hfew _ _, rfl⟩
  rw [hfirst]
  exact readColumn_cell _ _

/-! ### The series -/

variable {records : List CountRecord}

theorem toNat_count_plain (ht : t.rows = cs.map PlainCrash.row) (hr : r.IsPlain)
    (h : (⟨some t, now⟩ : Store).counts r = .ok records) (d : Day) (id : String) :
    ((Series.ofRecords records).count d id).toNat =
      ((timeline cs r).filter fun c => decide (c.day = d ∧ c.containerId = id)).length := by
  rw [toNat_count h]
  cases hgroup : (countGroups now t r).find? fun g => decide (Fills d id g) with
  | none =>
    have hnone :
        (timeline cs r).filter (fun c => decide (c.day = d ∧ c.containerId = id)) = [] := by
      refine List.filter_eq_nil_iff.2 fun c hc hcell => ?_
      obtain ⟨rfl, rfl⟩ := of_decide_eq_true hcell
      obtain ⟨g, hg, hday, hid⟩ := exists_group_of_mem_timeline ht hr hc
      have hfills : Fills c.day c.containerId g := ⟨hday, by rw [hid]; rfl⟩
      exact List.find?_eq_none.1 hgroup g hg (decide_eq_true hfills)
    rw [hnone]
    rfl
  | some g =>
    have hg := List.mem_of_find?_eq_some hgroup
    have hfills := List.find?_some hgroup
    rw [decide_eq_true_iff] at hfills
    obtain ⟨c, hc, hday, hid, -⟩ := exists_first_of_mem_countGroups ht hr hg
    obtain ⟨hday', hread⟩ := hfills
    obtain rfl := Ymd.ofDay_inj.1 (hday.symm.trans hday')
    have hid' : c.containerId = id := by
      rw [hid] at hread
      exact Except.ok.inj hread
    exact size_eq_length_timeline ht hg (mem_timeline.1 hc).2 hday (hid' ▸ hid)

theorem exists_crash_of_mem_dated (ht : t.rows = cs.map PlainCrash.row) (hr : r.IsPlain)
    (h : (⟨some t, now⟩ : Store).counts r = .ok records) {p : Day × CountRecord}
    (hp : p ∈ Series.dated records) :
    ∃ c ∈ timeline cs r, c.day = p.1 ∧ c.containerId = p.2.containerId := by
  obtain ⟨g, hg, hgp⟩ := exists_left_of_mem (dated_of_counts h) hp
  obtain ⟨c, hc, hday, hid, -⟩ := exists_first_of_mem_countGroups ht hr hg
  have hread := hgp.containerId
  rw [hid] at hread
  exact ⟨c, hc, Ymd.ofDay_inj.1 (hday.symm.trans hgp.day), Except.ok.inj hread⟩

theorem exists_dated_of_mem_timeline (ht : t.rows = cs.map PlainCrash.row) (hr : r.IsPlain)
    (h : (⟨some t, now⟩ : Store).counts r = .ok records) {c : PlainCrash} (hc : c ∈ timeline cs r) :
    ∃ p ∈ Series.dated records, p.1 = c.day ∧ p.2.containerId = c.containerId := by
  obtain ⟨g, hg, hday, hid⟩ := exists_group_of_mem_timeline ht hr hc
  obtain ⟨p, hp, hgp⟩ := exists_right_of_mem (dated_of_counts h) hg
  have hread := hgp.containerId
  rw [hid] at hread
  exact ⟨p, hp, (Ymd.ofDay_inj.1 (hday.symm.trans hgp.day)).symm, (Except.ok.inj hread).symm⟩

theorem mem_dates_plain (ht : t.rows = cs.map PlainCrash.row) (hr : r.IsPlain)
    (h : (⟨some t, now⟩ : Store).counts r = .ok records) (d : Day) :
    d ∈ (Series.ofRecords records).dates ↔ ∃ c ∈ timeline cs r, c.day = d := by
  rw [Series.mem_dates]
  constructor
  · rintro ⟨p, hp, rfl⟩
    obtain ⟨c, hc, hday, -⟩ := exists_crash_of_mem_dated ht hr h hp
    exact ⟨c, hc, hday⟩
  · rintro ⟨c, hc, rfl⟩
    obtain ⟨p, hp, hday, -⟩ := exists_dated_of_mem_timeline ht hr h hc
    exact ⟨p, hp, hday⟩

theorem mem_ids_plain (ht : t.rows = cs.map PlainCrash.row) (hr : r.IsPlain)
    (h : (⟨some t, now⟩ : Store).counts r = .ok records) (id : String) :
    id ∈ Series.ids (Series.ofRecords records).containers ↔
      ∃ c ∈ timeline cs r, c.containerId = id := by
  rw [Series.ofRecords_containers, Series.mem_ids_legendOf]
  constructor
  · rintro ⟨p, hp, rfl⟩
    obtain ⟨c, hc, -, hid⟩ := exists_crash_of_mem_dated ht hr h hp
    exact ⟨c, hc, hid⟩
  · rintro ⟨c, hc, rfl⟩
    obtain ⟨p, hp, -, hid⟩ := exists_dated_of_mem_timeline ht hr h hc
    exact ⟨p, hp, hid⟩

/-! ### The names in the legend -/

/-- The name of the first crash of a container. -/
def firstName (cs : List PlainCrash) (id : String) : String :=
  ((cs.find? fun c => decide (c.containerId = id)).map PlainCrash.name).getD ""

theorem atMost_of_find? {c c' : PlainCrash} {id : String}
    (h : (timeline cs r).find? (fun c => decide (c.containerId = id)) = some c)
    (hc' : c' ∈ timeline cs r) (hid : c'.containerId = id) :
    c' = c ∨ c.moment < c'.moment ∨ c.moment = c'.moment ∧ c.number ≤ c'.number := by
  obtain ⟨-, before, after, hsplit, hbefore⟩ := List.find?_eq_some_iff_append.1 h
  have hpairwise := timeline_pairwise cs r
  rw [hsplit] at hc' hpairwise
  rcases List.mem_append.1 hc' with hmem | hmem
  · have hnot := hbefore c' hmem
    simp [hid] at hnot
  · rcases List.mem_cons.1 hmem with heq | hmem
    · exact .inl heq
    · obtain ⟨-, hafter, -⟩ := List.pairwise_append.1 hpairwise
      exact .inr ((List.pairwise_cons.1 hafter).1 c' hmem)

theorem day_le_of_moment_le {a b : PlainCrash} (h : a.moment ≤ b.moment) : a.day ≤ b.day := by
  have ha := a.seconds_lt
  have hb := b.seconds_lt
  unfold PlainCrash.moment at h
  show a.time.day.rank ≤ b.time.day.rank
  omega

/-- Any other group of a container is of a later day than its first crash. -/
theorem day_lt_of_find? {c c' : PlainCrash} {g g' : Group}
    (h : (timeline cs r).find? (fun a => decide (a.containerId = c.containerId)) = some c)
    (hg : g ∈ countGroups now t r)
    (hgroup : g.day = .ofDay c.day ∧ g.containerId = .text c.containerId)
    (hc' : c' ∈ timeline cs r) (hg' : g' ∈ countGroups now t r)
    (hgroup' : g'.day = .ofDay c'.day ∧ g'.containerId = .text c'.containerId)
    (hcontainer : c'.containerId = c.containerId) (hne : g' ≠ g) : c.day < c'.day := by
  have hdays : c.day ≠ c'.day := by
    intro heq
    refine hne (group_unique ((mem_countGroups now t r).1 hg')
      ((mem_countGroups now t r).1 hg) ?_ ?_)
    · rw [hgroup'.1, hgroup.1, heq]
    · rw [hgroup'.2, hgroup.2, hcontainer]
  have hle : c.day ≤ c'.day := by
    apply day_le_of_moment_le
    rcases atMost_of_find? h hc' hcontainer with rfl | hlt | ⟨heq, -⟩
    · exact Int.le_refl _
    · exact Int.le_of_lt hlt
    · exact Int.le_of_eq heq
  have hranks := mt Day.rank_inj.1 hdays
  rw [Day.le_def] at hle
  rw [Day.lt_def]
  omega

/-- The group on the day of the first crash of a container takes its name from that crash. -/
theorem first_eq_row_of_find? (ht : t.rows = cs.map PlainCrash.row) (hr : r.IsPlain)
    {c : PlainCrash} {g : Group}
    (h : (timeline cs r).find? (fun a => decide (a.containerId = c.containerId)) = some c)
    (hg : g ∈ countGroups now t r) (hday : g.day = .ofDay c.day)
    (hid : g.containerId = .text c.containerId) : g.first = c.row := by
  obtain ⟨c', hc', hday', hid', hfirst, hothers⟩ := exists_first_of_mem_countGroups ht hr hg
  have hsame : c.day = c'.day := Ymd.ofDay_inj.1 (hday.symm.trans hday')
  have hcontainer : c.containerId = c'.containerId := TextCell.text.inj (hid.symm.trans hid')
  -- neither of the two crashes precedes the other
  rw [hfirst]
  rcases hothers c (List.mem_of_find?_eq_some h) hsame hcontainer with heq | hprecedes
  · exact heq.symm
  · rcases atMost_of_find? h hc' hcontainer.symm with rfl | hle
    · rfl
    · unfold Precedes at hprecedes
      omega

/-- Of the groups of a container the one that comes first is that of its first crash. -/
theorem find?_countGroups (ht : t.rows = cs.map PlainCrash.row) (hr : r.IsPlain)
    {c : PlainCrash} {id : String}
    (h : (timeline cs r).find? (fun c => decide (c.containerId = id)) = some c) :
    ∃ g, (countGroups now t r).find?
        (fun g => decide (readColumn "container_id" g.containerId = .ok id)) = some g ∧
      g.first = c.row := by
  obtain rfl : c.containerId = id := by simpa using List.find?_some h
  obtain ⟨g, hg, hday, hid⟩ :=
    exists_group_of_mem_timeline ht hr (List.mem_of_find?_eq_some h)
  refine ⟨g, ?_, first_eq_row_of_find? ht hr h hg hday hid⟩
  apply find?_eq_some_of_pairwise (arrange_sorted isOrder_groupBefore _) hg
    (decide_eq_true (by rw [hid]; rfl))
  intro g' hg' hread hne hnot
  obtain ⟨c', hc', hday', hid', -⟩ := exists_first_of_mem_countGroups ht hr hg'
  have hcontainer : c'.containerId = c.containerId := by
    rw [decide_eq_true_iff, hid'] at hread
    exact Except.ok.inj hread
  have hlt := day_lt_of_find? h hg ⟨hday, hid⟩ hc' hg' ⟨hday', hid'⟩ hcontainer hne
  have htext : toString g.day < toString g'.day := by
    rw [hday, hday', toString_ofDay, toString_ofDay, Day.toString_lt_iff]
    exact (Day.render_lt_of_plain c.isPlain c'.isPlain).2 hlt
  exact hnot (groupBefore_of_day_lt htext)

/-- The legend shows a container with the name of its first crash. -/
theorem containerName_of_mem (ht : t.rows = cs.map PlainCrash.row) (hr : r.IsPlain)
    (h : (⟨some t, now⟩ : Store).counts r = .ok records) {k : ContainerKey}
    (hk : k ∈ (Series.ofRecords records).containers) :
    k.containerName = firstName (timeline cs r) k.containerId := by
  have hentry : (Series.legendOf (Series.dated records)).find?
      (fun k' => decide (k'.containerId = k.containerId)) = some k := by
    have hnodup := List.pairwise_map.1 (Series.nodup_ids_legendOf (Series.dated records))
    apply find?_eq_some_of_pairwise hnodup hk (decide_eq_true rfl)
    intro k' _ hid _ hne
    exact hne (of_decide_eq_true hid)
  rw [Series.find?_legendOf] at hentry
  obtain ⟨p, hp, hpk⟩ := Option.map_eq_some_iff.1 hentry
  -- the record of the entry is read from the group that comes first
  have hpartner := rel_find?
    (p := fun g => decide (readColumn "container_id" g.containerId = .ok k.containerId))
    (q := fun p => decide (p.2.containerId = k.containerId)) (dated_of_counts h) fun g q hgq => by
      rw [hgq.containerId, decide_eq_decide, Except.ok.injEq]
  have hmem : k.containerId ∈ Series.ids (Series.ofRecords records).containers :=
    List.mem_map_of_mem hk
  obtain ⟨c', hc', hid'⟩ := (mem_ids_plain ht hr h _).1 hmem
  cases hfirst : (timeline cs r).find? fun c => decide (c.containerId = k.containerId) with
  | none => exact absurd (decide_eq_true hid') (List.find?_eq_none.1 hfirst c' hc')
  | some c =>
    obtain ⟨g, hg, hrow⟩ := find?_countGroups ht hr hfirst
    rw [hg, hp] at hpartner
    cases hpartner with
    | some hread =>
      have hname := hread.containerName
      rw [hrow] at hname
      have hcell : Except.ok c.name = Except.ok p.2.containerName :=
        (readColumn_cell "container_name" c.containerName).symm.trans hname
      rw [firstName, hfirst, ← hpk]
      exact (Except.ok.inj hcell).symm

theorem transcriptsOf_keys (cs : List PlainCrash) :
    (transcriptsOf cs).map (fun t => (t.containerId, t.containerName)) =
      (cs.map PlainCrash.containerId).eraseDups.map fun id => (id, firstName cs id) := by
  rw [transcriptsOf, List.map_map]
  refine List.map_congr_left fun id _ => ?_
  simp only [Function.comp_apply, List.head?_filter, firstName]

/-- The legend has the containers of the crashes. -/
theorem ids_perm (ht : t.rows = cs.map PlainCrash.row) (hr : r.IsPlain)
    (h : (⟨some t, now⟩ : Store).counts r = .ok records) :
    (Series.ids (Series.ofRecords records).containers).Perm
      ((timeline cs r).map PlainCrash.containerId).eraseDups := by
  apply (List.perm_ext_iff_of_nodup (Series.nodup_ids_legendOf _) (Gather.nodup_eraseDups _)).2
  intro id
  rw [← Series.ofRecords_containers, mem_ids_plain ht hr h, List.mem_eraseDups, List.mem_map]

theorem legend_perm (ht : t.rows = cs.map PlainCrash.row) (hr : r.IsPlain)
    (h : (⟨some t, now⟩ : Store).counts r = .ok records) :
    ((Series.ofRecords records).containers.map fun k => (k.containerId, k.containerName)).Perm
      ((transcriptsOf (timeline cs r)).map fun t => (t.containerId, t.containerName)) := by
  have hlegend : (Series.ofRecords records).containers.map
      (fun k => (k.containerId, k.containerName)) =
        (Series.ids (Series.ofRecords records).containers).map fun id =>
          (id, firstName (timeline cs r) id) := by
    rw [Series.ids, List.map_map]
    refine List.map_congr_left fun k hk => ?_
    rw [containerName_of_mem ht hr h hk]
    rfl
  rw [hlegend, transcriptsOf_keys]
  exact (ids_perm ht hr h).map _

end Timeline

/-- On a table of plain crashes a query reports what the crashes of its range say, and warns
of nothing. -/
theorem query_isReportOf {now : Int} {t : Table} {cs : List PlainCrash} {r : DayRange}
    (ht : t.rows = cs.map PlainCrash.row) (hr : r.IsPlain)
    (hfew : ∀ d id, (cs.filter fun c => decide (c.day = d ∧ c.containerId = id)).length < 2 ^ 32) :
    ((⟨some t, now⟩ : Store).source.query r).warnings = [] ∧
      IsReportOf ((⟨some t, now⟩ : Store).source.query r).report (timeline cs r) := by
  obtain ⟨records, hrecords⟩ := exists_counts_plain ht hr hfew
  rw [query_of_ok (events_plain ht hr) hrecords]
  refine ⟨rfl, ?_⟩
  have htranscripts : (Report.ofLists ((timeline cs r).map PlainCrash.event) records).transcripts =
      transcriptsOf (timeline cs r) := consolidate_event _
  exact {
    transcripts := htranscripts
    ascending := Series.ascending_dates records
    mem_dates := mem_dates_plain ht hr hrecords
    nodup_ids := Series.nodup_ids_legendOf _
    legend := by
      rw [htranscripts]
      exact legend_perm ht hr hrecords
    counts := by
      have hcounts := Series.ofRecords_counts records
      have hcells : Series.matrix (Series.ofRecords records).dates
          (Series.ofRecords records).containers
          (fun d id => (Series.firstCount? (Series.dated records) d id).getD 0) =
            Series.matrix (Series.ofRecords records).dates (Series.ofRecords records).containers
              (Series.ofRecords records).count :=
        Series.matrix_congr fun d _ id _ => (Series.count_ofRecords records d id).symm
      exact hcounts.trans hcells
    count := toNat_count_plain ht hr hrecords }

/-- A crash of a renamed container, an earlier one stored later, and one at the same time. -/
def renamedCrashes : List PlainCrash :=
  [⟨-2, "web", some "new", none,
      ⟨⟨2024, 8, 10, by decide⟩, (TimeOfDay.ofParts? 9 30 0 0).get (by decide)⟩,
      by decide, rfl⟩,
    ⟨3, "web", some "old", some "boot",
      ⟨⟨2024, 8, 9, by decide⟩, (TimeOfDay.ofParts? 23 59 59 0).get (by decide)⟩,
      by decide, rfl⟩,
    ⟨7, "db", none, some "oom",
      ⟨⟨2024, 8, 10, by decide⟩, (TimeOfDay.ofParts? 9 30 0 0).get (by decide)⟩,
      by decide, rfl⟩]

/-- The table of `renamedCrashes`. -/
def renamedTable : Table :=
  ⟨renamedCrashes.map PlainCrash.row, by simp [renamedCrashes, PlainCrash.row]⟩

/-- The days of `renamedCrashes`. -/
def renamedRange : DayRange :=
  ⟨⟨2024, 8, 9, by decide⟩, ⟨2024, 8, 10, by decide⟩, by decide⟩

theorem query_renamedTable :
    renamedTable.rows = renamedCrashes.map PlainCrash.row ∧ renamedRange.IsPlain ∧
      (∀ d id, (renamedCrashes.filter
        fun c => decide (c.day = d ∧ c.containerId = id)).length < 2 ^ 32) ∧
      ((⟨some renamedTable, noon⟩ : Store).source.query renamedRange).warnings = [] ∧
      IsReportOf ((⟨some renamedTable, noon⟩ : Store).source.query renamedRange).report
        (timeline renamedCrashes renamedRange) := by
  have hplain : renamedRange.IsPlain := by decide +kernel
  have hfew : ∀ d id, (renamedCrashes.filter
      fun c => decide (c.day = d ∧ c.containerId = id)).length < 2 ^ 32 :=
    fun d id => Nat.lt_of_le_of_lt (List.length_filter_le _ _) (by decide)
  exact ⟨rfl, hplain, hfew, query_isReportOf rfl hplain hfew⟩

end CrashReports.Store
