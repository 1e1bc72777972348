import CrashReports.Proofs.Store.Report

/-!
# The order of the legend

Containers come into the transcripts in the order of their first crashes.  They come into the
legend in the order of the groups of their first crashes, and groups are ordered by day, then by
name, then by container.  So the days of first crashes decide in both; on one day the transcripts
go by the time and the legend by the label.

On a table of plain crashes with different times the two orders are the same exactly if the first
crashes of one day have their labels in the order of their times (`legend_follows_iff`).  Where
they have not, the legend is not in the order of first crashes (`morningTable_legend`).
-/

namespace CrashReports.Store

open PlainCrash

/-- Order of labels: by name, and by container if the names are the same. -/
def Row.labelBefore (a b : Row) : Bool :=
  if a.containerName = b.containerName then a.containerId.before b.containerId
  else a.containerName.before b.containerName

/-- Order of first crashes in the legend: by day, and by label on the same day. -/
def PlainCrash.legendBefore (a b : PlainCrash) : Bool :=
  if a.day = b.day then a.row.labelBefore b.row else a.day < b.day

/-- The first crash of a container in a range. -/
def firstCrash? (cs : List PlainCrash) (r : DayRange) (id : String) : Option PlainCrash :=
  (timeline cs r).find? fun c => decide (c.containerId = id)

/-- Containers stand in the order of their first crashes. -/
def FollowsFirstCrashes (cs : List PlainCrash) (r : DayRange) (ids : List String) : Prop :=
  (ids.filterMap (firstCrash? cs r)).Pairwise fun a b => a.moment < b.moment

/-- Of two first crashes on one day the one whose label comes first is the older one. -/
def LabelsFollowTimes (cs : List PlainCrash) (r : DayRange) : Prop :=
  ∀ id id' : String, ∀ a ∈ firstCrash? cs r id, ∀ b ∈ firstCrash? cs r id',
    a.day = b.day → a.row.labelBefore b.row = true → a.moment < b.moment

/-! ### Orders of labels -/

theorem isOrder_labelBefore : IsOrder Row.labelBefore := by
  have hcontainer : IsOrder fun a b : Row => a.containerId.before b.containerId :=
    ⟨isTotalOrder_textCell.asymm, fun b => isTotalOrder_textCell.between b.containerId⟩
  exact hcontainer.lex isTotalOrder_textCell Row.containerName

theorem isTotalOrder_day : IsTotalOrder fun a b : Day => decide (a < b) := by
  apply isTotalOrder_lt
  · intro a b
    rw [Day.lt_def, Day.lt_def]
    omega
  · intro a b c
    rw [Day.lt_def, Day.lt_def, Day.lt_def]
    omega
  · intro a b hne
    rw [Day.lt_def, Day.lt_def]
    have := mt Day.rank_inj.1 hne
    omega

theorem isOrder_legendBefore : IsOrder PlainCrash.legendBefore := by
  have hlabel : IsOrder fun a b : PlainCrash => a.row.labelBefore b.row :=
    ⟨isOrder_labelBefore.asymm, fun b => isOrder_labelBefore.between b.row⟩
  exact hlabel.lex isTotalOrder_day PlainCrash.day

theorem containerId_eq_of_level {a b : PlainCrash} (hab : ¬ a.legendBefore b = true)
    (hba : ¬ b.legendBefore a = true) : a.containerId = b.containerId := by
  obtain ⟨-, hab, hba⟩ := isTotalOrder_day.level_of_lex
    (fun a b : PlainCrash => a.row.labelBefore b.row) PlainCrash.day hab hba
  obtain ⟨-, hab, hba⟩ := isTotalOrder_textCell.level_of_lex
    (fun a b : Row => a.containerId.before b.containerId) Row.containerName hab hba
  exact TextCell.text.inj (isTotalOrder_textCell.eq_of_level hab hba)

/-- Groups of plain crashes are ordered as their first crashes are. -/
theorem groupBefore_eq_legendBefore {a b : PlainCrash} {g g' : Group}
    (ha : g.day = .ofDay a.day ∧ g.containerId = a.row.containerId ∧ g.first = a.row)
    (hb : g'.day = .ofDay b.day ∧ g'.containerId = b.row.containerId ∧ g'.first = b.row) :
    groupBefore g g' = a.legendBefore b := by
  obtain ⟨hday, hid, hfirst⟩ := ha
  obtain ⟨hday', hid', hfirst'⟩ := hb
  have hsame : toString g.day = toString g'.day ↔ a.day = b.day := by
    rw [hday, hday', Ymd.toString_inj, Ymd.ofDay_inj]
  have hless : toString g.day < toString g'.day ↔ a.day < b.day := by
    rw [hday, hday', toString_ofDay, toString_ofDay, Day.toString_lt_iff]
    exact Day.render_lt_of_plain a.isPlain b.isPlain
  unfold groupBefore legendBefore Row.labelBefore
  dsimp only
  rw [hid, hid', hfirst, hfirst']
  simp only [hsame, hless]

/-! ### First crashes -/

section Report

variable {now : Int} {t : Table} {cs : List PlainCrash} {r : DayRange} {id : String}
  {c : PlainCrash}

theorem containerId_of_firstCrash? (h : firstCrash? cs r id = some c) : c.containerId = id := by
  simpa using List.find?_some h

theorem mem_of_firstCrash? (h : firstCrash? cs r id = some c) : c ∈ timeline cs r :=
  List.mem_of_find?_eq_some h

theorem exists_firstCrash? (hc : c ∈ timeline cs r) :
    ∃ a, firstCrash? cs r c.containerId = some a :=
  Option.isSome_iff_exists.1 (List.find?_isSome.2 ⟨c, hc, decide_eq_true rfl⟩)

theorem stamp_eq_of_moment_eq {a b : PlainCrash} (h : a.moment = b.moment) : a.stamp = b.stamp := by
  apply List.le_antisymm
  · rw [← List.not_lt, stamp_lt_iff]
    omega
  · rw [← List.not_lt, stamp_lt_iff]
    omega

theorem moment_inj (hdiff : (cs.map PlainCrash.stamp).Nodup) {a b : PlainCrash}
    (ha : a ∈ timeline cs r) (hb : b ∈ timeline cs r) (h : a.moment = b.moment) : a = b :=
  List.inj_on_of_nodup_map hdiff (mem_timeline.1 ha).1 (mem_timeline.1 hb).1
    (stamp_eq_of_moment_eq h)

/-- There are no more different times on a day than it has seconds. -/
theorem length_le_of_nodup_stamps (hdiff : (cs.map PlainCrash.stamp).Nodup) (d : Day)
    (id : String) :
    (cs.filter fun c => decide (c.day = d ∧ c.containerId = id)).length ≤ 86400 := by
  have hown : (cs.filter fun c => decide (c.day = d ∧ c.containerId = id)).Pairwise
      fun a b => a.stamp ≠ b.stamp := (List.pairwise_map.1 hdiff).filter _
  have hseconds : ((cs.filter fun c => decide (c.day = d ∧ c.containerId = id)).map
      fun c => c.time.time.seconds).Nodup := by
    refine List.pairwise_map.2 (hown.imp_of_mem fun {a b} ha hb hne heq => hne ?_)
    have haday : a.day = d := (of_decide_eq_true (List.mem_filter.1 ha).2).1
    have hbday : b.day = d := (of_decide_eq_true (List.mem_filter.1 hb).2).1
    apply stamp_eq_of_moment_eq
    unfold PlainCrash.moment
    rw [heq, show a.time.day = b.time.day from haday.trans hbday.symm]
  have hrange : ((cs.filter fun c => decide (c.day = d ∧ c.containerId = id)).map
      fun c => c.time.time.seconds) ⊆ List.range 86400 := by
    intro s hs
    obtain ⟨c, -, rfl⟩ := List.mem_map.1 hs
    exact List.mem_range.2 c.seconds_lt
  simpa using (hseconds.subperm hrange).length_le

/-- The group that the legend takes a container from is that of its first crash. -/
theorem exists_group_of_firstCrash? (ht : t.rows = cs.map PlainCrash.row) (hr : r.IsPlain)
    (h : firstCrash? cs r id = some c) :
    ∃ g, (countGroups now t r).find?
        (fun g => decide (readColumn "container_id" g.containerId = .ok id)) = some g ∧
      g.day = .ofDay c.day ∧ g.containerId = c.row.containerId ∧ g.first = c.row := by
  obtain ⟨g, hg, hfirst⟩ := find?_countGroups ht hr h
  obtain ⟨c', -, hday, hid, hfirst', -⟩ :=
    exists_first_of_mem_countGroups ht hr (List.mem_of_find?_eq_some hg)
  have hrow : c'.row = c.row := hfirst'.symm.trans hfirst
  refine ⟨g, hg, ?_, ?_, hfirst⟩
  · have hdays := c'.day?_row now
    rw [hrow, c.day?_row now] at hdays
    rw [hday, Option.some.inj hdays]
  · rw [hid, ← hrow]
    rfl

/-- In the legend no container comes after one whose first crash it precedes. -/
theorem pairwise_ids_legend (ht : t.rows = cs.map PlainCrash.row) (hr : r.IsPlain)
    {records : List CountRecord} (h : (⟨some t, now⟩ : Store).counts r = .ok records) :
    (Series.ids (Series.ofRecords records).containers).Pairwise fun i j =>
      ∀ a ∈ firstCrash? cs r i, ∀ b ∈ firstCrash? cs r j, ¬ b.legendBefore a = true := by
  have hkeys : (countGroups now t r).map (fun g => readColumn "container_id" g.containerId) =
      ((Series.dated records).map fun p => p.2.containerId).map Except.ok := by
    rw [List.map_map, ← List.forall₂_eq_eq_eq, List.forall₂_map_left_iff,
      List.forall₂_map_right_iff]
    exact (dated_of_counts h).imp fun _ _ hread => hread.containerId
  have hids : (Series.ids (Series.ofRecords records).containers).map Except.ok =
      ((countGroups now t r).map fun g => readColumn "container_id" g.containerId).eraseDups := by
    rw [hkeys, Gather.eraseDups_map fun _ _ => Except.ok.inj, Series.ofRecords_containers,
      Series.ids_legendOf]
  have hsorted : (countGroups now t r).Pairwise fun g g' => ¬ groupBefore g' g = true :=
    arrange_sorted isOrder_groupBefore _
  have hpairwise := Gather.pairwise_eraseDups_map
    (f := fun g : Group => readColumn "container_id" g.containerId) hsorted
  rw [← hids, List.pairwise_map] at hpairwise
  refine hpairwise.imp fun {i j} hij a ha b hb => ?_
  obtain ⟨g, hg, hgroup⟩ := exists_group_of_firstCrash? ht hr ha
  obtain ⟨g', hg', hgroup'⟩ := exists_group_of_firstCrash? ht hr hb
  rw [← groupBefore_eq_legendBefore hgroup' hgroup]
  exact hij g hg g' hg'

/-- Containers come into the transcripts in the order of their first crashes. -/
theorem followsFirstCrashes_timeline (hdiff : (cs.map PlainCrash.stamp).Nodup) :
    FollowsFirstCrashes cs r ((timeline cs r).map PlainCrash.containerId).eraseDups := by
  have hnodup : ((timeline cs r).map PlainCrash.containerId).eraseDups.Pairwise (· ≠ ·) :=
    Gather.nodup_eraseDups _
  unfold FollowsFirstCrashes
  rw [List.pairwise_filterMap]
  refine (hnodup.and (Gather.pairwise_eraseDups_map (timeline_pairwise cs r))).imp ?_
  rintro i j ⟨hne, hij⟩ a ha b hb
  have hmoment : a.moment ≠ b.moment := by
    intro heq
    have hsame := moment_inj hdiff (mem_of_firstCrash? ha) (mem_of_firstCrash? hb) heq
    rw [← containerId_of_firstCrash? ha, ← containerId_of_firstCrash? hb, hsame] at hne
    exact hne rfl
  have hle := hij a ha b hb
  omega

/-- Containers in the order of the legend are in the order of their first crashes exactly if the
labels follow the times. -/
theorem followsFirstCrashes_iff {ids : List String} (hnodup : ids.Nodup)
    (hall : ∀ id, ∀ c ∈ firstCrash? cs r id, id ∈ ids)
    (hlegend : ids.Pairwise fun i j =>
      ∀ a ∈ firstCrash? cs r i, ∀ b ∈ firstCrash? cs r j, ¬ b.legendBefore a = true) :
    FollowsFirstCrashes cs r ids ↔ LabelsFollowTimes cs r := by
  have hsorted : (ids.filterMap (firstCrash? cs r)).Pairwise
      fun a b => ¬ b.legendBefore a = true := List.pairwise_filterMap.2 hlegend
  have hdistinct : (ids.filterMap (firstCrash? cs r)).Pairwise
      fun a b => a.containerId ≠ b.containerId := by
    refine List.pairwise_filterMap.2 (hnodup.imp fun {i j} hne a ha b hb => ?_)
    rwa [containerId_of_firstCrash? ha, containerId_of_firstCrash? hb]
  -- the order of the legend says nothing about two crashes of one container
  have hiff : FollowsFirstCrashes cs r ids ↔ (ids.filterMap (firstCrash? cs r)).Pairwise
      fun a b => a.containerId = b.containerId ∨ a.moment < b.moment :=
    ⟨fun h => h.imp .inr, fun h => (hdistinct.and h).imp fun h => h.2.resolve_left h.1⟩
  rw [hiff, pairwise_iff_of_sorted isOrder_legendBefore
    (fun a b hab hba => .inl (containerId_eq_of_level hab hba)) hsorted]
  constructor
  · intro h id id' a ha b hb hday hlabel
    have hbefore : a.legendBefore b = true := by
      rw [legendBefore, if_pos hday]
      exact hlabel
    refine (h a (List.mem_filterMap.2 ⟨id, hall id a ha, ha⟩) b
      (List.mem_filterMap.2 ⟨id', hall id' b hb, hb⟩) hbefore).resolve_left fun hsame => ?_
    rw [containerId_of_firstCrash? ha, containerId_of_firstCrash? hb] at hsame
    rw [hsame] at ha
    obtain rfl := Option.some.inj (ha.symm.trans hb)
    exact isOrder_labelBefore.asymm hlabel hlabel
  · intro h a ha b hb hbefore
    obtain ⟨id, -, ha⟩ := List.mem_filterMap.1 ha
    obtain ⟨id', -, hb⟩ := List.mem_filterMap.1 hb
    right
    by_cases hday : a.day = b.day
    · rw [legendBefore, if_pos hday] at hbefore
      exact h id id' a ha b hb hday hbefore
    · rw [legendBefore, if_neg hday] at hbefore
      have hlt : a.day < b.day := of_decide_eq_true hbefore
      by_contra hle
      exact absurd hlt (Int.not_lt.2 (day_le_of_moment_le (Int.not_lt.1 hle)))

/-- Two lists of the same containers that are in the order of first crashes are the same. -/
theorem eq_of_followsFirstCrashes {ids ids' : List String} (hperm : ids.Perm ids')
    (hmem : ∀ id ∈ ids, ∃ c, firstCrash? cs r id = some c) (h : FollowsFirstCrashes cs r ids)
    (h' : FollowsFirstCrashes cs r ids') : ids = ids' := by
  unfold FollowsFirstCrashes at h h'
  rw [List.pairwise_filterMap] at h h'
  refine hperm.eq_of_pairwise (fun i j hi hj hij hji => ?_) h h'
  obtain ⟨a, ha⟩ := hmem i hi
  obtain ⟨b, hb⟩ := hmem j (hperm.mem_iff.2 hj)
  exact absurd (hij a ha b hb) (Int.not_lt.2 (Int.le_of_lt (hji b hb a ha)))

end Report

/-- On a table of plain crashes with different times the transcripts are in the order of first
crashes.  The legend is so exactly if the first crashes of one day have their labels in the
order of their times, and only then it has the containers in the order of the transcripts. -/
theorem legend_follows_iff {now : Int} {t : Table} {cs : List PlainCrash} {r : DayRange}
    (ht : t.rows = cs.map PlainCrash.row) (hr : r.IsPlain)
    (hdiff : (cs.map PlainCrash.stamp).Nodup) :
    FollowsFirstCrashes cs r
        (((⟨some t, now⟩ : Store).source.query r).report.transcripts.map Transcript.containerId) ∧
      (FollowsFirstCrashes cs r
          (Series.ids ((⟨some t, now⟩ : Store).source.query r).report.series.containers) ↔
        LabelsFollowTimes cs r) ∧
      (Series.ids ((⟨some t, now⟩ : Store).source.query r).report.series.containers =
          ((⟨some t, now⟩ : Store).source.query r).report.transcripts.map Transcript.containerId ↔
        LabelsFollowTimes cs r) := by
  have hfew : ∀ d id,
      (cs.filter fun c => decide (c.day = d ∧ c.containerId = id)).length < 2 ^ 32 :=
    fun d id => Nat.lt_of_le_of_lt (length_le_of_nodup_stamps hdiff d id) (by decide)
  obtain ⟨records, hrecords⟩ := exists_counts_plain ht hr hfew
  have htranscripts : (Transcript.consolidate ((timeline cs r).map PlainCrash.event)).map
      Transcript.containerId = ((timeline cs r).map PlainCrash.containerId).eraseDups := by
    rw [consolidate_event, transcriptsOf, List.map_map]
    exact List.map_id _
  rw [query_of_ok (events_plain ht hr) hrecords]
  show FollowsFirstCrashes cs r ((Transcript.consolidate _).map _) ∧
    (FollowsFirstCrashes cs r (Series.ids (Series.ofRecords records).containers) ↔ _) ∧
      (Series.ids (Series.ofRecords records).containers = (Transcript.consolidate _).map _ ↔ _)
  rw [htranscripts]
  have hmem := mem_ids_plain ht hr hrecords
  have hfollows := followsFirstCrashes_iff (Series.nodup_ids_legendOf _)
    (fun id c hc => (hmem id).2 ⟨c, mem_of_firstCrash? hc, containerId_of_firstCrash? hc⟩)
    (pairwise_ids_legend ht hr hrecords)
  have htimeline := followsFirstCrashes_timeline (r := r) hdiff
  refine ⟨htimeline, hfollows, ⟨fun heq => hfollows.1 (heq ▸ htimeline), fun hlabels => ?_⟩⟩
  refine eq_of_followsFirstCrashes (ids_perm ht hr hrecords) (fun id hid => ?_)
    (hfollows.2 hlabels) htimeline
  obtain ⟨c, hc, rfl⟩ := (hmem id).1 hid
  exact exists_firstCrash? hc

/-- Two containers that crash on one morning, the one whose name comes last before the other. -/
def morningCrashes : List PlainCrash :=
  [⟨1, "zeta", some "zeta", some "x",
      ⟨⟨2024, 9, 14, by decide⟩, (TimeOfDay.ofParts? 6 20 0 0).get (by decide)⟩,
      by decide, rfl⟩,
    ⟨2, "alpha", some "alpha", some "y",
      ⟨⟨2024, 9, 14, by decide⟩, (TimeOfDay.ofParts? 9 40 0 0).get (by decide)⟩,
      by decide, rfl⟩]

/-- The table of `morningCrashes`. -/
def morningTable : Table :=
  ⟨morningCrashes.map PlainCrash.row, by simp [morningCrashes, PlainCrash.row]⟩

/-- The day of `morningCrashes`. -/
def morningRange : DayRange :=
  ⟨⟨2024, 9, 14, by decide⟩, ⟨2024, 9, 14, by decide⟩, by decide⟩

theorem legend_follows_iff_morningTable :
    morningTable.rows = morningCrashes.map PlainCrash.row ∧ morningRange.IsPlain ∧
      (morningCrashes.map PlainCrash.stamp).Nodup ∧
      FollowsFirstCrashes morningCrashes morningRange
        (((⟨some morningTable, noon⟩ : Store).source.query morningRange).report.transcripts.map
          Transcript.containerId) ∧
      (FollowsFirstCrashes morningCrashes morningRange
          (Series.ids ((⟨some morningTable, noon⟩ : Store).source.query
            morningRange).report.series.containers) ↔
        LabelsFollowTimes morningCrashes morningRange) ∧
      (Series.ids
          ((⟨some morningTable, noon⟩ : Store).source.query morningRange).report.series.containers =
          ((⟨some morningTable, noon⟩ : Store).source.query morningRange).report.transcripts.map
            Transcript.containerId ↔
        LabelsFollowTimes morningCrashes morningRange) := by
  have hplain : morningRange.IsPlain := by decide +kernel
  have hdiff : (morningCrashes.map PlainCrash.stamp).Nodup := by decide +kernel
  exact ⟨rfl, hplain, hdiff, legend_follows_iff rfl hplain hdiff⟩

/-- The legend of that morning is in the order of names, and not in the order in which its
containers first crashed. -/
theorem morningTable_legend :
    morningTable.rows = morningCrashes.map PlainCrash.row ∧ morningRange.IsPlain ∧
      (morningCrashes.map PlainCrash.stamp).Nodup ∧
      Series.ids ((⟨some morningTable, noon⟩ : Store).source.query
        morningRange).report.series.containers = ["alpha", "zeta"] ∧
      ((⟨some morningTable, noon⟩ : Store).source.query morningRange).report.transcripts.map
        Transcript.containerId = ["zeta", "alpha"] ∧
      ¬ FollowsFirstCrashes morningCrashes morningRange ["alpha", "zeta"] := by
  refine ⟨rfl, by decide +kernel, by decide +kernel, by decide +kernel, by decide +kernel, ?_⟩
  have htimeline : timeline morningCrashes morningRange = morningCrashes :=
    List.mergeSort_of_pairwise (by decide +kernel)
  have hfirst : firstCrash? morningCrashes morningRange = fun id =>
      morningCrashes.find? fun c => decide (c.containerId = id) := by
    funext id
    rw [firstCrash?, htimeline]
  rw [FollowsFirstCrashes, hfirst]
  decide +kernel

end CrashReports.Store
