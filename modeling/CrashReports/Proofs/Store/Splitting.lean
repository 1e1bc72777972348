import CrashReports.Proofs.Joining
import CrashReports.Proofs.Store.Fetch

/-!
# A range and its halves

A range can be cut after one of its days.  What is fetched for the whole range is then what is
fetched for its halves: the counts of the first half before those of the second, and the events
of both in turns, as their order follows the text of their times and not their days.

Nothing is lost between the halves as long as no text of a day on which a row is found lies
between the texts of a day and the day after.  For the years from 0 to 9999 there is one such
text, that of the stray day 0300-02-29 (`isBetween_iff`), and the halves that meet there are the
only ones that can miss a row of the whole range (`splitsInto_iff`).
-/

namespace CrashReports.Store

/-- The halves of a range, up to a day and from the day after. -/
structure IsSplitAfter (mid : Day) (whole first second : DayRange) : Prop where
  start_first : first.start = whole.start
  stop_first : first.stop = mid
  start_second : mid.next? = some second.start
  stop_second : second.stop = whole.stop

/-- The fetches for a range come to the same as those for two others. -/
structure SplitsInto (s : Store) (whole first second : DayRange) : Prop where
  counts : Joins (fun xs ys zs => zs = xs ++ ys)
    (s.counts first) (s.counts second) (s.counts whole)
  events : Joins (fun xs ys zs => xs.Sublist zs ∧ ys.Sublist zs ∧ Interleaved xs ys zs)
    (s.events first) (s.events second) (s.events whole)

/-- The day before the stray one. -/
def beforeStray : Day := ⟨300, 2, 28, by decide⟩

/-- A row of the whole range is found on the stray day, which is in neither half, and one of
the fetches can read both halves. -/
def MissesStray (now : Int) (t : Table) (mid : Day) (first second : DayRange) : Prop :=
  mid = beforeStray ∧ (∃ row ∈ t.rows, row.crashedOn.day? now = some .stray) ∧
    (BothSucceed (counts ⟨some t, now⟩ first) (counts ⟨some t, now⟩ second) ∨
      BothSucceed (events ⟨some t, now⟩ first) (events ⟨some t, now⟩ second))

/-! ### Between a day and the day after -/

/-- The text of a day lies between those of two others. -/
def IsBetween (mid next : Day) (y : Ymd) : Prop :=
  toString mid < toString y ∧ toString y < toString next

/-- A row of a table is found between two days. -/
def HasRowBetween (now : Int) (t : Table) (mid next : Day) : Prop :=
  ∃ row ∈ t.rows, ∃ y, row.crashedOn.day? now = some y ∧ IsBetween mid next y

theorem Ymd.toString_lt_iff {y z : Ymd} : toString y < toString z ↔ y.render < z.render := by
  rw [String.lt_iff]
  simp [ToString.toString]

section Between

variable {mid next : Day}

theorem not_isBetween_ofDay (hmid : mid.IsPlain) (hnext : next.IsPlain) (h : mid.next? = some next)
    {d : Day} (hd : d.IsPlain) : ¬ IsBetween mid next (.ofDay d) := by
  rintro ⟨hlow, hhigh⟩
  rw [toString_ofDay, Day.toString_lt_iff, Day.render_lt_of_plain hmid hd] at hlow
  rw [toString_ofDay, Day.toString_lt_iff, Day.render_lt_of_plain hd hnext,
    Day.lt_next_iff h] at hhigh
  exact Day.not_lt.2 hhigh hlow

theorem isBetween_stray_iff (hmid : mid.IsPlain) (hnext : next.IsPlain)
    (h : mid.next? = some next) : IsBetween mid next .stray ↔ mid = beforeStray := by
  have hsmall : ∀ d : Day, d.month < 100 ∧ d.day < 100 := by
    intro d
    have hd := d.monthDay_bounds
    omega
  have hlow : toString mid < toString Ymd.stray ↔ mid ≤ beforeStray := by
    rw [← toString_ofDay, Ymd.toString_lt_iff, ← Day.not_lt, Day.lt_iff_lex]
    refine (renderYmd_lt_of_plain hmid (by decide) (hsmall mid).1 (by decide) (hsmall mid).2
      (by decide)).trans ?_
    simp only [Ymd.stray, beforeStray]
    omega
  have hhigh : toString Ymd.stray < toString next ↔ beforeStray < next := by
    rw [← toString_ofDay, Ymd.toString_lt_iff, Day.lt_iff_lex]
    refine (renderYmd_lt_of_plain (by decide) hnext (by decide) (hsmall next).1 (by decide)
      (hsmall next).2).trans ?_
    -- `next` is not the stray day itself
    have hne := Ymd.stray_ne_ofDay next
    simp only [Ymd.stray, Ymd.ofDay, beforeStray, ne_eq, Ymd.mk.injEq] at hne ⊢
    omega
  rw [IsBetween, hlow, hhigh, Day.lt_next_iff h]
  constructor
  · rintro ⟨hle, hge⟩
    exact Day.le_antisymm hle hge
  · rintro rfl
    exact ⟨Int.le_refl _, Int.le_refl _⟩

/-- Of the days on which a row is found the stray day is the only one that lies between. -/
theorem isBetween_iff (hmid : mid.IsPlain) (hnext : next.IsPlain) (h : mid.next? = some next)
    {y : Ymd} (hy : IsFound y) : IsBetween mid next y ↔ mid = beforeStray ∧ y = .stray := by
  constructor
  · intro hbetween
    have hyear : 0 ≤ y.year := by
      by_contra hneg
      have hlt : y.render < (Ymd.ofDay mid).render :=
        renderYmd_lt_of_neg_of_plain (Int.not_le.1 hneg) hmid
      have hlow := hbetween.1
      rw [← toString_ofDay, Ymd.toString_lt_iff] at hlow
      exact List.lt_asymm hlow hlt
    obtain ⟨d, rfl⟩ | rfl := hy.ofDay_or_stray hyear
    · exact absurd hbetween (not_isBetween_ofDay hmid hnext h ⟨hyear, hy.year_bounds.2⟩)
    · exact ⟨(isBetween_stray_iff hmid hnext h).1 hbetween, rfl⟩
  · rintro ⟨hstray, rfl⟩
    exact (isBetween_stray_iff hmid hnext h).2 hstray

theorem hasRowBetween_iff (now : Int) (t : Table) (hmid : mid.IsPlain) (hnext : next.IsPlain)
    (h : mid.next? = some next) :
    HasRowBetween now t mid next ↔
      mid = beforeStray ∧ ∃ row ∈ t.rows, row.crashedOn.day? now = some .stray := by
  constructor
  · rintro ⟨row, hrow, y, hday, hbetween⟩
    obtain ⟨heq, rfl⟩ := (isBetween_iff hmid hnext h (isFound_of_day? hday)).1 hbetween
    exact ⟨heq, row, hrow, hday⟩
  · rintro ⟨heq, row, hrow, hday⟩
    exact ⟨row, hrow, .stray, hday, (isBetween_stray_iff hmid hnext h).2 heq⟩

end Between

/-! ### Fetches for a narrower range -/

section Narrow

variable {now : Int} {t : Table} {whole half : DayRange} {p : Ymd → Bool}

/-- Among the days of a table a range selects those of another one that pass a test. -/
def Narrows (now : Int) (t : Table) (whole half : DayRange) (p : Ymd → Bool) : Prop :=
  ∀ row ∈ t.rows, ∀ y, row.crashedOn.day? now = some y →
    (WithinText half y ↔ WithinText whole y ∧ p y = true)

theorem Narrows.selected (h : Narrows now t whole half p) :
    selected now half t.rows = (selected now whole t.rows).filter fun x => p x.1 := by
  unfold Store.selected
  rw [List.filter_filterMap]
  refine List.filterMap_congr fun row hrow => ?_
  have hday : selectedDay? now half row = (selectedDay? now whole row).filter p := by
    ext y
    rw [Option.filter_eq_some_iff, selectedDay?_eq_some_iff, selectedDay?_eq_some_iff, and_assoc]
    exact and_congr_right fun hy => h row hrow y hy
  rw [hday]
  cases selectedDay? now whole row with
  | none => rfl
  | some y => cases hp : p y <;> simp [Option.filter, hp]

theorem Narrows.eventRows (h : Narrows now t whole half p) :
    eventRows now t half =
      (eventRows now t whole).filter fun row => (row.crashedOn.day? now).any p := by
  unfold Store.eventRows
  rw [filter_arrange isOrder_eventBefore, h.selected, List.filter_map]
  congr 2
  refine List.filter_congr fun x hx => ?_
  obtain ⟨-, hday, -⟩ := mem_selected.1 hx
  simp [hday]

theorem Narrows.countGroups (h : Narrows now t whole half p) :
    countGroups now t half = (countGroups now t whole).filter fun g => p g.day := by
  unfold Store.countGroups
  rw [filter_arrange isOrder_groupBefore, h.selected, groupsOf_eq_collect, groupsOf_eq_collect]
  exact congrArg _ (groupGather.filter_collect (fun k => p k.1) _).symm

end Narrow

variable {now : Int} {t : Table} {r : DayRange}

theorem countGroups_sorted :
    (countGroups now t r).Pairwise fun a b => toString a.day ≤ toString b.day := by
  refine (arrange_sorted isOrder_groupBefore _).imp ?_
  intro a b hab
  by_contra hlt
  exact hab (groupBefore_of_day_lt (Std.not_le.1 hlt))

theorem not_exists_counts_of_stray {row : Row} (hrow : row ∈ t.rows)
    (hday : row.crashedOn.day? now = some .stray) (hwithin : WithinText r .stray) :
    ¬ ∃ records, (⟨some t, now⟩ : Store).counts r = .ok records := by
  rintro ⟨records, hrecords⟩
  obtain ⟨g, hg, hstray, -⟩ := (exists_mem_countGroups now t r).2 ⟨hwithin, row, hrow, hday, rfl⟩
  rw [counts_eq] at hrecords
  obtain ⟨c, hc⟩ := exists_of_mapM_eq_ok hrecords hg
  obtain ⟨-, -, ⟨d, hd, -⟩, -⟩ := readGroup_eq_ok_iff.1 hc
  exact Ymd.stray_ne_ofDay d (hstray.symm.trans hd)

/-! ### Both halves -/

/-- Whether the first half goes up to a day. -/
def isUpTo (mid : Day) (y : Ymd) : Bool :=
  decide (toString y ≤ toString mid)

namespace IsSplitAfter

variable {mid : Day} {r first second : DayRange}
  (h : IsSplitAfter mid r first second) (hr : r.IsPlain)

include h

theorem mid_lt : mid < second.start :=
  (Day.lt_next_iff h.start_second mid).2 (Int.le_refl _)

theorem start_le : r.start ≤ mid :=
  h.start_first ▸ h.stop_first ▸ first.start_le_stop

theorem le_stop : second.start ≤ r.stop :=
  h.stop_second ▸ second.start_le_stop

include hr

theorem plain : mid.IsPlain ∧ second.start.IsPlain := by
  have hlow := h.start_le
  have hlt := h.mid_lt
  have hhigh := h.le_stop
  rw [Day.le_def] at hlow hhigh
  rw [Day.lt_def] at hlt
  constructor
  · exact hr.of_contains ⟨h.start_le, by rw [Day.le_def]; omega⟩
  · exact hr.of_contains ⟨by rw [Day.le_def]; omega, h.le_stop⟩

/-- The texts of the ends of the halves stand in the order of their days. -/
theorem texts :
    toString r.start ≤ toString mid ∧ toString mid < toString second.start ∧
      toString second.start ≤ toString r.stop := by
  obtain ⟨hmid, hnext⟩ := h.plain hr
  rw [Day.toString_le_iff_of_plain hr.1 hmid, Day.toString_lt_iff,
    Day.render_lt_of_plain hmid hnext, Day.toString_le_iff_of_plain hnext hr.2]
  exact ⟨h.start_le, h.mid_lt, h.le_stop⟩

theorem withinText_first (y : Ymd) :
    WithinText first y ↔ WithinText r y ∧ toString y ≤ toString mid := by
  obtain ⟨-, hlt, hle⟩ := h.texts hr
  unfold WithinText DayRange.bounds
  rw [h.start_first, h.stop_first]
  constructor
  · rintro ⟨hlow, hhigh⟩
    have hstop : toString y ≤ toString r.stop :=
      String.le_trans hhigh (String.le_trans (Std.le_of_lt hlt) hle)
    exact ⟨⟨hlow, hstop⟩, hhigh⟩
  · rintro ⟨⟨hlow, -⟩, hhigh⟩
    exact ⟨hlow, hhigh⟩

theorem withinText_second (y : Ymd) :
    WithinText second y ↔ WithinText r y ∧ toString second.start ≤ toString y := by
  obtain ⟨hle, hlt, -⟩ := h.texts hr
  unfold WithinText DayRange.bounds
  rw [h.stop_second]
  constructor
  · rintro ⟨hlow, hhigh⟩
    have hstart : toString r.start ≤ toString y :=
      String.le_trans hle (String.le_trans (Std.le_of_lt hlt) hlow)
    exact ⟨⟨hstart, hhigh⟩, hlow⟩
  · rintro ⟨⟨-, hhigh⟩, hlow⟩
    exact ⟨hlow, hhigh⟩

theorem withinText_of_isBetween {y : Ymd} (hy : IsBetween mid second.start y) :
    WithinText r y := by
  obtain ⟨hlow, -, hhigh⟩ := h.texts hr
  exact ⟨String.le_trans hlow (Std.le_of_lt hy.1), String.le_trans (Std.le_of_lt hy.2) hhigh⟩

theorem narrows_first : Narrows now t r first (isUpTo mid) := by
  intro row _ y _
  rw [h.withinText_first hr, isUpTo, decide_eq_true_iff]

/-- The second half takes what the first one leaves, if no row lies between them. -/
theorem narrows_second (hnone : ¬ HasRowBetween now t mid second.start) :
    Narrows now t r second fun y => !isUpTo mid y := by
  intro row hrow y hday
  obtain ⟨-, hlt, -⟩ := h.texts hr
  rw [h.withinText_second hr]
  refine and_congr_right fun _ => ?_
  show toString second.start ≤ toString y ↔ (!isUpTo mid y) = true
  rw [Bool.not_eq_true', isUpTo, decide_eq_false_iff_not]
  constructor
  · intro hle hge
    exact Std.not_lt.2 (String.le_trans hle hge) hlt
  · intro hgt
    by_contra hnext
    exact hnone ⟨row, hrow, y, hday, Std.not_le.1 hgt, Std.not_le.1 hnext⟩

/-- Without a row between its halves a range splits into them. -/
theorem splitsInto_of_none_between (hnone : ¬ HasRowBetween now t mid second.start) :
    SplitsInto ⟨some t, now⟩ r first second where
  counts := by
    rw [counts_eq, counts_eq, counts_eq, (h.narrows_first hr).countGroups,
      (h.narrows_second hr hnone).countGroups]
    -- groups are ordered by the text of their day, so those of the first half come first
    have hcut : (countGroups now t r).filter (fun g => isUpTo mid g.day) ++
        (countGroups now t r).filter (fun g => !isUpTo mid g.day) = countGroups now t r := by
      apply filter_append_filter_not (countGroups_sorted.imp ?_)
      intro a b hab hb
      exact decide_eq_true (String.le_trans hab (of_decide_eq_true hb))
    have hjoins := joins_append readGroup ((countGroups now t r).filter fun g => isUpTo mid g.day)
      ((countGroups now t r).filter fun g => !isUpTo mid g.day)
    rwa [hcut] at hjoins
  events := by
    rw [events_eq, events_eq, events_eq, (h.narrows_first hr).eventRows,
      (h.narrows_second hr hnone).eventRows]
    have hcomplement : (eventRows now t r).filter
        (fun row => (row.crashedOn.day? now).any fun y => !isUpTo mid y) =
          (eventRows now t r).filter fun row => !(row.crashedOn.day? now).any (isUpTo mid) := by
      refine List.filter_congr fun row hrow => ?_
      obtain ⟨-, y, hy, -⟩ := (mem_eventRows now t r).1 hrow
      simp [hy]
    rw [hcomplement]
    exact (Interleaved.filter _ _).joins readEvent

/-! ### A row between the halves -/

/-- The halves have fewer events than the whole range if a row lies between them. -/
theorem length_eventRows_lt (hrow : HasRowBetween now t mid second.start) :
    (eventRows now t first).length + (eventRows now t second).length <
      (eventRows now t r).length := by
  obtain ⟨row, hrow, y, hday, hbetween⟩ := hrow
  obtain ⟨-, hlt, -⟩ := h.texts hr
  have hsecond : Narrows now t r second fun y => decide (toString second.start ≤ toString y) := by
    intro row _ y _
    rw [h.withinText_second hr, decide_eq_true_iff]
  have hmem : row ∈ eventRows now t r :=
    (mem_eventRows_of_day now t r hrow hday).2 (h.withinText_of_isBetween hr hbetween)
  rw [(h.narrows_first hr).eventRows, hsecond.eventRows]
  apply length_filter_add_lt _ hmem
  · simpa [hday, isUpTo] using Std.not_le.2 hbetween.1
  · simpa [hday] using Std.not_le.2 hbetween.2
  -- a day in both halves would lie after itself
  · intro x hx
    obtain ⟨-, z, hz, -⟩ := (mem_eventRows now t r).1 hx
    simp only [hz, Option.any_some, isUpTo, decide_eq_true_iff]
    intro hle hge
    exact Std.not_lt.2 (String.le_trans hge hle) hlt

theorem not_bothSucceed_events (hrow : HasRowBetween now t mid second.start)
    (hsplits : SplitsInto ⟨some t, now⟩ r first second) :
    ¬ BothSucceed (events ⟨some t, now⟩ first) (events ⟨some t, now⟩ second) := by
  intro hread
  obtain ⟨zs, hzs⟩ := hsplits.events.ok_iff.2 hread
  obtain ⟨⟨xs, hxs⟩, ys, hys⟩ := hread
  obtain ⟨-, -, hturns⟩ := hsplits.events.items hxs hys hzs
  have hlt := h.length_eventRows_lt hr hrow
  have hlen := hturns.length_eq
  rw [(readEvent_of_events hxs).length_eq, (readEvent_of_events hys).length_eq,
    (readEvent_of_events hzs).length_eq] at hlt
  omega

/-- What can be read of the whole range can be read of its halves. -/
theorem bothSucceed_of_events {es : List Event} (hes : events ⟨some t, now⟩ r = .ok es) :
    BothSucceed (events ⟨some t, now⟩ first) (events ⟨some t, now⟩ second) := by
  have hread : ∀ {half : DayRange}, (∀ y, WithinText half y → WithinText r y) →
      ∃ es, events ⟨some t, now⟩ half = .ok es := by
    intro half hwithin
    rw [events_eq, exists_mapM_eq_ok_iff]
    intro row hrow
    obtain ⟨hmem, y, hday, hy⟩ := (mem_eventRows now t half).1 hrow
    exact exists_of_mapM_eq_ok (events_eq now t r ▸ hes)
      ((mem_eventRows now t r).2 ⟨hmem, y, hday, hwithin y hy⟩)
  constructor
  · exact hread fun y hy => ((h.withinText_first hr y).1 hy).1
  · exact hread fun y hy => ((h.withinText_second hr y).1 hy).1

/-- If neither fetch can read both halves, none can read the whole range. -/
theorem splitsInto_of_unread (hwhole : ¬ ∃ records, counts ⟨some t, now⟩ r = .ok records)
    (hcounts : ¬ BothSucceed (counts ⟨some t, now⟩ first) (counts ⟨some t, now⟩ second))
    (hevents : ¬ BothSucceed (events ⟨some t, now⟩ first) (events ⟨some t, now⟩ second)) :
    SplitsInto ⟨some t, now⟩ r first second where
  counts := ⟨iff_of_false hwhole hcounts, fun hx hy _ => absurd ⟨⟨_, hx⟩, _, hy⟩ hcounts⟩
  events :=
    ⟨iff_of_false (fun ⟨_, hes⟩ => hevents (h.bothSucceed_of_events hr hes)) hevents,
      fun hx hy _ => absurd ⟨⟨_, hx⟩, _, hy⟩ hevents⟩

end IsSplitAfter

theorem exists_split {r : DayRange} (hr : r.IsPlain) {mid : Day} (hstart : r.start ≤ mid)
    (hstop : mid < r.stop) : ∃ first second, IsSplitAfter mid r first second := by
  have hmid : mid.IsPlain := hr.of_contains ⟨hstart, Int.le_of_lt hstop⟩
  have hlast : mid.year < lastYear := by
    have := hmid.2
    unfold lastYear
    omega
  obtain ⟨next, hnext⟩ := Day.exists_next hlast
  have hle : next ≤ r.stop :=
    Day.not_lt.1 fun hlt => Day.not_lt.2 ((Day.lt_next_iff hnext _).1 hlt) hstop
  exact ⟨⟨r.start, mid, hstart⟩, ⟨next, r.stop, hle⟩, rfl, rfl, hnext, rfl⟩

/-- A range of the years from 0 to 9999 splits into its halves after each of its days, but for
the one where the halves miss a row of the stray day. -/
theorem splitsInto_iff (now : Int) (t : Table) {r : DayRange} (hr : r.IsPlain) {mid : Day}
    (hstart : r.start ≤ mid) (hstop : mid < r.stop) :
    ∃ first second, IsSplitAfter mid r first second ∧
      (SplitsInto ⟨some t, now⟩ r first second ↔ ¬ MissesStray now t mid first second) := by
  obtain ⟨first, second, h⟩ := exists_split hr hstart hstop
  obtain ⟨hmid, hnext⟩ := h.plain hr
  have hgap := hasRowBetween_iff now t hmid hnext h.start_second
  refine ⟨first, second, h, ?_⟩
  by_cases hrow : HasRowBetween now t mid second.start
  · obtain ⟨heq, hstray⟩ := hgap.1 hrow
    obtain ⟨row, hmem, hday⟩ := hstray
    have hbetween := (isBetween_stray_iff hmid hnext h.start_second).2 heq
    have hwhole :=
      not_exists_counts_of_stray hmem hday (h.withinText_of_isBetween hr hbetween)
    constructor
    · rintro hsplits ⟨-, -, hread | hread⟩
      · exact hwhole (hsplits.counts.ok_iff.2 hread)
      · exact h.not_bothSucceed_events hr hrow hsplits hread
    · intro hmisses
      exact h.splitsInto_of_unread hr hwhole
        (fun hread => hmisses ⟨heq, ⟨row, hmem, hday⟩, .inl hread⟩)
        (fun hread => hmisses ⟨heq, ⟨row, hmem, hday⟩, .inr hread⟩)
  · have hsplits := h.splitsInto_of_none_between hr hrow
    exact iff_of_true hsplits fun hmisses => hrow (hgap.2 ⟨hmisses.1, hmisses.2.1⟩)

/-- A crash of 0300-03-01 that is found on the stray day. -/
def strayRow : Row :=
  ⟨1, .text "web", .text "web", .text "x", .text "0300-03-01 05:00:00+01:00"⟩

/-- The table of that crash alone. -/
def strayTable : Table := ⟨[strayRow], by simp⟩

/-- The day of that crash. -/
def afterStray : Day := ⟨300, 3, 1, by decide⟩

/-- The time that the crash shows. -/
def strayTime : DateTime :=
  ⟨afterStray, (TimeOfDay.ofParts? 5 0 0 0).get (by decide)⟩

/-- The days before and after the stray one. -/
def strayRange : DayRange := ⟨beforeStray, afterStray, by decide⟩

/-- The day before as a range. -/
def beforeStrayRange : DayRange := ⟨beforeStray, beforeStray, by decide⟩

/-- The day after as a range. -/
def afterStrayRange : DayRange := ⟨afterStray, afterStray, by decide⟩

theorem splitsInto_strayTable :
    strayRange.IsPlain ∧ strayRange.start ≤ beforeStray ∧ beforeStray < strayRange.stop ∧
      ∃ first second, IsSplitAfter beforeStray strayRange first second ∧
        (SplitsInto ⟨some strayTable, noon⟩ strayRange first second ↔
          ¬ MissesStray noon strayTable beforeStray first second) := by
  have hplain : strayRange.IsPlain := by decide
  have hstart : strayRange.start ≤ beforeStray := by decide
  have hstop : beforeStray < strayRange.stop := by decide
  exact ⟨hplain, hstart, hstop, splitsInto_iff noon strayTable hplain hstart hstop⟩

/-- The crash is an event of the whole range and makes its counts fail, but it is in neither
half. -/
theorem strayTable_missed_by_halves :
    strayRange.IsPlain ∧ IsSplitAfter beforeStray strayRange beforeStrayRange afterStrayRange ∧
      (⟨some strayTable, noon⟩ : Store).events strayRange =
        .ok [⟨"web", "web", some strayTime, "x"⟩] ∧
      (⟨some strayTable, noon⟩ : Store).events beforeStrayRange = .ok [] ∧
      (⟨some strayTable, noon⟩ : Store).events afterStrayRange = .ok [] ∧
      (⟨some strayTable, noon⟩ : Store).counts strayRange = .error (.noDay "0300-02-29") ∧
      (⟨some strayTable, noon⟩ : Store).counts beforeStrayRange = .ok [] ∧
      (⟨some strayTable, noon⟩ : Store).counts afterStrayRange = .ok [] ∧
      ¬ SplitsInto ⟨some strayTable, noon⟩ strayRange beforeStrayRange afterStrayRange := by
  have hrows : eventRows noon strayTable strayRange = [strayRow] := by decide +kernel
  have hshown : some strayTime = Timestamp.parse "0300-03-01 05:00:00+01:00" := by
    decide +kernel
  have hevent : readEvent strayRow = .ok ⟨"web", "web", some strayTime, "x"⟩ :=
    readEvent_eq_ok_iff.2 ⟨rfl, rfl, rfl, _, readStamp_eq_ok_iff.2 rfl, hshown⟩
  have hevents : (⟨some strayTable, noon⟩ : Store).events strayRange =
      .ok [⟨"web", "web", some strayTime, "x"⟩] := by
    rw [events_eq, hrows, mapM_eq_ok_iff]
    exact .cons hevent .nil
  have hcounts : (⟨some strayTable, noon⟩ : Store).counts strayRange =
      .error (.noDay "0300-02-29") := by
    decide +kernel
  have hfirst : (⟨some strayTable, noon⟩ : Store).counts beforeStrayRange = .ok [] := by
    decide +kernel
  have hsecond : (⟨some strayTable, noon⟩ : Store).counts afterStrayRange = .ok [] := by
    decide +kernel
  refine ⟨by decide, ⟨rfl, rfl, by decide, rfl⟩, hevents, by decide +kernel, by decide +kernel,
    hcounts, hfirst, hsecond, fun hsplits => ?_⟩
  obtain ⟨records, hrecords⟩ := hsplits.counts.ok_iff.2 ⟨⟨_, hfirst⟩, _, hsecond⟩
  rw [hcounts] at hrecords
  cases hrecords

end CrashReports.Store
