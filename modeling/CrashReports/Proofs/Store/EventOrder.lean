import CrashReports.Proofs.Store.PlainCrash
import CrashReports.Proofs.Store.ShownDay
import CrashReports.Proofs.Store.TextOrder

/-!
# The order of events

Events come in the order of the texts of their times, and what they show are times.  They come
oldest first exactly if no two of their texts have headings that are ordered against the times
(`oldestFirst_iff`).

A heading is the day and what stands between it and the time.  For years that are not signed
days are ordered as their texts are, so one separator throughout keeps the order
(`oldestFirst_of_lead`).  A blank comes before all digits and a `T` after them: with both on one
day, all times after a blank come first (`mingledEvents_not_oldestFirst`).
-/

namespace CrashReports.Store

open Text

/-! ### What rows show -/

/-- A row shows a time, which is stored as a text. -/
structure Row.Shows (row : Row) (text : String) (time : DateTime) : Prop where
  read : readStamp row.crashedOn = .ok text
  shown : Timestamp.parse text = some time

/-- The time that a row shows. -/
def Row.shownTime? (row : Row) : Option DateTime :=
  (readStamp row.crashedOn).toOption.bind Timestamp.parse

theorem shownTime?_eq_some_iff {row : Row} {time : DateTime} :
    row.shownTime? = some time ↔ ∃ text, row.Shows text time := by
  unfold Row.shownTime?
  cases hread : readStamp row.crashedOn with
  | error f =>
    refine iff_of_false (by simp [Except.toOption]) ?_
    rintro ⟨text, hshows⟩
    rw [hshows.read] at hread
    cases hread
  | ok text =>
    constructor
    · intro h
      exact ⟨text, hread, h⟩
    · rintro ⟨text', hshows⟩
      rw [hshows.read] at hread
      obtain rfl := Except.ok.inj hread
      exact hshows.shown

theorem Row.Shows.isShownText {now : Int} {row : Row} {text : String}
    {time : DateTime} (h : row.Shows text time) {y : Ymd} (hday : row.crashedOn.day? now = some y) :
    IsShownText text.toList time ∧ IsPlainText text.toList := by
  have htext := (day?_eq_some_iff_dayOfText h.read h.shown).1 hday
  obtain ⟨st, hstated, -⟩ := exists_isDayAndTime_of_dayOfText h.shown htext
  exact ⟨isShownText_of_parse h.shown hstated, hstated.isPlainText⟩

/-- Of two selected rows the one with the older time comes later exactly if its heading does. -/
theorem eventBefore_iff_heading_lt {now : Int} {a b : Row} {text text' : String}
    {time time' : DateTime} (ha : a.Shows text time) (hb : b.Shows text' time') {y z : Ymd}
    (hday : a.crashedOn.day? now = some y) (hday' : b.crashedOn.day? now = some z)
    (hlt : time.rank < time'.rank) :
    eventBefore b a = true ↔ heading text'.toList < heading text.toList := by
  obtain ⟨htext, hplain⟩ := ha.isShownText hday
  obtain ⟨htext', hplain'⟩ := hb.isShownText hday'
  have hbytes := utf8_lt_iff (fun c hc => (hplain' c hc).2) fun c hc => (hplain c hc).2
  rw [String.ofList_toList, String.ofList_toList] at hbytes
  rw [eventBefore, decide_eq_true_iff, readStamp_eq_ok_iff.1 ha.read, readStamp_eq_ok_iff.1 hb.read,
    hbytes, lt_iff_heading_lt htext htext' hlt]

/-- The times that events show come oldest first. -/
def OldestFirst (es : List Event) : Prop :=
  (es.filterMap Event.crashedOn).Pairwise fun s t => s.rank ≤ t.rank

instance (es : List Event) : Decidable (OldestFirst es) :=
  inferInstanceAs (Decidable (List.Pairwise _ _))

theorem crashedOn_of_readEvent {row : Row} {e : Event} (h : readEvent row = .ok e) :
    e.crashedOn = row.shownTime? := by
  obtain ⟨-, -, -, stamp, hstamp, htime⟩ := readEvent_eq_ok_iff.1 h
  rw [htime, Row.shownTime?, hstamp]
  rfl

theorem filterMap_crashedOn {rows : List Row} {es : List Event}
    (h : List.Forall₂ (fun row e => readEvent row = .ok e) rows es) :
    es.filterMap Event.crashedOn = rows.filterMap Row.shownTime? := by
  induction h with
  | nil => rfl
  | cons hread _ ih =>
    rw [List.filterMap_cons, List.filterMap_cons, crashedOn_of_readEvent hread, ih]

/-- A row shows nothing later than another one. -/
def ShowsUpTo (a b : Row) : Prop :=
  ∀ s ∈ a.shownTime?, ∀ t ∈ b.shownTime?, s.rank ≤ t.rank

theorem showsUpTo_of_level {a b : Row} (hab : ¬ eventBefore a b = true)
    (hba : ¬ eventBefore b a = true) : ShowsUpTo a b := by
  intro s hs t ht
  obtain ⟨text, hshows⟩ := shownTime?_eq_some_iff.1 hs
  obtain ⟨text', hshows'⟩ := shownTime?_eq_some_iff.1 ht
  have hbytes : a.crashedOn.textBytes = b.crashedOn.textBytes :=
    isTotalOrder_bytes.eq_of_level hab hba
  rw [readStamp_eq_ok_iff.1 hshows.read, readStamp_eq_ok_iff.1 hshows'.read, utf8_inj] at hbytes
  have hshown := hshows.shown
  rw [hbytes, hshows'.shown] at hshown
  rw [Option.some.inj hshown]

section Table

variable {now : Int} {t : Table} {r : DayRange}

/-- Of two rows of a range the one that shows the older time never has the later heading. -/
def HeadingsFollowTimes (now : Int) (t : Table) (r : DayRange) : Prop :=
  ∀ a ∈ eventRows now t r, ∀ b ∈ eventRows now t r, ∀ text text' : String, ∀ time time' : DateTime,
    a.Shows text time → b.Shows text' time' → time.rank < time'.rank →
      ¬ heading text'.toList < heading text.toList

theorem oldestFirst_iff_pairwise {es : List Event} (h : (⟨some t, now⟩ : Store).events r = .ok es) :
    OldestFirst es ↔ (eventRows now t r).Pairwise ShowsUpTo := by
  unfold OldestFirst
  rw [filterMap_crashedOn (readEvent_of_events h), List.pairwise_filterMap]
  rfl

theorem pairwise_showsUpTo_iff :
    (eventRows now t r).Pairwise ShowsUpTo ↔ HeadingsFollowTimes now t r := by
  have hday : ∀ row ∈ eventRows now t r, ∃ y, row.crashedOn.day? now = some y := by
    intro row hrow
    obtain ⟨-, y, hy, -⟩ := (mem_eventRows now t r).1 hrow
    exact ⟨y, hy⟩
  have hsorted : (eventRows now t r).Pairwise fun a b => ¬ eventBefore b a = true :=
    arrange_sorted isOrder_eventBefore _
  rw [pairwise_iff_of_sorted isOrder_eventBefore (fun _ _ => showsUpTo_of_level) hsorted]
  constructor
  · intro hordered a ha b hb text text' time time' hshows hshows' hlt hheading
    obtain ⟨y, hy⟩ := hday a ha
    obtain ⟨z, hz⟩ := hday b hb
    have hafter := (eventBefore_iff_heading_lt hshows hshows' hy hz hlt).2 hheading
    have hle := hordered b hb a ha hafter time' (shownTime?_eq_some_iff.2 ⟨_, hshows'⟩) time
      (shownTime?_eq_some_iff.2 ⟨_, hshows⟩)
    omega
  · intro hheadings a ha b hb hbefore s hs s' hs'
    obtain ⟨text, hshows⟩ := shownTime?_eq_some_iff.1 hs
    obtain ⟨text', hshows'⟩ := shownTime?_eq_some_iff.1 hs'
    obtain ⟨y, hy⟩ := hday a ha
    obtain ⟨z, hz⟩ := hday b hb
    by_contra hle
    have hlt : s'.rank < s.rank := not_le.1 hle
    have hheading := (eventBefore_iff_heading_lt hshows' hshows hz hy hlt).1 hbefore
    exact hheadings b hb a ha _ _ _ _ hshows' hshows hlt hheading

/-- The headings of unsigned years follow the times if one lead stands between all days and
times. -/
theorem headingsFollowTimes_of_lead {lead : List Char}
    (hlead : ∀ row ∈ eventRows now t r, ∀ text time, row.Shows text time →
      time.day.IsPlain ∧ heading text.toList = time.day.render ++ lead) :
    HeadingsFollowTimes now t r := by
  intro a ha b hb text text' time time' hshows hshows' hlt
  obtain ⟨hplain, hheading⟩ := hlead a ha _ _ hshows
  obtain ⟨hplain', hheading'⟩ := hlead b hb _ _ hshows'
  have hlen : time'.day.render.length = time.day.render.length := by
    rw [PlainCrash.length_render hplain', PlainCrash.length_render hplain]
  rw [hheading, hheading', append_lt_append_iff hlen, Day.render_lt_of_plain hplain' hplain]
  rintro (hday | ⟨-, hsame⟩)
  · rw [DateTime.rank_lt_iff] at hlt
    rcases hlt with hday' | ⟨heq, -⟩
    · exact absurd hday (Int.not_lt.2 (Int.le_of_lt hday'))
    · rw [heq] at hday
      exact Int.lt_irrefl _ hday
  · exact List.lt_irrefl _ hsame

/-- Times of unsigned years that are written with one separator throughout come oldest first. -/
theorem oldestFirst_of_lead {es : List Event} (h : (⟨some t, now⟩ : Store).events r = .ok es)
    {lead : List Char} (hlead : ∀ row ∈ eventRows now t r, ∀ text time, row.Shows text time →
      time.day.IsPlain ∧ heading text.toList = time.day.render ++ lead) : OldestFirst es :=
  (oldestFirst_iff_pairwise h).2 (pairwise_showsUpTo_iff.2 (headingsFollowTimes_of_lead hlead))

/-- The times that the events of a range show come oldest first exactly if the headings of its
rows are not ordered against them. -/
theorem oldestFirst_iff {es : List Event} (h : (⟨some t, now⟩ : Store).events r = .ok es) :
    OldestFirst es ↔ HeadingsFollowTimes now t r := by
  rw [oldestFirst_iff_pairwise h, pairwise_showsUpTo_iff]

end Table

/-- Two crashes of one day whose times are written with different separators. -/
def mingledTable : Table :=
  ⟨[⟨1, .text "web", .text "web", .text "x", .text "2024-11-20 08:15:00"⟩,
    ⟨2, .text "web", .text "web", .text "y", .text "2024-11-20T07:15:00"⟩], by simp⟩

/-- The day of both crashes. -/
def mingledDay : Day := ⟨2024, 11, 20, by decide⟩

/-- The range of that day alone. -/
def mingledRange : DayRange := ⟨mingledDay, mingledDay, by decide⟩

/-- The events of both crashes, the younger one first. -/
def mingledEvents : List Event :=
  [⟨"web", "web", some ⟨mingledDay, (TimeOfDay.ofParts? 8 15 0 0).get (by decide)⟩, "x"⟩,
    ⟨"web", "web", some ⟨mingledDay, (TimeOfDay.ofParts? 7 15 0 0).get (by decide)⟩, "y"⟩]

theorem events_mingledTable :
    (⟨some mingledTable, noon⟩ : Store).events mingledRange = .ok mingledEvents := by
  have hrows : eventRows noon mingledTable mingledRange =
      [⟨1, .text "web", .text "web", .text "x", .text "2024-11-20 08:15:00"⟩,
        ⟨2, .text "web", .text "web", .text "y", .text "2024-11-20T07:15:00"⟩] := by
    decide +kernel
  rw [events_eq, hrows, mapM_eq_ok_iff]
  refine .cons (readEvent_eq_ok_iff.2 ⟨rfl, rfl, rfl, _, readStamp_eq_ok_iff.2 rfl, ?_⟩)
    (.cons (readEvent_eq_ok_iff.2 ⟨rfl, rfl, rfl, _, readStamp_eq_ok_iff.2 rfl, ?_⟩) .nil)
  all_goals decide +kernel

theorem oldestFirst_iff_mingledEvents :
    (⟨some mingledTable, noon⟩ : Store).events mingledRange = .ok mingledEvents ∧
      (OldestFirst mingledEvents ↔ HeadingsFollowTimes noon mingledTable mingledRange) :=
  ⟨events_mingledTable, oldestFirst_iff events_mingledTable⟩

/-- The crash of a quarter past seven comes after that of a quarter past eight. -/
theorem mingledEvents_not_oldestFirst :
    (⟨some mingledTable, noon⟩ : Store).events mingledRange = .ok mingledEvents ∧
      ¬ OldestFirst mingledEvents :=
  ⟨events_mingledTable, by decide⟩

end CrashReports.Store
