import CrashReports.Proofs.Calendar.Fraction

/-!
# Written days and date-times are read again

The written form of a day is read as that day, for years of any sign
(`Day.parseLoose_render`), so different days have different texts.  The written form of a
date-time, with a fraction of 0, 3, 6 or 9 digits, is read as the date-time that it names
(`DateTime.parseLoose_render`).  That is the one that was written, inserted seconds included,
unless a second is inserted after one that is not the last of its minute: its text is that of
the regular second after it (`DateTime.asWritten_eq_iff`).
-/

namespace CrashReports

open Text

/-- The written form of a year is a text of it. -/
theorem isYearText_renderYear (year : Int) : IsYearText (renderYear year) year := by
  have hnumber := isNumber_padded 4 year.natAbs
  obtain hneg | hplain | hlate : year < 0 ∨ (0 ≤ year ∧ year ≤ 9999) ∨ 9999 < year := by omega
  · have htext := IsYearText.minus hnumber
    rw [digitsValue_padded, show -(year.natAbs : Int) = year by omega] at htext
    rwa [renderYear_of_neg hneg]
  · have hlen : (padded 4 year.natAbs).length ≤ 4 :=
      Nat.le_of_eq (length_padded (by decide) (by omega))
    have htext := IsYearText.unsigned hnumber hlen
    rw [digitsValue_padded, show (year.natAbs : Int) = year by omega] at htext
    rwa [renderYear_of_plain hplain]
  · have htext := IsYearText.plus hnumber
    rw [digitsValue_padded, show (year.natAbs : Int) = year by omega] at htext
    rwa [renderYear_of_late hlate]

/-- The numbers of the years of the calendar can be read. -/
theorem Day.year_bounds (d : Day) : -2147483648 ≤ d.year ∧ d.year ≤ 2147483647 := by
  have hfirst := d.isDay.first_le
  have hlast := d.isDay.le_last
  unfold firstYear at hfirst
  unfold lastYear at hlast
  omega

theorem isDigit_of_mem_head?_hyphen (after : List Char) :
    ∀ c ∈ ('-' :: after).head?, c.isDigit = false := by
  intro c hc
  rw [← Option.some.inj hc]
  decide

/-- The year of a written day is read up to the dash after it. -/
theorem readYear_renderYear (d : Day) (after : List Char) :
    readYear (renderYear d.year ++ '-' :: after) = .ok (d.year, '-' :: after) :=
  (isYearText_renderYear d.year).readYear_append d.year_bounds (isDigit_of_mem_head?_hyphen after)

/-- A part and the mark after it are read, where a gap may stand before the mark but none
does. -/
theorem readFrom_gap_mark {item : LayoutItem} {layout : Layout} {p q : DateParts} {c : Char}
    {cs rest : List Char} (hc : isBlank c = false) (h : item.read p cs = .ok (q, c :: rest)) :
    Layout.readFrom (item :: .gap :: .mark c :: layout) p cs = layout.readFrom q rest := by
  have hgap : LayoutItem.gap.read q (c :: rest) = .ok (q, c :: rest) := by
    rw [LayoutItem.read, skipBlanks_cons_of_not_isBlank hc]
    rfl
  simp only [Layout.readFrom, h, hgap, read_mark, bind, Except.bind]

/-- Year and month of a written day are read with the dashes after them. -/
theorem readFrom_yearMonth (layout : Layout) (d : Day) (p : DateParts) (rest : List Char) :
    Layout.readFrom (.year :: .gap :: .mark '-' :: .month :: .gap :: .mark '-' :: layout) p
        (renderYear d.year ++ '-' :: (padded 2 d.month ++ '-' :: rest)) =
      layout.readFrom { p with year := d.year, month := d.month } rest := by
  obtain ⟨hmonth, hmonth', -, -⟩ := d.monthDay_bounds
  have hyear (rest : List Char) : LayoutItem.year.read p (renderYear d.year ++ '-' :: rest) =
      .ok ({ p with year := d.year }, '-' :: rest) := by
    rw [LayoutItem.read, readYear_renderYear]
    rfl
  have hmonth (p : DateParts) : LayoutItem.month.read p (padded 2 d.month ++ '-' :: rest) =
      .ok ({ p with month := d.month }, '-' :: rest) := by
    rw [LayoutItem.read, readWithin_padded (by decide) (by decide) ⟨hmonth, hmonth'⟩]
    rfl
  rw [readFrom_gap_mark (by decide) (hyear _), readFrom_gap_mark (by decide) (hmonth _)]

theorem read_day_padded (d : Day) (p : DateParts) (rest : List Char) :
    LayoutItem.day.read p (padded 2 d.day ++ rest) = .ok ({ p with day := d.day }, rest) := by
  obtain ⟨-, -, hday, hday'⟩ := d.monthDay_bounds
  rw [LayoutItem.read, readWithin_padded (by decide) (by decide) ⟨hday, hday'⟩]
  rfl

/-! ### Days -/

/-- The parts of a written day are its numbers. -/
theorem read_looseDay_render (d : Day) :
    Layout.looseDay.read d.render = .ok { year := d.year, month := d.month, day := d.day } := by
  have hday (p : DateParts) : LayoutItem.day.read p (padded 2 d.day) =
      .ok ({ p with day := d.day }, []) := by
    rw [← List.append_nil (padded 2 d.day), read_day_padded]
  have hgap (p : DateParts) : LayoutItem.gap.read p [] = .ok (p, []) := rfl
  have hrender : d.render =
      renderYear d.year ++ '-' :: (padded 2 d.month ++ '-' :: padded 2 d.day) := by
    simp only [Day.render, renderYmd, List.append_assoc, List.cons_append]
  rw [hrender, Layout.read, Layout.looseDay, readFrom_yearMonth]
  simp only [Layout.readFrom, hday, hgap, bind, Except.bind, pure, Except.pure]

/-- A written day is read as what it was. -/
theorem Day.parseLoose_render (d : Day) : parseLoose d.render = .ok d := by
  simp only [parseLoose, read_looseDay_render, bind, Except.bind]
  exact toDay_eq_ok_iff.2 rfl

theorem Day.toString_injective : Function.Injective (toString : Day → String) := by
  intro d d' h
  have hrender : d.render = d'.render := String.ofList_injective h
  have hread := congrArg parseLoose hrender
  rw [parseLoose_render, parseLoose_render] at hread
  exact Except.ok.inj hread

/-! ### Date-times -/

namespace TimeOfDay

/-- A time that has a written form of its own: an inserted second only follows second 59. -/
def IsWritable (t : TimeOfDay) : Prop :=
  t.nano < 1000000000 ∨ t.second = 59

/-- The time that the written form of a time names.  A second that is inserted after any but
second 59 is written as the regular second that follows. -/
def asWritten (t : TimeOfDay) : TimeOfDay :=
  if h : 1000000000 ≤ t.nano ∧ t.second < 59 then
    { t with
      second := t.second + 1
      nano := t.nano - 1000000000
      second_lt := Nat.succ_lt_succ h.2
      nano_lt := Nat.lt_of_le_of_lt (Nat.sub_le _ _) t.nano_lt }
  else t

theorem asWritten_eq_iff {t : TimeOfDay} : t.asWritten = t ↔ t.IsWritable := by
  have hsecond := t.second_lt
  unfold asWritten IsWritable
  split
  case isTrue h =>
    have hne : t.second + 1 ≠ t.second := Nat.succ_ne_self _
    exact iff_of_false (fun heq => hne (congrArg second heq)) (by omega)
  case isFalse => exact iff_of_true rfl (by omega)

/-- The written parts of a time name what it is written as. -/
theorem ofParts?_shown (t : TimeOfDay) :
    ofParts? t.hour t.minute t.shownSecond t.shownNano = some t.asWritten := by
  have hsecond := t.second_lt
  have hnano := t.nano_lt
  unfold ofParts? asWritten shownSecond shownNano
  rw [dif_pos ⟨t.hour_lt, t.minute_lt, by omega, by omega⟩, Option.some.injEq]
  split
  all_goals
    refine TimeOfDay.ext rfl rfl ?_ ?_
    all_goals
      dsimp only
      omega

theorem shownSecond_le (t : TimeOfDay) : t.shownSecond ≤ 60 := by
  have hsecond := t.second_lt
  have hnano := t.nano_lt
  unfold shownSecond
  omega

theorem shownNano_lt (t : TimeOfDay) : t.shownNano < 1000000000 :=
  Nat.mod_lt _ (by decide)

end TimeOfDay

/-- The date-time that the written form of a date-time names. -/
def DateTime.asWritten (t : DateTime) : DateTime :=
  ⟨t.day, t.time.asWritten⟩

theorem DateTime.asWritten_eq_iff {t : DateTime} : t.asWritten = t ↔ t.time.IsWritable :=
  ⟨fun h => TimeOfDay.asWritten_eq_iff.1 (congrArg DateTime.time h),
    fun h => DateTime.ext rfl (TimeOfDay.asWritten_eq_iff.2 h)⟩

section Time

variable (t : TimeOfDay) (p : DateParts) (rest : List Char)

theorem read_hour_padded : LayoutItem.hour.read p (padded 2 t.hour ++ rest) =
    .ok ({ p with hour := t.hour }, rest) := by
  rw [LayoutItem.read, readWithin_padded (by decide) (by decide)
    ⟨Nat.zero_le _, Nat.le_of_lt_succ t.hour_lt⟩]
  rfl

theorem read_minute_padded : LayoutItem.minute.read p (padded 2 t.minute ++ rest) =
    .ok ({ p with minute := t.minute }, rest) := by
  rw [LayoutItem.read, readWithin_padded (by decide) (by decide)
    ⟨Nat.zero_le _, Nat.le_of_lt_succ t.minute_lt⟩]
  rfl

theorem read_second_padded : LayoutItem.second.read p (padded 2 t.shownSecond ++ rest) =
    .ok ({ p with second := t.shownSecond }, rest) := by
  rw [LayoutItem.read, readWithin_padded (by decide) (by decide)
    ⟨Nat.zero_le _, t.shownSecond_le⟩]
  rfl

theorem read_fraction_render (hrest : ∀ c ∈ rest.head?, c ≠ '.' ∧ c.isDigit = false) :
    LayoutItem.fraction.read p (TimeOfDay.renderFraction t.shownNano ++ rest) =
      .ok ({ p with nano := t.shownNano }, rest) := by
  rw [LayoutItem.read, readFraction_append (isFraction_renderFraction t.shownNano_lt) hrest]
  rfl

end Time

/-- The numbers that a date-time is written in, with an offset. -/
def DateTime.parts (t : DateTime) (offset : Int) : DateParts :=
  ⟨t.day.year, t.day.month, t.day.day, t.time.hour, t.time.minute, t.time.shownSecond,
    t.time.shownNano, offset⟩

/-- The parts of a written date-time are its numbers. -/
theorem read_looseDateTime_render (t : DateTime) :
    Layout.looseDateTime.read t.render = .ok (t.parts 0) := by
  have hfraction (p : DateParts) :
      LayoutItem.fraction.read p (TimeOfDay.renderFraction t.time.shownNano) =
        .ok ({ p with nano := t.time.shownNano }, []) := by
    rw [← List.append_nil (TimeOfDay.renderFraction t.time.shownNano),
      read_fraction_render t.time p [] (by simp)]
  have hgap (p : DateParts) : LayoutItem.gap.read p [] = .ok (p, []) := rfl
  have hrender : t.render = renderYear t.day.year ++ '-' :: (padded 2 t.day.month ++
      '-' :: (padded 2 t.day.day ++ 'T' :: (padded 2 t.time.hour ++
        ':' :: (padded 2 t.time.minute ++ ':' :: (padded 2 t.time.shownSecond ++
          TimeOfDay.renderFraction t.time.shownNano))))) := by
    simp only [DateTime.render, DateTime.renderWith, Day.render, renderYmd, TimeOfDay.render,
      List.append_assoc, List.cons_append]
  rw [hrender, Layout.read, Layout.looseDateTime, readFrom_yearMonth,
    readFrom_gap_mark (by decide) (read_day_padded _ _ _),
    readFrom_gap_mark (by decide) (read_hour_padded _ _ _),
    readFrom_gap_mark (by decide) (read_minute_padded _ _ _)]
  simp only [Layout.readFrom, read_second_padded, hfraction, hgap, bind, Except.bind, pure,
    Except.pure]
  rfl

/-- The numbers of a date-time name what it is written as, whatever the offset is. -/
theorem toDateTime_parts (t : DateTime) (offset : Int) :
    (t.parts offset).toDateTime = .ok t.asWritten := by
  have htoDay : (t.parts offset).toDay = .ok t.day := toDay_eq_ok_iff.2 rfl
  have hofParts := t.time.ofParts?_shown
  simp only [DateParts.toDateTime, htoDay, ok_bind]
  dsimp only [DateTime.parts]
  rw [hofParts]
  rfl

/-- A written date-time is read as the date-time that its text names. -/
theorem DateTime.parseLoose_render (t : DateTime) : parseLoose t.render = .ok t.asWritten := by
  rw [parseLoose, read_looseDateTime_render, ok_bind, toDateTime_parts]

end CrashReports
