import CrashReports.Proofs.Calendar.DayGrammar
import CrashReports.Proofs.Store.LayoutChoice

/-!
# Written timestamps are read again

A time can be left in the store in five forms (`IsWritten`): its day and its time of day with a
blank or a `T` between them, the same two with an offset from universal time after them, and,
for the start of a day, the day alone.  Each of them is shown as the time that was written,
whatever blanks stand around it (`parse_of_isWritten`): the layout that belongs to the form
undoes its writer, and no other layout reads the text.  A second that is inserted in the course
of a minute has no text of its own, so it is shown as the next one (`earlyTime_shown_as_next`).
-/

namespace CrashReports

open Text

/-! ### Offsets -/

/-- Minutes ahead of universal time as a sign, two digits of hours and two of minutes. -/
def renderOffset (offset : Int) : List Char :=
  (if offset < 0 then '-' else '+') ::
    (padded 2 (offset.natAbs / 60) ++ ':' :: padded 2 (offset.natAbs % 60))

theorem readPair_padded {n : Nat} (hn : n < 100) (rest : List Char) :
    readPair (padded 2 n ++ rest) = .ok (n, rest) := by
  obtain ⟨a, b, hpadded⟩ := List.length_eq_two.1 (length_padded (by decide : 0 < 2) hn)
  have hdigit : ∀ c ∈ padded 2 n, c.isDigit = true := fun c hc => isDigit_of_mem_padded hc
  have hvalue := digitsValue_padded 2 n
  rw [hpadded] at hdigit hvalue ⊢
  show (if a.isDigit = true ∧ b.isDigit = true then _ else _) = _
  rw [if_pos ⟨hdigit a (by simp), hdigit b (by simp)⟩, hvalue]
  rfl

/-- The hours and minutes of an offset are read after its sign. -/
theorem readOffset_parts {hours minutes : Nat} (hh : hours < 100) (hm : minutes < 60) (sign : Int)
    (rest : List Char) :
    (do
      let (hours, cs) ← readPair (padded 2 hours ++ ':' :: (padded 2 minutes ++ rest))
      let (minutes, cs) ← readPair (cs.dropWhile isOffsetSeparator)
      if minutes < 60 then pure (sign * ((hours * 60 + minutes : Nat) : Int), cs)
      else throw DateFault.outOfRange) =
        .ok (sign * ((hours * 60 + minutes : Nat) : Int), rest) := by
  have hdrop : (':' :: (padded 2 minutes ++ rest)).dropWhile isOffsetSeparator =
      padded 2 minutes ++ rest := by
    obtain ⟨c, cs, hpadded, hc⟩ := exists_padded_cons 2 minutes
    have hne : c ≠ ':' := by
      rintro rfl
      exact absurd hc (by decide)
    rw [List.dropWhile_cons_of_pos (by decide), hpadded, List.cons_append,
      List.dropWhile_cons_of_neg (by simp [isOffsetSeparator, hne, isBlank_of_isDigit hc])]
  simp only [readPair_padded hh, ok_bind, hdrop, readPair_padded (show minutes < 100 by omega)]
  rw [if_pos hm]
  rfl

/-- A written offset is read as what it was. -/
theorem readOffset_renderOffset {offset : Int} (h : offset.natAbs < 6000) (rest : List Char) :
    readOffset (renderOffset offset ++ rest) = .ok (offset, rest) := by
  have hparts := readOffset_parts (show offset.natAbs / 60 < 100 by omega)
    (show offset.natAbs % 60 < 60 by omega)
  unfold renderOffset readOffset
  rw [List.cons_append, List.append_assoc, List.cons_append]
  obtain hneg | hpos := Int.lt_or_le offset 0
  · rw [if_pos hneg, skipBlanks_cons_of_not_isBlank (by decide)]
    refine (hparts (-1) rest).trans ?_
    congr 2
    omega
  · rw [if_neg (Int.not_lt.2 hpos), skipBlanks_cons_of_not_isBlank (by decide)]
    refine (hparts 1 rest).trans ?_
    congr 2
    omega

theorem mem_head?_renderOffset {offset : Int} {c : Char} (h : c ∈ (renderOffset offset).head?) :
    c = '-' ∨ c = '+' := by
  rw [← Option.some.inj h]
  split
  · exact .inl rfl
  · exact .inr rfl

/-! ### Texts that end in a number -/

theorem endsInNumber_padded (before : List Char) (width n : Nat) :
    EndsInNumber (before ++ padded width n) :=
  ⟨before, _, isNumber_padded width n, rfl⟩

/-- A fraction after a number ends in a number, and so does a number that none follows. -/
theorem IsFraction.endsInNumber {fraction cs : List Char} {nano : Nat} (h : IsFraction fraction nano)
    (hcs : EndsInNumber cs) : EndsInNumber (cs ++ fraction) := by
  cases h with
  | missing => rwa [List.append_nil]
  | point hne hd => exact ⟨cs ++ ['.'], _, ⟨hne, hd⟩, by simp⟩

theorem endsInNumber_render_time (t : TimeOfDay) : EndsInNumber t.render := by
  have hends := (isFraction_renderFraction t.shownNano_lt).endsInNumber
    (endsInNumber_padded (padded 2 t.hour ++ ':' :: (padded 2 t.minute ++ [':'])) 2 t.shownSecond)
  simpa [TimeOfDay.render] using hends

theorem endsInNumber_renderOffset (offset : Int) : EndsInNumber (renderOffset offset) := by
  have hends := endsInNumber_padded ((if offset < 0 then '-' else '+') ::
    (padded 2 (offset.natAbs / 60) ++ [':'])) 2 (offset.natAbs % 60)
  simpa [renderOffset] using hends

/-- A text that begins with a day and ends in a number has no blanks at its ends. -/
theorem trims_render_append {d : Day} {rest : List Char} (h : EndsInNumber (d.render ++ rest)) :
    Trims (d.render ++ rest) (d.render ++ rest) := by
  refine ⟨⟨[], [], by simp, by simp, by simp⟩, fun c hc => ?_, h.isBlank_last⟩
  have hne : d.render ≠ [] := by simp [Day.render, renderYmd]
  rw [List.head?_append_of_ne_nil _ hne] at hc
  exact (isDayText_render d).trims.head c hc

namespace Timestamp

/-! ### Reading by the layout that was written by -/

/-- After a written day the other parts of a layout read on from its numbers. -/
theorem readFrom_render_day (tail : Layout) (d : Day) (p : DateParts) (rest : List Char) :
    (Layout.plainDay ++ tail).readFrom p (d.render ++ rest) =
      tail.readFrom { p with year := d.year, month := d.month, day := d.day } rest := by
  obtain ⟨hmonth, hmonth', hday, hday'⟩ := d.monthDay_bounds
  have hread := @readFrom_plainDay tail _ rest _ _ _ (fun after => readYear_renderYear d after)
    ⟨hmonth, hmonth'⟩ ⟨hday, hday'⟩ p
  simpa only [Day.render, renderYmd, List.append_assoc, List.cons_append] using hread

/-- After a written time of day the layout reads on from its numbers. -/
theorem readFrom_render_time (zone : Layout) (t : TimeOfDay) (p : DateParts) {rest : List Char}
    (hrest : ∀ c ∈ rest.head?, c ≠ '.' ∧ c.isDigit = false) :
    (clock ++ zone).readFrom p (t.render ++ rest) =
      zone.readFrom { p with hour := t.hour, minute := t.minute, second := t.shownSecond,
                             nano := t.shownNano } rest := by
  have hrender : t.render ++ rest = padded 2 t.hour ++ ':' :: (padded 2 t.minute ++
      ':' :: (padded 2 t.shownSecond ++ (TimeOfDay.renderFraction t.shownNano ++ rest))) := by
    simp only [TimeOfDay.render, List.append_assoc, List.cons_append]
  rw [hrender]
  simp only [clock, List.cons_append, List.nil_append, Layout.readFrom, read_hour_padded, read_mark,
    read_minute_padded, read_second_padded, read_fraction_render t _ _ hrest, ok_bind]

/-- What is written between day and time, and what it is read by. -/
inductive IsLead : Char → LayoutItem → Prop
  | blank : IsLead ' ' .gap
  | letter : IsLead 'T' (.mark 'T')

theorem IsLead.read {separator : Char} {lead : LayoutItem} (h : IsLead separator lead)
    (t : TimeOfDay) (p : DateParts) (rest : List Char) :
    lead.read p (separator :: (t.render ++ rest)) = .ok (p, t.render ++ rest) := by
  cases h with
  | letter => exact read_mark 'T' p _
  | blank =>
    have hskip : skipBlanks (' ' :: (t.render ++ rest)) = t.render ++ rest := by
      have hpadded := skipBlanks_padded 2 t.hour (':' :: (padded 2 t.minute ++ ':' ::
        (padded 2 t.shownSecond ++ (TimeOfDay.renderFraction t.shownNano ++ rest))))
      rw [skipBlanks, List.dropWhile_cons_of_pos (by decide)]
      simpa only [skipBlanks, TimeOfDay.render, List.append_assoc, List.cons_append] using hpadded
    rw [LayoutItem.read, hskip]
    rfl

/-- The layout of a written time reads all its numbers, and goes on after them. -/
theorem read_renderWith {separator : Char} {lead : LayoutItem} (h : IsLead separator lead)
    (zone : Layout) (t : DateTime) {rest : List Char}
    (hrest : ∀ c ∈ rest.head?, c ≠ '.' ∧ c.isDigit = false) :
    (Layout.plainDay ++ lead :: (clock ++ zone)).read (t.renderWith separator ++ rest) =
      zone.readFrom (t.parts 0) rest := by
  have hrender : t.renderWith separator ++ rest =
      t.day.render ++ separator :: (t.time.render ++ rest) := by
    simp only [DateTime.renderWith, List.append_assoc, List.cons_append]
  rw [hrender, Layout.read, readFrom_render_day, Layout.readFrom, h.read, ok_bind]
  exact readFrom_render_time zone t.time _ hrest

theorem readLocal_of_read {layout : Layout} {cs : List Char} {p : DateParts} {t : DateTime}
    (h : layout.read cs = .ok p) (ht : p.toDateTime = .ok t) : readLocal layout cs = some t := by
  unfold readLocal
  rw [h]
  exact congrArg Except.toOption ht

theorem readOffset_of_read {layout : Layout} {cs : List Char} {p : DateParts} {t : DateTime}
    (h : (layout ++ [LayoutItem.offset]).read cs = .ok p) (ht : p.toDateTime = .ok t)
    (hoffset : p.offset.natAbs < 1440) (htime : hasUniversalTime t p.offset = true) :
    readOffset layout cs = some t := by
  unfold readOffset
  rw [h]
  dsimp only
  rw [ht]
  exact if_pos ⟨hoffset, htime⟩

/-- Only in the first and the last year of the calendar can universal time lie outside. -/
theorem hasUniversalTime_of_inside {t : DateTime}
    (h : firstYear < t.day.year ∧ t.day.year < lastYear) (offset : Int) :
    hasUniversalTime t offset = true := by
  obtain ⟨before, hbefore⟩ := Day.exists_prev h.1
  obtain ⟨after, hafter⟩ := Day.exists_next h.2
  unfold hasUniversalTime
  dsimp only
  rw [hbefore, hafter]
  split
  · rfl
  · split <;> rfl

/-! ### The forms of a time -/

/-- The forms in which a time is written: its day and its time of day with a blank or a `T`
between them, perhaps with an offset of less than a day after them, or the day alone for its
start. -/
inductive IsWritten : List Char → DateTime → Prop
  | wall {separator : Char} (hs : separator = ' ' ∨ separator = 'T') (t : DateTime) :
      IsWritten (t.renderWith separator) t
  | zoned {separator : Char} (hs : separator = ' ' ∨ separator = 'T') (t : DateTime)
      {offset : Int} (hoffset : offset.natAbs < 1440) :
      IsWritten (t.renderWith separator ++ renderOffset offset) t
  | day (d : Day) : IsWritten d.render (.atMidnight d)

theorem exists_isLead {separator : Char} (h : separator = ' ' ∨ separator = 'T') :
    ∃ lead, IsLead separator lead := by
  rcases h with rfl | rfl
  · exact ⟨_, .blank⟩
  · exact ⟨_, .letter⟩

/-- A written time has no blanks at its ends. -/
theorem IsWritten.trims {cs : List Char} {t : DateTime} (h : IsWritten cs t) : Trims cs cs := by
  cases h with
  | @wall separator hs =>
    have hends := ((endsInNumber_render_time t.time).cons separator).append_left t.day.render
    exact trims_render_append hends
  | @zoned separator hs _ offset =>
    have hends := (endsInNumber_renderOffset offset).append_left (t.renderWith separator)
    rw [DateTime.renderWith, List.append_assoc] at hends ⊢
    exact trims_render_append hends
  | day d =>
    exact (isDayText_render d).trims

/-- The reader of a time with this mark between day and time is one of those that are tried. -/
theorem IsLead.mem_readers {separator : Char} {lead : LayoutItem} (h : IsLead separator lead) :
    readLocal (Layout.plainDay ++ lead :: clock) ∈ readers ∧
      readOffset (Layout.plainDay ++ lead :: clock) ∈ readers := by
  cases h with
  | blank =>
    have hlayout : Layout.plainDay ++ .gap :: clock = spaced := rfl
    simp [hlayout, readers]
  | letter =>
    have hlayout : Layout.plainDay ++ .mark 'T' :: clock = lettered := rfl
    simp [hlayout, readers]

/-- A written time is read by the layout that belongs to its form. -/
theorem IsWritten.exists_reader {cs : List Char} {t : DateTime} (h : IsWritten cs t)
    (hyear : firstYear < t.day.year ∧ t.day.year < lastYear) :
    ∃ read ∈ readers, read cs = some t.asWritten := by
  cases h with
  | wall hs =>
    obtain ⟨lead, hlead⟩ := exists_isLead hs
    have hend : ∀ c ∈ ([] : List Char).head?, c ≠ '.' ∧ c.isDigit = false := by simp
    have hread := read_renderWith hlead [] t hend
    rw [List.append_nil, List.append_nil] at hread
    exact ⟨_, hlead.mem_readers.1, readLocal_of_read hread (toDateTime_parts t 0)⟩
  | @zoned separator hs _ offset hoffset =>
    obtain ⟨lead, hlead⟩ := exists_isLead hs
    have hsign : ∀ c ∈ (renderOffset offset).head?, c ≠ '.' ∧ c.isDigit = false := by
      intro c hc
      rcases mem_head?_renderOffset hc with rfl | rfl <;> decide
    have hread := read_renderWith hlead [.offset] t hsign
    have hzone := readOffset_renderOffset (show offset.natAbs < 6000 by omega) []
    rw [List.append_nil] at hzone
    have hparts : Layout.readFrom [.offset] (t.parts 0) (renderOffset offset) =
        .ok (t.parts offset) := by
      simp only [Layout.readFrom, LayoutItem.read, hzone, ok_bind, pure_eq_ok]
      rfl
    rw [hparts] at hread
    have hinside : firstYear < t.asWritten.day.year ∧ t.asWritten.day.year < lastYear := hyear
    exact ⟨_, hlead.mem_readers.2, readOffset_of_read hread (toDateTime_parts t offset) hoffset
      (hasUniversalTime_of_inside hinside offset)⟩
  | day d =>
    have hmidnight : (DateTime.atMidnight d).asWritten = .atMidnight d :=
      DateTime.asWritten_eq_iff.2 (.inl (show 0 < 1000000000 by decide))
    refine ⟨readMidnight, by simp [readers], ?_⟩
    rw [readMidnight, (isDayText_render d).parsePlain, hmidnight]
    rfl

/-- The text of a time is shown as the time that it names: the offset is dropped, and so are
blanks around it. -/
theorem parse_eq_asWritten {text : String} {cs : List Char} {t : DateTime} (h : IsWritten cs t)
    (hyear : firstYear < t.day.year ∧ t.day.year < lastYear) (htext : Frames text.toList cs) :
    parse text = some t.asWritten := by
  obtain ⟨read, hmem, hread⟩ := h.exists_reader hyear
  refine parse_eq_some_iff.2 ⟨read, hmem, ?_⟩
  rwa [htext.trimBlanks_eq h.trims]

/-- A time that was written in one of the forms, in all years of the calendar but the first and
the last one, is shown as what it was, without its offset.  Only a second that was inserted after
any but second 59 is shown as the regular second after it. -/
theorem parse_of_isWritten {text : String} {cs : List Char} {t : DateTime} (h : IsWritten cs t)
    (hyear : firstYear < t.day.year ∧ t.day.year < lastYear) (htext : Frames text.toList cs) :
    parse text = some t.asWritten ∧ (parse text = some t ↔ t.time.IsWritable) := by
  have hshown := parse_eq_asWritten h hyear htext
  refine ⟨hshown, ?_⟩
  rw [hshown, Option.some.injEq, DateTime.asWritten_eq_iff]

/-- A time in the second that was inserted at the end of a year. -/
def insertedSecond : DateTime :=
  ⟨⟨2016, 12, 31, by decide⟩, (TimeOfDay.ofParts? 23 59 60 500000).get (by decide)⟩

/-- The inserted second is shown as what it was, also almost a day behind universal time. -/
theorem parse_of_isWritten_insertedSecond :
    IsWritten "2016-12-31T23:59:60.000500-23:59".toList insertedSecond ∧
      insertedSecond.time.IsWritable ∧
      parse "\u2003 2016-12-31T23:59:60.000500-23:59\n" = some insertedSecond :=
  have hwritten : IsWritten "2016-12-31T23:59:60.000500-23:59".toList insertedSecond := by
    have hzoned := @IsWritten.zoned 'T' (.inr rfl) insertedSecond (-1439) (by decide)
    have htext : insertedSecond.renderWith 'T' ++ renderOffset (-1439) =
        "2016-12-31T23:59:60.000500-23:59".toList := by decide +kernel
    rwa [htext] at hzoned
  ⟨hwritten, .inr rfl, (parse_of_isWritten hwritten (by decide)
    ⟨['\u2003', ' '], ['\n'], by decide +kernel, List.all_eq_true.1 (by decide),
      List.all_eq_true.1 (by decide)⟩).2.2 (.inr rfl)⟩

/-- A time in a second that was inserted after 22:17:41. -/
def earlyTime : DateTime :=
  ⟨⟨2015, 6, 30, by decide⟩, ⟨22, 17, 41, 1250000000, by decide, by decide, by decide, by decide⟩⟩

/-- A second that is inserted in the course of a minute is shown as the regular one after it. -/
theorem earlyTime_shown_as_next :
    IsWritten "2015-06-30 22:17:42.250".toList earlyTime ∧
      parse "2015-06-30 22:17:42.250" =
        some ⟨⟨2015, 6, 30, by decide⟩, ⟨22, 17, 42, 250000000, by decide, by decide, by decide,
          by decide⟩⟩ ∧
      parse "2015-06-30 22:17:42.250" ≠ some earlyTime := by
  have hwritten : IsWritten "2015-06-30 22:17:42.250".toList earlyTime := by
    have hwall := @IsWritten.wall ' ' (.inl rfl) earlyTime
    have htext : earlyTime.renderWith ' ' = "2015-06-30 22:17:42.250".toList := by
      decide +kernel
    rwa [htext] at hwall
  have hframes : Frames "2015-06-30 22:17:42.250".toList
      "2015-06-30 22:17:42.250".toList := ⟨[], [], by simp, by simp, by simp⟩
  have hshown := parse_eq_asWritten hwritten (by decide) hframes
  refine ⟨hwritten, hshown, ?_⟩
  rw [hshown]
  decide

end Timestamp

end CrashReports
