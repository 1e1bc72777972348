import CrashReports.Proofs.Calendar.RoundTrip
import CrashReports.Proofs.Text.Blank
import Mathlib.Data.List.DropRight

/-!
# The grammar of days

Which texts are read as which day, said without the reader: a year, a month and a day of the
month between hyphens (`IsDayText`).  The year has four digits at most or a sign before it; the
other two have one digit or two, and only they may have blanks before them.  The numbers have
to be those of a day of the calendar.

Every such text is read as that day and no other text is read at all
(`Day.parsePlain_eq_ok_iff`).  Blanks at the start of a text are passed over by the reader,
so the grammar is about what comes after them.
-/

namespace CrashReports

open Text

/-- The text of a month or a day of the month: blanks, and then one digit or two. -/
inductive IsPartText : List Char → Nat → Prop
  | mk {blanks digits : List Char} (hb : ∀ c ∈ blanks, isBlank c = true) (h : IsNumber digits)
      (hlen : digits.length ≤ 2) : IsPartText (blanks ++ digits) (digitsValue digits)

/-- The text of a day. -/
inductive IsDayText : List Char → Day → Prop
  | mk {year month day : List Char} {d : Day} (hy : IsYearText year d.year)
      (hm : IsPartText month d.month) (hd : IsPartText day d.day) :
      IsDayText (year ++ '-' :: (month ++ '-' :: day)) d

/-! ### Months and days of the month -/

theorem IsPartText.exists_digits {text : List Char} {n : Nat} (h : IsPartText text n) :
    ∃ blanks digits, text = blanks ++ digits ∧ IsNumber digits := by
  obtain ⟨-, hdigits, -⟩ := h
  exact ⟨_, _, rfl, hdigits⟩

theorem exists_of_readWithin {low high n : Nat} {cs rest : List Char}
    (h : readWithin 2 low high cs = .ok (n, rest)) :
    ∃ text, IsPartText text n ∧ cs = text ++ rest := by
  obtain ⟨⟨m, tail⟩, hread, hbounds⟩ := bind_eq_ok_iff.1 h
  dsimp only at hbounds
  split at hbounds
  case isTrue =>
    obtain ⟨rfl, rfl⟩ := Prod.mk.inj (Except.ok.inj hbounds)
    obtain ⟨digits, hdigits, hlen, rfl, hskip⟩ := exists_of_readDigits hread
    refine ⟨cs.takeWhile isBlank ++ digits, ?_, ?_⟩
    · exact .mk (fun c hc => List.mem_takeWhile_imp hc) hdigits hlen
    · rw [List.append_assoc, ← hskip]
      exact List.takeWhile_append_dropWhile.symm
  case isFalse => cases hbounds

/-- A month or a day of the month is read from its text up to what is no digit. -/
theorem IsPartText.readWithin_append {low high n : Nat} {text rest : List Char}
    (h : IsPartText text n) (hn : low ≤ n ∧ n ≤ high)
    (hstop : ∀ c ∈ rest.head?, c.isDigit = false) :
    readWithin 2 low high (text ++ rest) = .ok (n, rest) := by
  obtain ⟨hb, hdigits, hlen⟩ := h
  rename_i blanks digits
  have hskip : skipBlanks (blanks ++ digits ++ rest) = digits ++ rest := by
    obtain ⟨c, cs, rfl⟩ := List.exists_cons_of_ne_nil hdigits.ne_nil
    have hc : c.isDigit = true := hdigits.isDigit c List.mem_cons_self
    rw [List.append_assoc, skipBlanks, List.dropWhile_append_of_pos hb, List.cons_append]
    exact skipBlanks_cons_of_not_isBlank (isBlank_of_isDigit hc) _
  unfold readWithin
  rw [hskip, hdigits.readDigits_append hlen hstop]
  exact if_pos hn

theorem isPartText_padded {n : Nat} (hn : n < 100) : IsPartText (padded 2 n) n := by
  have hlen : (padded 2 n).length ≤ 2 := Nat.le_of_eq (length_padded (by decide) hn)
  have htext := @IsPartText.mk [] (padded 2 n) (by simp) (isNumber_padded 2 n) hlen
  rwa [digitsValue_padded] at htext

/-! ### Texts that end in a number -/

/-- A text has digits at its end. -/
def EndsInNumber (cs : List Char) : Prop :=
  ∃ before digits, IsNumber digits ∧ cs = before ++ digits

theorem EndsInNumber.append_left {cs : List Char} (h : EndsInNumber cs) (before : List Char) :
    EndsInNumber (before ++ cs) := by
  obtain ⟨before', digits, hdigits, rfl⟩ := h
  exact ⟨before ++ before', digits, hdigits, (List.append_assoc _ _ _).symm⟩

theorem EndsInNumber.cons {cs : List Char} (h : EndsInNumber cs) (c : Char) :
    EndsInNumber (c :: cs) :=
  h.append_left [c]

theorem EndsInNumber.isBlank_last {cs : List Char} (h : EndsInNumber cs) :
    ∀ c ∈ cs.getLast?, isBlank c = false := by
  obtain ⟨before, digits, hdigits, rfl⟩ := h
  intro c hc
  have hlast : (before ++ digits).getLast? = digits.getLast? :=
    List.getLast?_append_of_ne_nil before hdigits.ne_nil
  rw [hlast] at hc
  exact isBlank_of_isDigit (hdigits.isDigit c (List.mem_of_getLast? hc))

/-! ### Days -/

theorem IsDayText.endsInNumber {cs : List Char} {d : Day} (h : IsDayText cs d) :
    EndsInNumber cs := by
  obtain ⟨-, -, hd⟩ := h
  obtain ⟨blanks, digits, rfl, hdigits⟩ := hd.exists_digits
  have hday : EndsInNumber (blanks ++ digits) := ⟨blanks, digits, hdigits, rfl⟩
  exact (((hday.cons '-').append_left _).cons '-').append_left _

/-- A text of a day begins with a digit or a sign and ends with a digit. -/
theorem IsDayText.trims {cs : List Char} {d : Day} (h : IsDayText cs d) : Trims cs cs := by
  refine ⟨⟨[], [], by simp, by simp, by simp⟩, fun c hc => ?_, h.endsInNumber.isBlank_last⟩
  obtain ⟨hy, -, -⟩ := h
  obtain ⟨sign, digits, rfl, hsign, hdigits⟩ := hy.exists_digits
  obtain ⟨first, digits, rfl⟩ := List.exists_cons_of_ne_nil hdigits.ne_nil
  have hfirst : first.isDigit = true := hdigits.isDigit first List.mem_cons_self
  obtain rfl | rfl | rfl := hsign
  · obtain rfl := Option.some.inj hc
    exact isBlank_of_isDigit hfirst
  · obtain rfl := Option.some.inj hc
    decide
  · obtain rfl := Option.some.inj hc
    decide

/-- What is read as a day without gaps has the parts of a day one after the other. -/
theorem exists_of_read_plainDay {cs : List Char} {p : DateParts}
    (h : Layout.plainDay.read cs = .ok p) :
    ∃ year month day, IsYearText year p.year ∧ IsPartText month p.month ∧ IsPartText day p.day ∧
      skipBlanks cs = year ++ '-' :: (month ++ '-' :: day) := by
  obtain ⟨⟨p₁, cs₁⟩, hyear, h⟩ := bind_eq_ok_iff.1 h
  obtain ⟨⟨p₂, cs₂⟩, hmark, h⟩ := bind_eq_ok_iff.1 h
  obtain ⟨⟨p₃, cs₃⟩, hmonth, h⟩ := bind_eq_ok_iff.1 h
  obtain ⟨⟨p₄, cs₄⟩, hmark', h⟩ := bind_eq_ok_iff.1 h
  obtain ⟨⟨p₅, cs₅⟩, hday, h⟩ := bind_eq_ok_iff.1 h
  obtain ⟨rfl, rfl⟩ := of_read_mark hmark
  obtain ⟨rfl, rfl⟩ := of_read_mark hmark'
  obtain ⟨⟨year, rest⟩, hreadYear, hpair⟩ := bind_eq_ok_iff.1 hyear
  obtain ⟨rfl, rfl⟩ := Prod.mk.inj (Except.ok.inj hpair)
  obtain ⟨⟨month, rest⟩, hreadMonth, hpair⟩ := bind_eq_ok_iff.1 hmonth
  obtain ⟨rfl, rfl⟩ := Prod.mk.inj (Except.ok.inj hpair)
  obtain ⟨⟨day, rest⟩, hreadDay, hpair⟩ := bind_eq_ok_iff.1 hday
  obtain ⟨rfl, rfl⟩ := Prod.mk.inj (Except.ok.inj hpair)
  -- nothing is left after the day
  cases rest with
  | cons c rest => cases h
  | nil =>
    obtain rfl := Except.ok.inj h
    obtain ⟨yearText, hyearText, hskip⟩ := exists_of_readYear hreadYear
    obtain ⟨monthText, hmonthText, rfl⟩ := exists_of_readWithin hreadMonth
    obtain ⟨dayText, hdayText, rfl⟩ := exists_of_readWithin hreadDay
    rw [List.append_nil] at hskip
    exact ⟨yearText, monthText, dayText, hyearText, hmonthText, hdayText, hskip⟩

/-- The parts of a text of a day are its numbers. -/
theorem IsDayText.read_plainDay {cs : List Char} {d : Day} (h : IsDayText cs d) :
    Layout.plainDay.read cs = .ok { year := d.year, month := d.month, day := d.day } := by
  obtain ⟨hy, hm, hd⟩ := h
  obtain ⟨hmonth, hmonth', hday, hday'⟩ := d.monthDay_bounds
  have hyear := fun after => hy.readYear_append d.year_bounds (isDigit_of_mem_head?_hyphen after)
  have hmonth := fun after => hm.readWithin_append ⟨hmonth, hmonth'⟩
    (isDigit_of_mem_head?_hyphen after)
  have hday := @IsPartText.readWithin_append 1 31 _ _ [] hd ⟨hday, hday'⟩ (by simp)
  rw [List.append_nil] at hday
  simp only [Layout.read, Layout.plainDay, Layout.readFrom, LayoutItem.read, hyear, hmonth, hday,
    bind, Except.bind, pure, Except.pure, if_true]

theorem IsDayText.parsePlain {cs : List Char} {d : Day} (h : IsDayText cs d) :
    Day.parsePlain cs = .ok d :=
  bind_eq_ok_iff.2 ⟨_, h.read_plainDay, toDay_eq_ok_iff.2 rfl⟩

theorem read_plainDay_skipBlanks (cs : List Char) :
    Layout.plainDay.read (skipBlanks cs) = Layout.plainDay.read cs := by
  have hskip : skipBlanks (skipBlanks cs) = skipBlanks cs := List.dropWhile_idempotent isBlank cs
  have hyear : readYear (skipBlanks cs) = readYear cs := by
    simp only [readYear, hskip]
  simp only [Layout.read, Layout.plainDay, Layout.readFrom, LayoutItem.read, hyear]

/-- A text is read as a day exactly if what comes after the blanks at its start is a text of
that day. -/
theorem Day.parsePlain_eq_ok_iff {cs : List Char} {d : Day} :
    Day.parsePlain cs = .ok d ↔ IsDayText (skipBlanks cs) d := by
  constructor
  · intro h
    obtain ⟨p, hread, hday⟩ := bind_eq_ok_iff.1 h
    obtain ⟨year, month, day, hyear, hmonth, hday', hskip⟩ := exists_of_read_plainDay hread
    obtain ⟨hy, hrest⟩ := Prod.mk.inj (toDay_eq_ok_iff.1 hday)
    obtain ⟨hm, hd⟩ := Prod.mk.inj hrest
    rw [hskip]
    exact .mk (hy ▸ hyear) (hm ▸ hmonth) (hd ▸ hday')
  · intro h
    have hread := h.read_plainDay
    rw [read_plainDay_skipBlanks] at hread
    exact bind_eq_ok_iff.2 ⟨_, hread, toDay_eq_ok_iff.2 rfl⟩

/-- The written form of a day is a text of it. -/
theorem isDayText_render (d : Day) : IsDayText d.render d := by
  obtain ⟨-, hmonth, -, hday⟩ := d.monthDay_bounds
  have htext := IsDayText.mk (isYearText_renderYear d.year) (isPartText_padded (by omega))
    (isPartText_padded (n := d.day) (by omega))
  simpa only [Day.render, renderYmd, List.append_assoc, List.cons_append] using htext

end CrashReports
