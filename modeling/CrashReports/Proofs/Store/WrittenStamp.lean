import CrashReports.Proofs.Calendar.DayText
import CrashReports.Proofs.Store.StoredDay
import CrashReports.Proofs.Store.WrittenTime

/-!
# The written form of a stored day

A stated day in exact widths, alone or before a time, is what the store reads from a text
(`readDayAndTime_eq_some_iff`).  Such a text is ASCII throughout.  A text that states no day has
one only as a time, as a word for the current time or as a Julian day (`HasDay`).

Whether the stated day is also the day on which the store finds the text depends on its
time: a zone can move it, and so can a time of 24 hours or a fraction that rounds up, but
the latter two only where the day is computed anyway (`dayOfStated_eq_some_iff`).
-/

namespace CrashReports.Store

open Text

/-! ### Stated days -/

/-- Year, month and day of the month in exact widths. -/
def dayDigits (year month day : Nat) : List Char :=
  padded 4 year ++ '-' :: (padded 2 month ++ '-' :: padded 2 day)

/-- The text of a stated day. -/
inductive IsStatedDay : List Char → Ymd → Prop
  | unsigned {year month day : Nat} (hy : year < 10 ^ 4) (hm : 1 ≤ month ∧ month ≤ 12)
      (hd : 1 ≤ day ∧ day ≤ 31) : IsStatedDay (dayDigits year month day) ⟨year, month, day⟩
  | negative {year month day : Nat} (hy : year < 10 ^ 4) (hm : 1 ≤ month ∧ month ≤ 12)
      (hd : 1 ≤ day ∧ day ≤ 31) :
      IsStatedDay ('-' :: dayDigits year month day) ⟨-(year : Int), month, day⟩

theorem dayDigits_append (year month day : Nat) (rest : List Char) :
    dayDigits year month day ++ rest =
      padded 4 year ++ '-' :: (padded 2 month ++ '-' :: (padded 2 day ++ rest)) := by
  simp [dayDigits]

theorem exists_dayDigits_cons (year month day : Nat) :
    ∃ c cs, dayDigits year month day = c :: cs ∧ c.isDigit = true := by
  obtain ⟨c, cs, hpadded, hc⟩ := exists_padded_cons 4 year
  exact ⟨c, _, by rw [dayDigits, hpadded, List.cons_append], hc⟩

/-- The parts of a day after its sign. -/
def readDayDigits (cs : List Char) : Option ((Nat × Nat × Nat) × List Char) := do
  let (year, cs) ← readExact 4 cs
  let cs ← readMark '-' cs
  let (month, cs) ← readBounded 2 1 12 cs
  let cs ← readMark '-' cs
  let (day, cs) ← readBounded 2 1 31 cs
  some ((year, month, day), cs)

theorem readDayDigits_eq_some_iff {cs rest : List Char} {year month day : Nat} :
    readDayDigits cs = some ((year, month, day), rest) ↔
      year < 10 ^ 4 ∧ (1 ≤ month ∧ month ≤ 12) ∧ (1 ≤ day ∧ day ≤ 31) ∧
        cs = dayDigits year month day ++ rest := by
  rw [dayDigits_append]
  constructor
  · intro h
    obtain ⟨⟨y, cs₁⟩, hyear, h₁⟩ := Option.bind_eq_some_iff.1 h
    obtain ⟨cs₂, hmark, h₂⟩ := Option.bind_eq_some_iff.1 h₁
    obtain ⟨⟨m, cs₃⟩, hmonth, h₃⟩ := Option.bind_eq_some_iff.1 h₂
    obtain ⟨cs₄, hmark', h₄⟩ := Option.bind_eq_some_iff.1 h₃
    obtain ⟨⟨d, cs₅⟩, hday, h₅⟩ := Option.bind_eq_some_iff.1 h₄
    obtain ⟨hy, hcs⟩ := (readExact_eq_some_iff (by decide)).1 hyear
    have hcs₁ := readMark_eq_some_iff.1 hmark
    obtain ⟨hm, hcs₂⟩ := (readBounded_eq_some_iff (by decide) (by decide)).1 hmonth
    have hcs₃ := readMark_eq_some_iff.1 hmark'
    obtain ⟨hd, hcs₄⟩ := (readBounded_eq_some_iff (by decide) (by decide)).1 hday
    obtain ⟨hparts, rfl⟩ := Prod.mk.inj (Option.some.inj h₅)
    obtain ⟨rfl, hparts'⟩ := Prod.mk.inj hparts
    obtain ⟨rfl, rfl⟩ := Prod.mk.inj hparts'
    exact ⟨hy, hm, hd, by rw [hcs, hcs₁, hcs₂, hcs₃, hcs₄]⟩
  · rintro ⟨hy, hm, hd, rfl⟩
    unfold readDayDigits
    rw [(readExact_eq_some_iff (by decide)).2 ⟨hy, rfl⟩]
    simp only [Option.bind_eq_bind, Option.bind_some]
    rw [readMark_eq_some_iff.2 rfl]
    simp only [Option.bind_some]
    rw [(readBounded_eq_some_iff (by decide) (by decide)).2 ⟨hm, rfl⟩]
    simp only [Option.bind_some]
    rw [readMark_eq_some_iff.2 rfl]
    simp only [Option.bind_some]
    rw [(readBounded_eq_some_iff (by decide) (by decide)).2 ⟨hd, rfl⟩]
    rfl

theorem readStatedDay_cons_hyphen (cs : List Char) :
    readStatedDay ('-' :: cs) =
      (readDayDigits cs).map fun p => (⟨-(p.1.1 : Int), p.1.2.1, p.1.2.2⟩, p.2) := by
  simp only [readStatedDay, readDayDigits, Option.bind_eq_bind, Option.map_bind, if_true,
    Function.comp_def, Option.map_some]

theorem readStatedDay_of_head_ne {cs : List Char} (h : ∀ c ∈ cs.head?, c ≠ '-') :
    readStatedDay cs =
      (readDayDigits cs).map fun p => (⟨(p.1.1 : Int), p.1.2.1, p.1.2.2⟩, p.2) := by
  cases cs with
  | nil => rfl
  | cons c cs =>
    have hc : c ≠ '-' := h c rfl
    unfold readStatedDay
    split
    rename_i negative rest hsign
    split at hsign
    case h_1 tail heq => exact absurd (List.cons.inj heq).1 hc
    case h_2 =>
      obtain ⟨rfl, rfl⟩ := Prod.mk.inj hsign
      simp only [readDayDigits, Option.bind_eq_bind, Option.map_bind, Bool.false_eq_true, if_false,
        Function.comp_def, Option.map_some]

theorem readStatedDay_eq_some_iff {cs rest : List Char} {y : Ymd} :
    readStatedDay cs = some (y, rest) ↔ ∃ text, IsStatedDay text y ∧ cs = text ++ rest := by
  -- digits do not begin with a hyphen, so the sign of the text decides the form
  by_cases hsign : ∃ tail, cs = '-' :: tail
  · obtain ⟨tail, rfl⟩ := hsign
    rw [readStatedDay_cons_hyphen, Option.map_eq_some_iff]
    constructor
    · rintro ⟨⟨⟨year, month, day⟩, rest'⟩, hread, hpair⟩
      obtain ⟨rfl, rfl⟩ := Prod.mk.inj hpair
      obtain ⟨hy, hm, hd, rfl⟩ := readDayDigits_eq_some_iff.1 hread
      exact ⟨_, .negative hy hm hd, rfl⟩
    · rintro ⟨text, htext, hcs⟩
      cases htext with
      | @unsigned year month day hy hm hd =>
        obtain ⟨c, cs, hdigits, hc⟩ := exists_dayDigits_cons year month day
        rw [hdigits, List.cons_append] at hcs
        rw [← (List.cons.inj hcs).1] at hc
        exact absurd hc (by decide)
      | negative hy hm hd =>
        have htail := List.tail_eq_of_cons_eq hcs
        exact ⟨_, readDayDigits_eq_some_iff.2 ⟨hy, hm, hd, htail⟩, rfl⟩
  · have hhead : ∀ c ∈ cs.head?, c ≠ '-' := by
      rintro c hc rfl
      cases cs with
      | nil => cases hc
      | cons d ds => exact hsign ⟨ds, by rw [Option.some.inj hc]⟩
    rw [readStatedDay_of_head_ne hhead, Option.map_eq_some_iff]
    constructor
    · rintro ⟨⟨⟨year, month, day⟩, rest'⟩, hread, hpair⟩
      obtain ⟨rfl, rfl⟩ := Prod.mk.inj hpair
      obtain ⟨hy, hm, hd, rfl⟩ := readDayDigits_eq_some_iff.1 hread
      exact ⟨_, .unsigned hy hm hd, rfl⟩
    · rintro ⟨text, htext, hcs⟩
      cases htext with
      | unsigned hy hm hd => exact ⟨_, readDayDigits_eq_some_iff.2 ⟨hy, hm, hd, hcs⟩, rfl⟩
      | negative hy hm hd => exact absurd ⟨_, hcs⟩ hsign

/-! ### Days with times -/

/-- What stands between a day and a time. -/
def IsSeparatorText (cs : List Char) : Prop :=
  ∀ c ∈ cs, isDaySeparator c = true

/-- The text of a stated day, with a time or without one. -/
inductive IsDayAndTime : List Char → Ymd → StatedTime → Prop
  | day {text separators : List Char} {y : Ymd} (hd : IsStatedDay text y)
      (hs : IsSeparatorText separators) : IsDayAndTime (text ++ separators) y ⟨0, 0⟩
  | time {text separators time : List Char} {y : Ymd} {t : StatedTime} (hd : IsStatedDay text y)
      (hs : IsSeparatorText separators) (ht : IsTime time t) :
      IsDayAndTime (text ++ (separators ++ time)) y t

theorem IsTime.exists_cons {cs : List Char} {t : StatedTime} (h : IsTime cs t) :
    ∃ c rest, cs = c :: rest ∧ c.isDigit = true := by
  obtain ⟨hh, hm, hs, hz⟩ := h
  rename_i hours minutes millis seconds zoneText zone
  obtain ⟨c, digits, hpadded, hc⟩ := exists_padded_cons 2 hours
  exact ⟨c, _, by rw [hpadded, List.cons_append], hc⟩

theorem isDaySeparator_of_isDigit {c : Char} (h : c.isDigit = true) : isDaySeparator c = false := by
  obtain ⟨hlow, hhigh⟩ := digit_bounds h
  have hblank : ¬ isStoreBlank c = true := by
    rw [isStoreBlank_iff]
    omega
  have hletter : c ≠ 'T' := by
    rintro rfl
    exact absurd hhigh (by decide)
  simp [isDaySeparator, hblank, hletter]

/-- A day, with a time or without one, is read exactly from its written form. -/
theorem readDayAndTime_eq_some_iff {cs : List Char} {y : Ymd} {t : StatedTime} :
    readDayAndTime cs = some (y, t) ↔ IsDayAndTime cs y t := by
  unfold readDayAndTime
  constructor
  · intro h
    obtain ⟨⟨d, rest⟩, hday, hafter⟩ := Option.bind_eq_some_iff.1 h
    obtain ⟨text, htext, rfl⟩ := readStatedDay_eq_some_iff.1 hday
    have hseparators : IsSeparatorText (rest.takeWhile isDaySeparator) :=
      fun c hc => List.mem_takeWhile_imp hc
    have hsplit : rest = rest.takeWhile isDaySeparator ++ rest.dropWhile isDaySeparator :=
      List.takeWhile_append_dropWhile.symm
    dsimp only at hafter
    split at hafter
    case h_1 hnil =>
      obtain ⟨rfl, rfl⟩ := Prod.mk.inj (Option.some.inj hafter)
      rw [hnil, List.append_nil] at hsplit
      rw [hsplit]
      exact .day htext hseparators
    case h_2 =>
      obtain ⟨time, htime, hpair⟩ := Option.bind_eq_some_iff.1 hafter
      obtain ⟨rfl, rfl⟩ := Prod.mk.inj (Option.some.inj hpair)
      rw [hsplit]
      exact .time htext hseparators (readTime_eq_some_iff.1 htime)
  · intro h
    cases h with
    | day hd hs =>
      rw [readStatedDay_eq_some_iff.2 ⟨_, hd, rfl⟩]
      simp only [Option.bind_eq_bind, Option.bind_some]
      rw [List.dropWhile_eq_nil_iff.2 hs]
    | @time text separators time y t hd hs ht =>
      obtain ⟨c, rest, rfl, hc⟩ := ht.exists_cons
      have hdrop : (separators ++ c :: rest).dropWhile isDaySeparator = c :: rest := by
        rw [List.dropWhile_append_of_pos hs,
          List.dropWhile_cons_of_neg (by simp [isDaySeparator_of_isDigit hc])]
      rw [readStatedDay_eq_some_iff.2 ⟨_, hd, rfl⟩]
      simp only [Option.bind_eq_bind, Option.bind_some, hdrop]
      rw [readTime_eq_some_iff.2 ht]
      rfl

theorem IsTime.isBounded {cs : List Char} {t : StatedTime} (h : IsTime cs t) : t.IsBounded :=
  isBounded_of_readTime (readTime_eq_some_iff.2 h)

theorem IsDayAndTime.isBounded {cs : List Char} {y : Ymd} {t : StatedTime}
    (h : IsDayAndTime cs y t) : t.IsBounded := by
  cases h with
  | day hd hs => exact ⟨by decide, by decide, by decide⟩
  | time hd hs ht => exact ht.isBounded

theorem dayOfText_of_isDayAndTime {now : Int} {cs : List Char} {y : Ymd} {t : StatedTime}
    (h : IsDayAndTime cs y t) : dayOfText now cs = dayOfStated y t := by
  unfold dayOfText
  rw [readDayAndTime_eq_some_iff.2 h]

/-- The ways in which a text can have a day: it states one, it is a time or a word for the
current time, or it writes a Julian day. -/
inductive HasDay (now : Int) (cs : List Char) : Ymd → Prop
  | stated {d y : Ymd} {t : StatedTime} (h : IsDayAndTime cs d t)
      (hday : dayOfStated d t = some y) : HasDay now cs y
  | time {t : StatedTime} (h : IsTime cs t) : HasDay now cs (dayOfTime t)
  | word {y : Ymd} (h : asksForNow cs = true) (hday : dayOfNow now = some y) : HasDay now cs y
  | number {n : Number} {y : Ymd} (h : readNumber cs = some n)
      (hday : dayOfNumber n = some y) : HasDay now cs y

theorem hasDay_of_dayOfText {now : Int} {cs : List Char} {y : Ymd}
    (h : dayOfText now cs = some y) : HasDay now cs y := by
  unfold dayOfText at h
  split at h
  case h_1 hread => exact .stated (readDayAndTime_eq_some_iff.1 hread) h
  case h_2 =>
    split at h
    case h_1 hread =>
      obtain rfl := Option.some.inj h
      exact .time (readTime_eq_some_iff.1 hread)
    case h_2 =>
      split at h
      case isTrue hword => exact .word hword h
      case isFalse =>
        obtain ⟨n, hread, hday⟩ := Option.bind_eq_some_iff.1 h
        exact .number hread hday

/-- The text of a day of the calendar is a stated day. -/
theorem isStatedDay_render {d : Day} (hd : d.IsPlain) : IsStatedDay d.render (Ymd.ofDay d) := by
  have hmonth := d.isDay.month_le
  have hday := d.day_le_thirtyOne
  obtain ⟨hlow, hhigh⟩ := hd
  have hyear : (d.year.natAbs : Int) = d.year := Int.natAbs_of_nonneg hlow
  have hrender : d.render = dayDigits d.year.natAbs d.month d.day := by
    rw [Day.render, renderYmd, renderYear_of_plain ⟨hlow, hhigh⟩]
    simp [dayDigits]
  have hstated := @IsStatedDay.unsigned d.year.natAbs _ _ (by omega)
    ⟨d.isDay.month_pos, hmonth⟩ ⟨d.isDay.day_pos, hday⟩
  rw [hyear] at hstated
  rw [hrender]
  exact hstated

/-! ### The characters of a written form -/

/-- A character of ASCII other than NUL. -/
def IsPlainChar (c : Char) : Prop :=
  c.toNat ≠ 0 ∧ c.toNat < 128

instance (c : Char) : Decidable (IsPlainChar c) :=
  inferInstanceAs (Decidable (_ ∧ _))

theorem isPlainChar_of_isDigit {c : Char} (h : c.isDigit = true) : IsPlainChar c := by
  obtain ⟨hlow, hhigh⟩ := digit_bounds h
  unfold IsPlainChar
  omega

theorem isPlainChar_of_isStoreBlank {c : Char} (h : isStoreBlank c = true) : IsPlainChar c := by
  have hblank := isStoreBlank_iff.1 h
  unfold IsPlainChar
  omega

theorem isPlainChar_of_isDaySeparator {c : Char} (h : isDaySeparator c = true) :
    IsPlainChar c := by
  rw [isDaySeparator, Bool.or_eq_true, beq_iff_eq] at h
  rcases h with h | rfl
  · exact isPlainChar_of_isStoreBlank h
  · decide

/-- A text of plain characters. -/
def IsPlainText (cs : List Char) : Prop :=
  ∀ c ∈ cs, IsPlainChar c

theorem IsPlainText.append {cs ds : List Char} (hc : IsPlainText cs) (hd : IsPlainText ds) :
    IsPlainText (cs ++ ds) := by
  intro c h
  exact (List.mem_append.1 h).elim (hc c) (hd c)

theorem IsPlainText.cons {c : Char} {cs : List Char} (hc : IsPlainChar c) (hcs : IsPlainText cs) :
    IsPlainText (c :: cs) := by
  intro d h
  rcases List.mem_cons.1 h with rfl | h
  · exact hc
  · exact hcs d h

theorem isPlainText_padded (width n : Nat) : IsPlainText (padded width n) :=
  fun _ hc => isPlainChar_of_isDigit (isDigit_of_mem_padded hc)

theorem IsBlankText.isPlainText {cs : List Char} (h : IsBlankText cs) : IsPlainText cs :=
  fun c hc => isPlainChar_of_isStoreBlank (h c hc)

theorem IsZone.isPlainText {cs : List Char} {zone : Int} (h : IsZone cs zone) :
    IsPlainText cs := by
  have hshift : ∀ (hours minutes : Nat) {after : List Char}, IsBlankText after →
      IsPlainText (padded 2 hours ++ ':' :: (padded 2 minutes ++ after)) := by
    intro hours minutes after ha
    exact (isPlainText_padded _ _).append
      (.cons (by decide) ((isPlainText_padded _ _).append ha.isPlainText))
  cases h with
  | missing h => exact h.isPlainText
  | universal hb hc ha =>
    refine hb.isPlainText.append (.cons ?_ ha.isPlainText)
    rcases hc with rfl | rfl <;> decide
  | ahead hb hh hm ha =>
    exact hb.isPlainText.append (.cons (by decide) (hshift _ _ ha))
  | behind hb hh hm ha =>
    exact hb.isPlainText.append (.cons (by decide) (hshift _ _ ha))

theorem IsSeconds.isPlainText {cs : List Char} {millis : Nat} (h : IsSeconds cs millis) :
    IsPlainText cs := by
  cases h with
  | missing => exact fun c hc => absurd hc List.not_mem_nil
  | whole h => exact .cons (by decide) (isPlainText_padded _ _)
  | fraction h hne hd hm =>
    refine .cons (by decide) ((isPlainText_padded _ _).append ?_)
    exact .cons (by decide) fun c hc => isPlainChar_of_isDigit (hd c hc)

theorem IsTime.isPlainText {cs : List Char} {t : StatedTime} (h : IsTime cs t) :
    IsPlainText cs := by
  obtain ⟨hh, hm, hs, hz⟩ := h
  refine (isPlainText_padded _ _).append (.cons (by decide) ?_)
  exact (isPlainText_padded _ _).append (hs.isPlainText.append hz.isPlainText)

theorem IsStatedDay.isPlainText {cs : List Char} {y : Ymd} (h : IsStatedDay cs y) :
    IsPlainText cs := by
  have hdigits : ∀ year month day : Nat, IsPlainText (dayDigits year month day) := by
    intro year month day
    refine (isPlainText_padded _ _).append (.cons (by decide) ?_)
    exact (isPlainText_padded _ _).append (.cons (by decide) (isPlainText_padded _ _))
  cases h with
  | unsigned hy hm hd => exact hdigits _ _ _
  | negative hy hm hd => exact .cons (by decide) (hdigits _ _ _)

theorem IsDayAndTime.isPlainText {cs : List Char} {y : Ymd} {t : StatedTime}
    (h : IsDayAndTime cs y t) : IsPlainText cs := by
  have hseparators : ∀ {ds : List Char}, IsSeparatorText ds → IsPlainText ds :=
    fun hs c hc => isPlainChar_of_isDaySeparator (hs c hc)
  cases h with
  | day hd hs => exact hd.isPlainText.append (hseparators hs)
  | time hd hs ht => exact hd.isPlainText.append ((hseparators hs).append ht.isPlainText)

theorem untilNul_eq_self {cs : List Char} (h : '\x00' ∉ cs) : untilNul cs = cs := by
  refine List.takeWhile_eq_self_iff.2 fun c hc => ?_
  rw [bne_iff_ne]
  rintro rfl
  exact h hc

theorem IsPlainText.untilNul_eq {cs : List Char} (h : IsPlainText cs) : untilNul cs = cs :=
  untilNul_eq_self fun hmem => (h _ hmem).1 rfl

/-! ### The day that is kept -/

/-- A time keeps the day it is stated with: nothing is computed, or the instant falls on
that day and is not lost to the one day that the formulas of the store miss. -/
def StatedTime.KeepsDay (t : StatedTime) (d : Day) : Prop :=
  t.zone = 0 ∧ d.day ≤ 28 ∨
    0 ≤ (t.millis : Int) - t.zone * 60000 ∧ (t.millis : Int) - t.zone * 60000 < dayMillis ∧
      Ymd.ofDay d ≠ ⟨300, 3, 1⟩

instance (t : StatedTime) (d : Day) : Decidable (t.KeepsDay d) :=
  inferInstanceAs (Decidable (_ ∨ _))

theorem number_bounds {d : Day} (hd : d.IsPlain) :
    1721060 ≤ (Ymd.ofDay d).number ∧ (Ymd.ofDay d).number ≤ 5373453 + d.day := by
  have hpos := d.isDay.month_pos
  have hle := d.isDay.month_le
  have hfirst := d.isDay.day_pos
  obtain ⟨hlow, hhigh⟩ := hd
  obtain ⟨year, month, day, hday⟩ := d
  dsimp only at *
  have hnumber : (Ymd.ofDay ⟨year, month, day, hday⟩).number = Ymd.number ⟨year, month, day⟩ := rfl
  rw [hnumber]
  unfold Ymd.number Ymd.centuryDay Ymd.monthDays Ymd.marchYear Ymd.marchMonth
  dsimp only
  by_cases hwinter : month ≤ 2
  · simp only [if_pos hwinter]
    omega
  · simp only [if_neg hwinter]
    omega

theorem instant_ofDay {d : Day} (hd : d.IsPlain) :
    (Ymd.ofDay d).instant = (Ymd.ofDay d).number * dayMillis - 43200000 := by
  have hyear := Ymd.marchYear_bounds d
  have hmonth := Ymd.marchMonth_bounds (d := Ymd.ofDay d) d.isDay
  have hlow := hd.1
  exact Ymd.instant_eq (by omega) (by omega)

/-- The store finds a stated day and time on that day exactly if the time keeps it. -/
theorem dayOfStated_eq_some_iff {d : Day} (hd : d.IsPlain) {t : StatedTime} (ht : t.IsBounded) :
    dayOfStated (.ofDay d) t = some (.ofDay d) ↔ t.KeepsDay d := by
  obtain ⟨hmillis, hbehind, hahead⟩ := ht
  obtain ⟨hnumber, hnumber'⟩ := number_bounds hd
  have hinstant := instant_ofDay hd
  have hday := d.day_le_thirtyOne
  have hyear : -4713 ≤ (Ymd.ofDay d).year ∧ (Ymd.ofDay d).year ≤ 9999 := by
    have hlow : 0 ≤ (Ymd.ofDay d).year := hd.1
    exact ⟨by omega, hd.2⟩
  have hsplit : instantOf (.ofDay d) t =
      (Ymd.ofDay d).instant + ((t.millis : Int) - t.zone * 60000) := by
    unfold instantOf
    omega
  unfold dayOfStated StatedTime.KeepsDay
  -- without a zone and up to the day 28 the stated day is taken as it is
  by_cases hplain : t.zone = 0 ∧ d.day ≤ 28
  · have hvalid : isInstant (instantOf (.ofDay d) t) = true := by
      rw [isInstant_iff, hsplit, hinstant, hplain.1]
      unfold dayMillis
      omega
    have hstays : ¬ (t.zone ≠ 0 ∨ 28 < (Ymd.ofDay d).day) := by
      show ¬ (t.zone ≠ 0 ∨ 28 < d.day)
      omega
    rw [if_pos ⟨hyear.1, hyear.2, hvalid⟩, if_neg hstays]
    exact iff_of_true rfl (.inl hplain)
  · have hcomputed : t.zone ≠ 0 ∨ 28 < (Ymd.ofDay d).day := by
      show t.zone ≠ 0 ∨ 28 < d.day
      omega
    have hlow : -dayMillis ≤ (t.millis : Int) - t.zone * 60000 := by
      unfold dayMillis
      omega
    have hhigh : (t.millis : Int) - t.zone * 60000 < 2 * dayMillis := by
      unfold dayMillis
      omega
    have hofInstant := Ymd.ofInstant_eq_iff hd.1 hd.2 hlow hhigh
    rw [or_iff_right hplain, ← hofInstant, ← hsplit]
    by_cases hvalid : isInstant (instantOf (.ofDay d) t) = true
    · rw [if_pos ⟨hyear.1, hyear.2, hvalid⟩, if_pos hcomputed, Option.some.injEq]
    -- an instant that the store cannot compute with is on no day at all
    · rw [if_neg fun h => hvalid h.2.2]
      refine iff_of_false (by simp) fun h => hvalid ?_
      rw [hsplit, hofInstant] at h
      rw [isInstant_iff, hsplit, hinstant]
      unfold dayMillis at *
      omega

/-- The day of a text in written form. -/
theorem day?_text_eq_some_iff {now : Int} {s : String} {d : Day} (hd : d.IsPlain) {t : StatedTime}
    (h : IsDayAndTime s.toList (.ofDay d) t) :
    (StampCell.text s).day? now = some (.ofDay d) ↔ t.KeepsDay d := by
  have hday : (StampCell.text s).day? now = dayOfText now (untilNul s.toList) := rfl
  rw [hday, h.isPlainText.untilNul_eq, dayOfText_of_isDayAndTime h,
    dayOfStated_eq_some_iff hd h.isBounded]

end CrashReports.Store
