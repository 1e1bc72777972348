import CrashReports.Proofs.Calendar.Day
import CrashReports.Store.JulianDay
import Mathlib.Tactic.IntervalCases
import Mathlib.Tactic.NormNum

/-!
# Days and instants of the store agree

The store turns a day into an instant and an instant into a day by quotients that
are rounded toward zero.  For the years from 0 to 9999 the two directions are
inverse to each other, with one exception: every instant of 0300-03-01 comes out as
0300-02-29.  So every instant of these years falls on a day of the calendar, but for that
one.  Outside these years nothing is said but that the year of an instant that the store
can compute with lies between -4713 and 9999.

A year is split as `100 * century + rest`, and it begins with March, so that its leap
day comes last.
-/

namespace CrashReports.Store

/-! ### Quotients toward zero -/

theorem tdiv_of_nonpos {a b : Int} (ha : a ≤ 0) : Int.tdiv a b = -(-a / b) := by
  have h := Int.neg_tdiv (-a) b
  rw [Int.neg_neg] at h
  rw [h, Int.tdiv_eq_ediv_of_nonneg (by omega)]

namespace Ymd

/-- The number of the day that an instant falls on, counted from -4713-11-24. -/
def numberOf (t : Int) : Int :=
  (t + 43200000) / dayMillis

/-- The day of a number, as the store computes it. -/
def ofNumber (number : Int) : Ymd :=
  let century := Int.tdiv (4 * number - 7468865) 146097
  let shifted := number + 1525 + century - Int.tdiv century 4
  let year := Int.tdiv (20 * shifted - 2442) 7305
  let yearDays := Int.tdiv (36525 * year) 100
  let month := Int.tdiv (10000 * (shifted - yearDays)) 306001
  let monthDays := Int.tdiv (306001 * month) 10000
  let month := if month < 14 then month - 1 else month - 13
  ⟨if 2 < month then year - 4716 else year - 4715, month.natAbs,
    (shifted - yearDays - monthDays).natAbs⟩

theorem ofInstant_eq_ofNumber (t : Int) : ofInstant t = ofNumber (numberOf t) := rfl

/-! ### Years that begin with March -/

/-- The year of a day, if years begin with March. -/
def marchYear (d : Ymd) : Int :=
  if d.month ≤ 2 then d.year - 1 else d.year

/-- The month of a day, if January and February count as months of the year before. -/
def marchMonth (d : Ymd) : Int :=
  if d.month ≤ 2 then (d.month : Int) + 12 else d.month

/-- The days of a year that begins with March before one of its months, plus 122. -/
def monthDays (month : Int) : Int :=
  306001 * (month + 1) / 10000

/-- The days from the start of a century to a day of a year that begins with March. -/
def centuryDay (rest month day : Int) : Int :=
  365 * rest + rest / 4 + (monthDays month - 122) + (day - 1)

/-- The number of a day, by floors only. -/
def number (d : Ymd) : Int :=
  1721120 + 36524 * (d.marchYear / 100) + d.marchYear / 100 / 4 +
    centuryDay (d.marchYear % 100) d.marchMonth d.day

/-- The days before a year, in a calendar in which every fourth year is a leap year. -/
theorem tdiv_yearDays {year : Int} (hy : -1 ≤ year) :
    Int.tdiv (36525 * (year + 4716)) 100 =
      36525 * (year / 100) + 365 * (year % 100) + year % 100 / 4 + 1722519 := by
  rw [Int.tdiv_eq_ediv_of_nonneg (by omega)]
  omega

theorem tdiv_monthDays {month : Int} (hm : -1 ≤ month) :
    Int.tdiv (306001 * (month + 1)) 10000 = monthDays month :=
  Int.tdiv_eq_ediv_of_nonneg (by omega)

theorem instant_eq {d : Ymd} (hy : -1 ≤ d.marchYear) (hm : 0 ≤ d.marchMonth) :
    d.instant = d.number * dayMillis - 43200000 := by
  -- the year before year 0 is the only one that the quotients see below zero
  have hcentury : 2 - Int.tdiv d.marchYear 100 + Int.tdiv (Int.tdiv d.marchYear 100) 4 =
      2 - d.marchYear / 100 + d.marchYear / 100 / 4 := by
    rcases Int.lt_or_le d.marchYear 0 with hneg | hnonneg
    · have hyear : d.marchYear = -1 := by omega
      rw [hyear]
      decide
    · rw [Int.tdiv_eq_ediv_of_nonneg hnonneg, Int.tdiv_eq_ediv_of_nonneg (by omega)]
  have hinstant : d.instant =
      (2 * (Int.tdiv (36525 * (d.marchYear + 4716)) 100 +
          Int.tdiv (306001 * (d.marchMonth + 1)) 10000 + (d.day : Int) +
          (2 - Int.tdiv d.marchYear 100 + Int.tdiv (Int.tdiv d.marchYear 100) 4)) - 3049) *
        43200000 := rfl
  rw [hinstant, hcentury, tdiv_yearDays hy, tdiv_monthDays (by omega)]
  simp only [number, centuryDay, dayMillis]
  omega

/-- A time of the day does not change the number of an instant. -/
theorem numberOf_instant_add {d : Ymd} (hy : -1 ≤ d.marchYear) (hm : 0 ≤ d.marchMonth)
    {millis : Int} :
    numberOf (d.instant + millis) = d.number + millis / dayMillis := by
  rw [instant_eq hy hm]
  simp only [numberOf, dayMillis]
  omega

/-! ### From the number back to the day -/

/-- The number of a day in a calendar in which every fourth year is a leap year.  The
first day of March of a last century is where the quotient toward zero is exact. -/
theorem shifted_eq {century rest n : Int} (hc : -1 ≤ century) (h0 : 0 ≤ rest)
    (hlast : rest ≤ 36524) (hshort : century % 4 ≠ 3 → rest ≤ 36523)
    (hexact : century % 4 = 3 → century < 4 → rest ≠ 0)
    (hn : n = 1721120 + 36524 * century + century / 4 + rest) :
    n + 1525 + Int.tdiv (4 * n - 7468865) 146097 -
        Int.tdiv (Int.tdiv (4 * n - 7468865) 146097) 4 =
      1722642 + 36525 * century + rest := by
  have hnumerator : 4 * n - 7468865 = 146097 * (century - 4) + (4 * rest + 3 - century % 4) := by
    omega
  rcases Int.lt_or_le century 4 with hlt | hge
  · have hquotient : Int.tdiv (4 * n - 7468865) 146097 = century - 3 := by
      rw [tdiv_of_nonpos (by omega)]
      omega
    rw [hquotient, tdiv_of_nonpos (by omega)]
    omega
  · have hquotient : Int.tdiv (4 * n - 7468865) 146097 = century - 4 := by
      rw [Int.tdiv_eq_ediv_of_nonneg (by omega)]
      omega
    rw [hquotient, Int.tdiv_eq_ediv_of_nonneg (by omega)]
    omega

/-- The year of a shifted number. -/
theorem year_of_shifted {century rest year month day : Int} (hc : -1 ≤ century)
    (hr : 0 ≤ rest) (hr' : rest < 100) (hyear : year = 4716 + 100 * century + rest)
    (hfirst : 122 < monthDays month + day)
    (hlast : monthDays month + day ≤ 487 ∨ monthDays month + day = 488 ∧ rest % 4 = 3) :
    Int.tdiv (20 * (1722642 + 36525 * century + centuryDay rest month day) - 2442) 7305 = year := by
  unfold centuryDay
  rw [Int.tdiv_eq_ediv_of_nonneg (by omega)]
  omega

theorem marchMonth_bounds {d : Ymd} (h : IsDay d.year d.month d.day) :
    3 ≤ d.marchMonth ∧ d.marchMonth ≤ 14 := by
  have := h.month_pos
  have := h.month_le
  unfold marchMonth
  constructor <;> split <;> omega

theorem monthDays_add_day_le {d : Ymd} (h : IsDay d.year d.month d.day) :
    monthDays d.marchMonth + d.day ≤ 487 ∨
      monthDays d.marchMonth + d.day = 488 ∧ d.month = 2 ∧ isLeapYear d.year = true := by
  obtain ⟨year, month, day⟩ := d
  have hpos := h.month_pos
  have hle := h.month_le
  have hday := h.day_le
  clear h
  simp only [monthDays, marchMonth] at *
  interval_cases month <;> simp only [daysInMonth] at hday <;> try (left; norm_num; omega)
  norm_num
  split at hday <;> simp_all <;> omega

theorem month_of_march {d : Ymd} (h : IsDay d.year d.month d.day) :
    (if d.marchMonth + 1 < 14 then d.marchMonth + 1 - 1 else d.marchMonth + 1 - 13) = d.month := by
  have := h.month_pos
  have := h.month_le
  unfold marchMonth
  split <;> split <;> omega

theorem month_of_number {d : Ymd} (h : IsDay d.year d.month d.day) :
    10000 * (monthDays d.marchMonth + d.day) / 306001 = d.marchMonth + 1 := by
  obtain ⟨year, month, day⟩ := d
  have hpos := h.month_pos
  have hle := h.month_le
  have hday := h.day_le
  have hday' := h.day_pos
  clear h
  simp only [monthDays, marchMonth] at *
  interval_cases month <;> simp only [daysInMonth] at hday <;> norm_num <;> first | omega | skip
  split at hday <;> omega

/-- Only a leap year has a day at the end of its February. -/
theorem leap_of_last {d : Ymd} (h : IsDay d.year d.month d.day)
    (h488 : monthDays d.marchMonth + d.day = 488) :
    (d.marchYear + 1) % 4 = 0 ∧ ((d.marchYear + 1) % 100 ≠ 0 ∨ (d.marchYear + 1) % 400 = 0) := by
  obtain hlt | ⟨-, hfeb, hleap⟩ := monthDays_add_day_le h
  · omega
  · have hyear : d.marchYear + 1 = d.year := by
      simp [marchYear, hfeb]
    rw [hyear]
    exact isLeapYear_iff.1 hleap

/-- The first day of a century that begins in the last year but one of a leap cycle. -/
theorem eq_marchFirst300 {d : Ymd} (h : IsDay d.year d.month d.day) (hy : -1 ≤ d.marchYear)
    (hmod : d.marchYear / 100 % 4 = 3) (hlt : d.marchYear / 100 < 4)
    (hzero : centuryDay (d.marchYear % 100) d.marchMonth d.day = 0) : d = ⟨300, 3, 1⟩ := by
  obtain ⟨hm, hm'⟩ := marchMonth_bounds h
  have hmarch : d.marchMonth = 3 ∧ d.day = 1 ∧ d.marchYear = 300 := by
    have hpos := h.day_pos
    unfold centuryDay monthDays at hzero
    omega
  clear hzero
  obtain ⟨year, month, day⟩ := d
  simp only [marchMonth, marchYear] at hmarch
  -- January would be month 13, so the month is March itself
  have hmonth : month = 3 := by
    obtain ⟨hmonth, -, -⟩ := hmarch
    split at hmonth <;> omega
  subst hmonth
  obtain ⟨-, rfl, hyear⟩ := hmarch
  rw [if_neg (by omega)] at hyear
  rw [hyear]

/-- The numbers of a day of the calendar come back from its number, unless the quotient for
the century is exact and below zero. -/
theorem ofNumber_number {d : Ymd} (h : IsDay d.year d.month d.day) (hy : -1 ≤ d.marchYear)
    (hne : d ≠ ⟨300, 3, 1⟩) : ofNumber d.number = d := by
  obtain ⟨hm, hm'⟩ := marchMonth_bounds h
  have hlast := monthDays_add_day_le h
  have hmonth := month_of_number h
  have hfirst : 122 < monthDays d.marchMonth + d.day := by
    have := h.day_pos
    unfold monthDays
    omega
  have hleap := leap_of_last h
  have hexact : d.marchYear / 100 % 4 = 3 → d.marchYear / 100 < 4 →
      centuryDay (d.marchYear % 100) d.marchMonth d.day ≠ 0 :=
    fun hmod hlt hzero => hne (eq_marchFirst300 h hy hmod hlt hzero)
  -- the quotients of the store, one by one: century, year, month
  have hshifted := @shifted_eq (d.marchYear / 100)
    (centuryDay (d.marchYear % 100) d.marchMonth d.day) d.number
    (by omega) (by unfold centuryDay; omega) (by unfold centuryDay; omega)
    (by unfold centuryDay; omega) hexact rfl
  have hyear := @year_of_shifted (d.marchYear / 100) (d.marchYear % 100) (d.marchYear + 4716)
    d.marchMonth d.day
    (by omega) (by omega) (by omega) (by omega) hfirst (by omega)
  have hrest : 1722642 + 36525 * (d.marchYear / 100) +
      centuryDay (d.marchYear % 100) d.marchMonth d.day -
        Int.tdiv (36525 * (d.marchYear + 4716)) 100 = monthDays d.marchMonth + d.day := by
    rw [tdiv_yearDays hy]
    unfold centuryDay
    omega
  have hmonth' : Int.tdiv (10000 * (monthDays d.marchMonth + d.day)) 306001 = d.marchMonth + 1 := by
    rw [Int.tdiv_eq_ediv_of_nonneg (by omega), hmonth]
  have hmonthDays := @tdiv_monthDays d.marchMonth (by omega)
  unfold ofNumber
  simp only [hshifted, hyear, hrest, hmonth', hmonthDays]
  rw [month_of_march h]
  have hyear' : (if (2 : Int) < d.month then d.marchYear + 4716 - 4716
      else d.marchYear + 4716 - 4715) = d.year := by
    unfold marchYear
    split <;> split <;> omega
  rw [hyear']
  simp

/-- The day of the calendar as the store keeps it. -/
def ofDay (d : Day) : Ymd :=
  ⟨d.year, d.month, d.day⟩

theorem number_succ_day (year : Int) (month day : Nat) :
    number ⟨year, month, day + 1⟩ = number ⟨year, month, day⟩ + 1 := by
  have hyear : marchYear ⟨year, month, day + 1⟩ = marchYear ⟨year, month, day⟩ := rfl
  have hmonth : marchMonth ⟨year, month, day + 1⟩ = marchMonth ⟨year, month, day⟩ := rfl
  rw [number, number, hyear, hmonth]
  simp only [centuryDay]
  omega

/-- The day after another one has the next number. -/
theorem number_of_next? {d e : Day} (h : d.next? = some e) :
    (ofDay e).number = (ofDay d).number + 1 := by
  have hpos := d.isDay.month_pos
  have hle := d.isDay.month_le
  have hday := d.isDay.day_le
  unfold Day.next? at h
  split at h
  case isTrue hlt =>
    obtain ⟨hy, hm, hd⟩ := Day.ofYmd?_eq_some_iff.1 h
    have he : ofDay e = ⟨d.year, d.month, d.day + 1⟩ := by
      rw [ofDay, hy, hm, hd]
    rw [he, number_succ_day]
    rfl
  case isFalse hge =>
    split at h
    case isTrue hlt =>
      obtain ⟨hy, hm, hd⟩ := Day.ofYmd?_eq_some_iff.1 h
      -- from the end of a month to the next; only that of February depends on the year
      have hend : d.day = daysInMonth d.year d.month := by omega
      simp only [number, marchYear, marchMonth, centuryDay, monthDays, ofDay, hy, hm, hd, hend]
      generalize d.year = year, d.month = month at *
      clear h hend hge hday hy hm hd
      interval_cases month <;> simp only [daysInMonth] <;> norm_num <;> try omega
      by_cases hleap : isLeapYear year = true
      · rw [if_pos hleap]
        have := isLeapYear_iff.1 hleap
        omega
      · rw [if_neg hleap]
        have := mt isLeapYear_iff.2 hleap
        omega
    case isFalse hge' =>
      obtain ⟨hy, hm, hd⟩ := Day.ofYmd?_eq_some_iff.1 h
      have hmonth : d.month = 12 := by omega
      have hend : d.day = 31 := by
        rw [hmonth] at hge hday
        simp only [daysInMonth] at hge hday
        omega
      simp only [number, marchYear, marchMonth, centuryDay, monthDays, ofDay, hy, hm, hd, hmonth,
        hend]
      norm_num
      omega

/-! ### Years of numbers -/

/-- The number of a day in a calendar in which every fourth year is a leap year. -/
def shiftedOf (n : Int) : Int :=
  let century := Int.tdiv (4 * n - 7468865) 146097
  n + 1525 + century - Int.tdiv century 4

/-- A number comes out in a year or a later one from January of that year on. -/
theorem le_year_ofNumber_iff {n year : Int} (h : 123 ≤ shiftedOf n) :
    year ≤ (ofNumber n).year ↔ 36525 * (year + 4715) / 100 + 429 ≤ shiftedOf n := by
  have hexpand : shiftedOf n = n + 1525 + Int.tdiv (4 * n - 7468865) 146097 -
      Int.tdiv (Int.tdiv (4 * n - 7468865) 146097) 4 := rfl
  simp only [ofNumber]
  rw [← hexpand]
  generalize shiftedOf n = shifted at *
  -- nothing is below zero here, so the quotients are floors
  have hmarch : Int.tdiv (20 * shifted - 2442) 7305 = (20 * shifted - 2442) / 7305 :=
    Int.tdiv_eq_ediv_of_nonneg (by omega)
  rw [hmarch]
  generalize hy : (20 * shifted - 2442) / 7305 = march
  have hyearDays : Int.tdiv (36525 * march) 100 = 36525 * march / 100 :=
    Int.tdiv_eq_ediv_of_nonneg (by omega)
  rw [hyearDays]
  have hmonth : Int.tdiv (10000 * (shifted - 36525 * march / 100)) 306001 =
      10000 * (shifted - 36525 * march / 100) / 306001 :=
    Int.tdiv_eq_ediv_of_nonneg (by omega)
  rw [hmonth]
  -- a year begins in January of the year that began in March before it
  obtain hbefore | hsame | hafter :
      march < year + 4715 ∨ march = year + 4715 ∨ year + 4715 < march := by omega
  · split <;> split <;> omega
  · subst hsame
    split <;> split <;> omega
  · split <;> split <;> omega

/-- The two quotients for the century make up for the leap days that are left out. -/
theorem shiftedOf_bounds {n : Int} (h : 0 ≤ n) :
    n + 1484 ≤ shiftedOf n ∧ (n < 1721060 → shiftedOf n ≤ n + 1522) ∧
      (n ≤ 5373484 → shiftedOf n ≤ n + 1597) := by
  simp only [shiftedOf]
  obtain hneg | hnonneg := Int.lt_or_le (4 * n - 7468865) 0
  · rw [tdiv_of_nonpos (Int.le_of_lt hneg), tdiv_of_nonpos (by omega)]
    omega
  · rw [Int.tdiv_eq_ediv_of_nonneg hnonneg, Int.tdiv_eq_ediv_of_nonneg (by omega)]
    omega

/-- The years that come out of a number that the store can compute with. -/
theorem ofNumber_year_bounds {n : Int} (h0 : 0 ≤ n) (h1 : n ≤ 5373484) :
    -4713 ≤ (ofNumber n).year ∧ (ofNumber n).year ≤ 9999 := by
  obtain ⟨hlow, -, hhigh⟩ := shiftedOf_bounds h0
  have hlate := @le_year_ofNumber_iff n 10000 (by omega)
  constructor
  · rw [le_year_ofNumber_iff (by omega)]
    omega
  · omega

/-- The numbers before that of the first day of year 0 come out as days of earlier years. -/
theorem year_neg_of_lt {n : Int} (h0 : 0 ≤ n) (h1 : n < 1721060) : (ofNumber n).year < 0 := by
  obtain ⟨hlow, hhigh, -⟩ := shiftedOf_bounds h0
  have hzero := @le_year_ofNumber_iff n 0 (by omega)
  omega

/-! ### Instants of a day -/

theorem toDay?_eq_some_iff {y : Ymd} {d : Day} : y.toDay? = some d ↔ y = ofDay d := by
  obtain ⟨year, month, day⟩ := y
  rw [toDay?, Day.ofYmd?_eq_some_iff, ofDay, Ymd.mk.injEq]
  simp only [eq_comm]

@[simp]
theorem ofDay_inj {d e : Day} : ofDay d = ofDay e ↔ d = e := by
  rw [ofDay, ofDay, Ymd.mk.injEq, Day.ext_iff]

theorem marchYear_bounds (d : Day) :
    d.year - 1 ≤ (ofDay d).marchYear ∧ (ofDay d).marchYear ≤ d.year := by
  have h : ∀ y : Ymd, y.year - 1 ≤ y.marchYear ∧ y.marchYear ≤ y.year := by
    intro y
    unfold marchYear
    constructor <;> split <;> omega
  exact h (ofDay d)

/-- The day that the store computes in place of 0300-03-01. -/
def stray : Ymd := ⟨300, 2, 29⟩

theorem ofNumber_marchFirst300 : ofNumber (number ⟨300, 3, 1⟩) = stray := by
  decide

/-- The year 300 has no 29th of February. -/
theorem stray_ne_ofDay (d : Day) : stray ≠ ofDay d := by
  intro h
  have hday := toDay?_eq_some_iff.2 h
  exact absurd hday (by simp [stray, toDay?, Day.ofYmd?, show ¬ IsDay 300 2 29 by decide])

/-- A number next to that of a day does not come out as that day. -/
theorem ofNumber_ne_of_number_ne {d e : Day} (he : -1 ≤ (ofDay e).marchYear) (hne : d ≠ e) :
    ofNumber (ofDay e).number ≠ ofDay d := by
  by_cases hmarch : ofDay e = ⟨300, 3, 1⟩
  · rw [hmarch, ofNumber_marchFirst300]
    exact stray_ne_ofDay d
  · rw [ofNumber_number e.isDay he hmarch]
    intro h
    exact hne (ofDay_inj.1 h).symm

/-- An instant within a day of the start of a day falls on that day exactly if it lies
between its start and its end, and the day is not 0300-03-01. -/
theorem ofInstant_eq_iff {d : Day} (h0 : 0 ≤ d.year) (h1 : d.year ≤ 9999) {millis : Int}
    (hlow : -dayMillis ≤ millis) (hhigh : millis < 2 * dayMillis) :
    ofInstant ((ofDay d).instant + millis) = ofDay d ↔
      0 ≤ millis ∧ millis < dayMillis ∧ ofDay d ≠ ⟨300, 3, 1⟩ := by
  have hyear := marchYear_bounds d
  have hmonth := marchMonth_bounds (d := ofDay d) d.isDay
  rw [ofInstant_eq_ofNumber, numberOf_instant_add (by omega) (by omega)]
  unfold dayMillis at *
  -- outside the day the number is that of the day before or after, which comes out as itself
  obtain hbefore | hinside | hafter :
      millis < 0 ∨ (0 ≤ millis ∧ millis < 86400000) ∨ 86400000 ≤ millis := by omega
  · obtain ⟨e, he⟩ := Day.exists_prev (d := d) (by unfold firstYear; omega)
    have hnumber := number_of_next? (Day.next?_of_prev? he)
    have hmarch : -1 ≤ (ofDay e).marchYear := by
      obtain hsame | ⟨hlast, hdecember⟩ := Day.year_of_prev? he
      · have := marchYear_bounds e
        omega
      · simp only [marchYear, ofDay, hdecember]
        omega
    have hquotient : (ofDay d).number + millis / 86400000 = (ofDay e).number := by omega
    have hne : d ≠ e := by
      rintro rfl
      omega
    rw [hquotient]
    constructor
    · intro h
      exact absurd h (ofNumber_ne_of_number_ne hmarch hne)
    · omega
  · have hquotient : (ofDay d).number + millis / 86400000 = (ofDay d).number := by omega
    rw [hquotient]
    constructor
    · intro h
      refine ⟨hinside.1, hinside.2, fun hmarch => ?_⟩
      have hnumber : (ofDay d).number = number ⟨300, 3, 1⟩ := by rw [hmarch]
      rw [hnumber, ofNumber_marchFirst300] at h
      exact stray_ne_ofDay d h
    · rintro ⟨-, -, hne⟩
      exact ofNumber_number d.isDay (by omega) hne
  · obtain ⟨e, he⟩ := Day.exists_next (d := d) (by unfold lastYear; omega)
    have hnumber := number_of_next? he
    have hmarch : -1 ≤ (ofDay e).marchYear := by
      have := Day.year_of_next? he
      have := marchYear_bounds e
      omega
    have hquotient : (ofDay d).number + millis / 86400000 = (ofDay e).number := by omega
    have hne : d ≠ e := by
      rintro rfl
      omega
    rw [hquotient]
    constructor
    · intro h
      exact absurd h (ofNumber_ne_of_number_ne hmarch hne)
    · omega

/-! ### Days of the calendar -/

/-- The first day of year 0. -/
def firstOfYearZero : Day := ⟨0, 1, 1, by decide⟩

/-- Every number from that of the first day of year 0 on belongs to a day. -/
theorem exists_number_eq (k : Nat) (hk : k ≤ 3652424) :
    ∃ d : Day, 0 ≤ d.year ∧ (ofDay d).number = 1721060 + k := by
  induction k with
  | zero => exact ⟨firstOfYearZero, by decide, by decide⟩
  | succ k ih =>
    obtain ⟨d, hyear, hnumber⟩ := ih (by omega)
    have hlast : d.year < lastYear := by
      have hbounds := marchYear_bounds d
      have hmonth := marchMonth_bounds (d := ofDay d) d.isDay
      have hday := d.isDay.day_pos
      simp only [number, centuryDay, monthDays] at hnumber
      unfold lastYear
      omega
    obtain ⟨e, he⟩ := Day.exists_next hlast
    refine ⟨e, hyear.trans (Day.year_of_next? he), ?_⟩
    rw [number_of_next? he, hnumber]
    omega

/-- A year that is not negative comes out with a day of the calendar, but for the day that is
computed in place of 0300-03-01. -/
theorem ofNumber_of_year_nonneg {n : Int} (h0 : 0 ≤ n) (h1 : n ≤ 5373484)
    (hyear : 0 ≤ (ofNumber n).year) :
    (∃ d, ofNumber n = ofDay d) ∨ ofNumber n = stray := by
  have hfirst : 1721060 ≤ n := by
    by_contra hlt
    have := year_neg_of_lt h0 (Int.not_le.1 hlt)
    omega
  obtain ⟨d, hd, hnumber⟩ := exists_number_eq (n - 1721060).toNat (by omega)
  have hn : n = (ofDay d).number := by omega
  have hmarch := marchYear_bounds d
  rw [hn]
  by_cases hmissed : ofDay d = ⟨300, 3, 1⟩
  · rw [hmissed]
    exact .inr ofNumber_marchFirst300
  · exact .inl ⟨d, ofNumber_number d.isDay (by omega) hmissed⟩

end Ymd

end CrashReports.Store
