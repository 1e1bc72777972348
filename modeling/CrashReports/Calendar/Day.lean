import CrashReports.Text.Character

/-!
# Calendar days

Days of the Gregorian calendar, extended to years before its introduction and to
year 0 and the negative years.  The years run from -262143 to 262142.  A day is
written `YYYY-MM-DD`; a year that does not fit in four digits carries a sign.

`Day.ofYmd?` is the only way to a day from three numbers, and `Day.rank` counts
days in an order-preserving way, so that all comparisons are comparisons of
integers.
-/

namespace CrashReports

/-- Whether a year has a 29th of February. -/
def isLeapYear (year : Int) : Bool :=
  year % 4 == 0 && (year % 100 != 0 || year % 400 == 0)

/-- The number of days of a month; 0 for a month that does not exist. -/
def daysInMonth (year : Int) (month : Nat) : Nat :=
  match month with
  | 1 | 3 | 5 | 7 | 8 | 10 | 12 => 31
  | 4 | 6 | 9 | 11 => 30
  | 2 => if isLeapYear year then 29 else 28
  | _ => 0

/-- A year in four digits, or with a sign and at least four digits. -/
def renderYear (year : Int) : List Char :=
  if 0 ≤ year ∧ year ≤ 9999 then Text.padded 4 year.natAbs
  else (if year < 0 then '-' else '+') :: Text.padded 4 year.natAbs

/-- Year, month and day of the month as text. -/
def renderYmd (year : Int) (month day : Nat) : List Char :=
  renderYear year ++ '-' :: Text.padded 2 month ++ '-' :: Text.padded 2 day

/-- The first year of the calendar. -/
def firstYear : Int := -262143

/-- The last year of the calendar. -/
def lastYear : Int := 262142

/-- Year, month and day name a day of the calendar. -/
structure IsDay (year : Int) (month day : Nat) : Prop where
  first_le : firstYear ≤ year
  le_last : year ≤ lastYear
  month_pos : 1 ≤ month
  month_le : month ≤ 12
  day_pos : 1 ≤ day
  day_le : day ≤ daysInMonth year month

instance (year : Int) (month day : Nat) : Decidable (IsDay year month day) :=
  decidable_of_iff
    (firstYear ≤ year ∧ year ≤ lastYear ∧ 1 ≤ month ∧ month ≤ 12 ∧ 1 ≤ day ∧
      day ≤ daysInMonth year month)
    ⟨fun ⟨a, b, c, d, e, f⟩ => ⟨a, b, c, d, e, f⟩, fun h =>
      ⟨h.first_le, h.le_last, h.month_pos, h.month_le, h.day_pos, h.day_le⟩⟩

/-- A day of the calendar. -/
@[ext]
structure Day where
  year : Int
  month : Nat
  day : Nat
  isDay : IsDay year month day
deriving DecidableEq

namespace Day

/-- The day with the given year, month and day of the month, if there is one. -/
def ofYmd? (year : Int) (month day : Nat) : Option Day :=
  if h : IsDay year month day then some ⟨year, month, day, h⟩ else none

/-- The position of a day in a calendar whose months all have 31 days.  It keeps
the order of days, and different days have different positions. -/
def rank (d : Day) : Int :=
  d.year * 372 + ((d.month : Int) - 1) * 31 + ((d.day : Int) - 1)

instance : LE Day := ⟨fun a b => a.rank ≤ b.rank⟩
instance : LT Day := ⟨fun a b => a.rank < b.rank⟩

instance (a b : Day) : Decidable (a ≤ b) := inferInstanceAs (Decidable (a.rank ≤ b.rank))
instance (a b : Day) : Decidable (a < b) := inferInstanceAs (Decidable (a.rank < b.rank))

/-- The written form of a day. -/
def render (d : Day) : List Char :=
  renderYmd d.year d.month d.day

instance : ToString Day := ⟨fun d => String.ofList d.render⟩

/-- The day after, except at the end of the calendar. -/
def next? (d : Day) : Option Day :=
  if d.day < daysInMonth d.year d.month then ofYmd? d.year d.month (d.day + 1)
  else if d.month < 12 then ofYmd? d.year (d.month + 1) 1
  else ofYmd? (d.year + 1) 1 1

/-- The day before, except at the start of the calendar. -/
def prev? (d : Day) : Option Day :=
  if 1 < d.day then ofYmd? d.year d.month (d.day - 1)
  else if 1 < d.month then ofYmd? d.year (d.month - 1) (daysInMonth d.year (d.month - 1))
  else ofYmd? (d.year - 1) 12 31

theorem le_def {a b : Day} : a ≤ b ↔ a.rank ≤ b.rank := Iff.rfl

theorem lt_def {a b : Day} : a < b ↔ a.rank < b.rank := Iff.rfl

theorem day_le_thirtyOne (d : Day) : d.day ≤ 31 := by
  have h := d.isDay.day_le
  unfold daysInMonth at h
  split at h <;> try omega
  split at h <;> omega

theorem rank_inj {a b : Day} : a.rank = b.rank ↔ a = b := by
  refine ⟨fun h => ?_, fun h => h ▸ rfl⟩
  have ha := a.day_le_thirtyOne
  have hb := b.day_le_thirtyOne
  have := a.isDay.month_pos
  have := a.isDay.month_le
  have := a.isDay.day_pos
  have := b.isDay.month_pos
  have := b.isDay.month_le
  have := b.isDay.day_pos
  unfold rank at h
  ext <;> omega

theorem le_total (a b : Day) : a ≤ b ∨ b ≤ a :=
  Int.le_total a.rank b.rank

theorem le_antisymm {a b : Day} (h : a ≤ b) (h' : b ≤ a) : a = b :=
  rank_inj.1 (Int.le_antisymm h h')

theorem ofYmd?_eq_some_iff {year : Int} {month day : Nat} {d : Day} :
    ofYmd? year month day = some d ↔ d.year = year ∧ d.month = month ∧ d.day = day := by
  unfold ofYmd?
  split
  case isTrue h =>
    constructor
    · rintro ⟨⟩
      exact ⟨rfl, rfl, rfl⟩
    · rintro ⟨rfl, rfl, rfl⟩
      rfl
  case isFalse h =>
    constructor
    · intro h'
      cases h'
    · rintro ⟨rfl, rfl, rfl⟩
      exact absurd d.isDay h

end Day

end CrashReports
