import CrashReports.Calendar.Day

/-!
# Date-times

A day with a time of day to the nanosecond, without a time zone.  A second may be
inserted after any other: its nanoseconds go on from those of the second before it.
The written form is `YYYY-MM-DDTHH:MM:SS`, then a point and 3, 6 or 9 digits if the
second has a fraction.  There an inserted second has the number after that of the
second before it, so that one after second 59 is second 60.  Any other is written as
the regular second that follows, and a reader takes it for that one.
-/

namespace CrashReports

/-- A time of day; from 1000000000 nanoseconds on it is in a second that is inserted after
the one it names. -/
@[ext]
structure TimeOfDay where
  hour : Nat
  minute : Nat
  second : Nat
  nano : Nat
  hour_lt : hour < 24
  minute_lt : minute < 60
  second_lt : second < 60
  nano_lt : nano < 2000000000
deriving DecidableEq

/-- A time of day on a calendar day. -/
@[ext]
structure DateTime where
  day : Day
  time : TimeOfDay
deriving DecidableEq

namespace TimeOfDay

/-- The time with the given written parts, if they are in their ranges.  Second 60 is the
one that is inserted after second 59. -/
def ofParts? (hour minute second nano : Nat) : Option TimeOfDay :=
  if h : hour < 24 ∧ minute < 60 ∧ second ≤ 60 ∧ nano < 1000000000 then
    some ⟨hour, minute, min second 59, second / 60 * 1000000000 + nano, h.1, h.2.1,
      by omega, by omega⟩
  else
    none

/-- The start of a day. -/
def midnight : TimeOfDay :=
  ⟨0, 0, 0, 0, by decide, by decide, by decide, by decide⟩

/-- The second as it is written. -/
def shownSecond (t : TimeOfDay) : Nat :=
  t.second + t.nano / 1000000000

/-- The nanoseconds of the second that is written. -/
def shownNano (t : TimeOfDay) : Nat :=
  t.nano % 1000000000

/-- The fraction of the second in as few groups of three digits as it needs. -/
def renderFraction (nano : Nat) : List Char :=
  if nano = 0 then []
  else if nano % 1000000 = 0 then '.' :: Text.padded 3 (nano / 1000000)
  else if nano % 1000 = 0 then '.' :: Text.padded 6 (nano / 1000)
  else '.' :: Text.padded 9 nano

/-- The written form `HH:MM:SS`, with the fraction of the second. -/
def render (t : TimeOfDay) : List Char :=
  Text.padded 2 t.hour ++ ':' :: Text.padded 2 t.minute ++ ':' :: Text.padded 2 t.shownSecond ++
    renderFraction t.shownNano

/-- Seconds since the start of the day. -/
def seconds (t : TimeOfDay) : Nat :=
  t.hour * 3600 + t.minute * 60 + t.second

end TimeOfDay

namespace DateTime

/-- The start of a day. -/
def atMidnight (d : Day) : DateTime :=
  ⟨d, .midnight⟩

/-- The written form, with a given character between day and time. -/
def renderWith (separator : Char) (t : DateTime) : List Char :=
  t.day.render ++ separator :: t.time.render

/-- The written form, with `T` between day and time. -/
def render (t : DateTime) : List Char :=
  t.renderWith 'T'

instance : ToString DateTime := ⟨fun t => String.ofList t.render⟩

end DateTime

end CrashReports
