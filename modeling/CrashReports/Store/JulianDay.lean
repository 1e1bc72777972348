import CrashReports.Calendar.Day

/-!
# Days and instants of the store

The store counts time in milliseconds since noon of -4713-11-24, and turns days
into instants and back by formulas of its own.  Their quotients are rounded toward
zero.  Before March of the year 400 an instant can therefore come out a day off, and
as the 29th of February of a year that has none; so a day of the store is only
three numbers, which may or may not name a day of the calendar.
-/

namespace CrashReports.Store

/-- Year, month and day of the month as the store keeps them. -/
structure Ymd where
  year : Int
  month : Nat
  day : Nat
deriving DecidableEq

/-- Milliseconds in a day. -/
def dayMillis : Int := 86400000

/-- The last instant that the store can compute with, at the end of the year 9999. -/
def lastInstant : Int := 464269060799999

/-- Whether the store can compute with an instant. -/
def isInstant (t : Int) : Bool :=
  0 ≤ t && t ≤ lastInstant

namespace Ymd

/-- The written form. -/
def render (d : Ymd) : List Char :=
  renderYmd d.year d.month d.day

instance : ToString Ymd := ⟨fun d => String.ofList d.render⟩

/-- The day of the calendar that the numbers name, if they do. -/
def toDay? (d : Ymd) : Option Day :=
  Day.ofYmd? d.year d.month d.day

/-- The instant at which a day begins.  A year begins with March here, so that the
leap day comes last, and a day past the end of its month counts on into the next
one. -/
def instant (d : Ymd) : Int :=
  let year := if d.month ≤ 2 then d.year - 1 else d.year
  let month : Int := if d.month ≤ 2 then (d.month : Int) + 12 else d.month
  let century := Int.tdiv year 100
  let leap := 2 - century + Int.tdiv century 4
  let yearDays := Int.tdiv (36525 * (year + 4716)) 100
  let monthDays := Int.tdiv (306001 * (month + 1)) 10000
  (2 * (yearDays + monthDays + (d.day : Int) + leap) - 3049) * 43200000

/-- The day that an instant falls on. -/
def ofInstant (t : Int) : Ymd :=
  let number := (t + 43200000) / dayMillis
  let century := Int.tdiv (4 * number - 7468865) 146097
  let shifted := number + 1525 + century - Int.tdiv century 4
  let year := Int.tdiv (20 * shifted - 2442) 7305
  let yearDays := Int.tdiv (36525 * year) 100
  let month := Int.tdiv (10000 * (shifted - yearDays)) 306001
  let monthDays := Int.tdiv (306001 * month) 10000
  let month := if month < 14 then month - 1 else month - 13
  ⟨if 2 < month then year - 4716 else year - 4715, month.natAbs,
    (shifted - yearDays - monthDays).natAbs⟩

end Ymd

end CrashReports.Store
