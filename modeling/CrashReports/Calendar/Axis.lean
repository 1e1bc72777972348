import CrashReports.Calendar.Day

/-!
# Axes of days

Ascending lists of distinct days, and the search for a day in one by halving.
-/

namespace CrashReports.Axis

/-- Put a day into an ascending list, unless it is there already. -/
def insert (d : Day) : List Day → List Day
  | [] => [d]
  | e :: rest =>
    if d = e then e :: rest
    else if d < e then d :: e :: rest
    else e :: insert d rest

/-- The distinct days of a list, in ascending order. -/
def ofDays (days : List Day) : List Day :=
  days.foldl (fun axis d => insert d axis) []

/-- Search between two indices by halving; the first argument bounds the number
of steps. -/
def searchBetween (axis : List Day) (d : Day) : Nat → Nat → Nat → Option Nat
  | 0, _, _ => none
  | steps + 1, low, high =>
    if low < high then
      let middle := (low + high) / 2
      match axis[middle]? with
      | none => none
      | some e =>
        if e = d then some middle
        else if e < d then searchBetween axis d steps (middle + 1) high
        else searchBetween axis d steps low middle
    else none

/-- The index of a day in an ascending list. -/
def search (axis : List Day) (d : Day) : Option Nat :=
  searchBetween axis d axis.length 0 axis.length

theorem mem_insert {d e : Day} {axis : List Day} : e ∈ insert d axis ↔ e = d ∨ e ∈ axis := by
  induction axis with
  | nil => simp [insert]
  | cons a rest ih =>
    unfold insert
    split
    case isTrue h => subst h; simp
    case isFalse h =>
      split
      · simp
      · simp only [List.mem_cons, ih]
        exact or_left_comm

end CrashReports.Axis
