import CrashReports.Calendar.Layout

/-!
# Timestamps of crashes

The lenient reading of a stored time as a date-time.  Five layouts are tried in
turn: day and time with a blank or a `T` between them, the same two with an offset
from universal time, and a day alone.  The offset is dropped, so the date-time is
the wall time where the crash was recorded.  A text that no layout fits has no
date-time.
-/

namespace CrashReports.Timestamp

/-- Day and time with blanks, or nothing, between them. -/
def spaced : Layout :=
  [.year, .mark '-', .month, .mark '-', .day, .gap, .hour, .mark ':', .minute, .mark ':',
    .second, .fraction]

/-- Day and time with a `T` between them. -/
def lettered : Layout :=
  [.year, .mark '-', .month, .mark '-', .day, .mark 'T', .hour, .mark ':', .minute, .mark ':',
    .second, .fraction]

/-- Whether universal time, so many minutes behind, lies in the calendar too. -/
def hasUniversalTime (t : DateTime) (offset : Int) : Bool :=
  let seconds : Int := (t.time.seconds : Int) - offset * 60
  if seconds < 0 then t.day.prev?.isSome
  else if 86400 ≤ seconds then t.day.next?.isSome
  else true

/-- Read a date-time by a layout without an offset. -/
def readLocal (layout : Layout) (cs : List Char) : Option DateTime :=
  match layout.read cs with
  | .ok p => p.toDateTime.toOption
  | .error _ => none

/-- Read a date-time by a layout with an offset of less than a day at its end. -/
def readOffset (layout : Layout) (cs : List Char) : Option DateTime :=
  match (layout ++ [LayoutItem.offset]).read cs with
  | .ok p =>
    match p.toDateTime with
    | .ok t => if p.offset.natAbs < 1440 ∧ hasUniversalTime t p.offset then some t else none
    | .error _ => none
  | .error _ => none

/-- Read a day as its midnight. -/
def readMidnight (cs : List Char) : Option DateTime :=
  (Day.parsePlain cs).toOption.map DateTime.atMidnight

/-- The layouts in the order in which they are tried. -/
def readers : List (List Char → Option DateTime) :=
  [readLocal spaced, readLocal lettered, readOffset spaced, readOffset lettered, readMidnight]

/-- Read a stored time, without the blanks at its ends. -/
def parse (text : String) : Option DateTime :=
  readers.findSome? fun read => read (Text.trimBlanks text.toList)

end CrashReports.Timestamp
