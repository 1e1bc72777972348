import CrashReports.Calendar.Layout
import CrashReports.Text.Quoted

/-!
# Day ranges

The inclusive range of calendar days that a query is limited to.  Its ends are
in order by type.  A range is made from two days, from two date-times, whose
time of day is ignored, or from two texts.  Of several faults of the texts the
first in this order is reported: a malformed start, a malformed end, a missing
end, ends in the wrong order.
-/

namespace CrashReports

/-- Why two endpoints are no range. -/
inductive RangeError where
  /-- An endpoint is missing. -/
  | incomplete
  /-- The start lies after the end. -/
  | inverted (start stop : Day)
  /-- A text is no day. -/
  | malformed (text : String)
deriving DecidableEq

/-- The wording of a range error. -/
def RangeError.message : RangeError → String
  | .incomplete => "date range is incomplete: both start and end dates are required"
  | .inverted start stop =>
    "date range is inverted: start " ++ toString start ++ " is after end " ++ toString stop
  | .malformed text =>
    "Incorrect date format, should be YYYY-MM-DD (got " ++ Text.quote text ++ ")"

/-- An inclusive range of days. -/
@[ext]
structure DayRange where
  start : Day
  stop : Day
  start_le_stop : start ≤ stop
deriving DecidableEq

namespace DayRange

/-- A day lies in a range. -/
def Contains (r : DayRange) (d : Day) : Prop :=
  r.start ≤ d ∧ d ≤ r.stop

instance (r : DayRange) (d : Day) : Decidable (r.Contains d) :=
  inferInstanceAs (Decidable (_ ∧ _))

/-- The range between two days. -/
def ofDays : Option Day → Option Day → Except RangeError DayRange
  | some start, some stop =>
    if h : start ≤ stop then .ok ⟨start, stop, h⟩ else .error (.inverted start stop)
  | _, _ => .error .incomplete

/-- The range between the days of two date-times. -/
def ofDateTimes (start stop : Option DateTime) : Except RangeError DayRange :=
  ofDays (start.map DateTime.day) (stop.map DateTime.day)

/-- Read one endpoint; a missing or blank text is no endpoint. -/
def parseEndpoint : Option String → Except RangeError (Option Day)
  | none => .ok none
  | some text =>
    match Text.trimBlanks text.toList with
    | [] => .ok none
    | cs =>
      match Day.parsePlain cs with
      | .ok d => .ok (some d)
      | .error _ => .error (.malformed (String.ofList cs))

/-- Read a range from the texts of its ends. -/
def parse (start stop : Option String) : Except RangeError DayRange := do
  let first ← parseEndpoint start
  let last ← parseEndpoint stop
  ofDays first last

/-- The texts of the first and the last day, as they are handed to a source. -/
def bounds (r : DayRange) : String × String :=
  (toString r.start, toString r.stop)

end DayRange

end CrashReports
