import CrashReports.Calendar.Day

/-!
# TOML dates and times

The forms of a date, of a time, and of both together with or without an offset.
The seconds may be missing, and the second 60 is allowed.  Nothing of a moment is
kept but its text.
-/

namespace CrashReports.Toml

/-- A number of exactly so many digits, and the rest of the text. -/
def fixedDigits? (width : Nat) (cs : List Char) : Option (Nat × List Char) :=
  let ds := cs.take width
  if ds.length = width ∧ ds.all Char.isDigit then some (Text.digitsValue ds, cs.drop width)
  else none

/-- The rest of a text after a character that it must begin with. -/
def expect? (c : Char) : List Char → Option (List Char)
  | d :: cs => if d = c then some cs else none
  | [] => none

/-- What follows a date that the text begins with. -/
def afterDate? (cs : List Char) : Option (List Char) := do
  let (year, cs) ← fixedDigits? 4 cs
  let cs ← expect? '-' cs
  let (month, cs) ← fixedDigits? 2 cs
  let cs ← expect? '-' cs
  let (day, cs) ← fixedDigits? 2 cs
  if 1 ≤ day ∧ day ≤ daysInMonth year month then some cs else none

/-- What follows the digits after a point, if there is a point. -/
def afterFraction? : List Char → Option (List Char)
  | '.' :: cs =>
    let (ds, rest) := Text.spanDigits cs
    if ds = [] then none else some rest
  | cs => some cs

/-- What follows the seconds, if there are seconds. -/
def afterSeconds? : List Char → Option (List Char)
  | ':' :: cs => do
    let (second, cs) ← fixedDigits? 2 cs
    if second ≤ 60 then afterFraction? cs else none
  | cs => some cs

/-- What follows a time that the text begins with. -/
def afterTime? (cs : List Char) : Option (List Char) := do
  let (hour, cs) ← fixedDigits? 2 cs
  let cs ← expect? ':' cs
  let (minute, cs) ← fixedDigits? 2 cs
  if hour ≤ 23 ∧ minute ≤ 59 then afterSeconds? cs else none

/-- Whether a text is an offset from universal time, or empty. -/
def isOffset : List Char → Bool
  | [] => true
  | ['Z'] => true
  | ['z'] => true
  | c :: cs =>
    (c == '+' || c == '-') &&
      match fixedDigits? 2 cs with
      | some (hour, ':' :: cs) =>
        match fixedDigits? 2 cs with
        | some (minute, []) => hour ≤ 23 && minute ≤ 59
        | _ => false
      | _ => false

/-- Whether a text is a date alone. -/
def isDate (cs : List Char) : Bool :=
  afterDate? cs == some []

/-- Whether a character may stand between a date and a time. -/
def isDateTimeMark (c : Char) : Bool :=
  c == 'T' || c == 't' || c == ' '

/-- Whether a text is a date, a time, or both. -/
def isMoment (cs : List Char) : Bool :=
  match afterDate? cs with
  | some [] => true
  | some (c :: cs) =>
    isDateTimeMark c &&
      match afterTime? cs with
      | some rest => isOffset rest
      | none => false
  | none => afterTime? cs == some []

end CrashReports.Toml
