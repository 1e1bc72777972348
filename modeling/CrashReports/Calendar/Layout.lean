import CrashReports.Calendar.DateTime
import CrashReports.Text.Character

/-!
# Layouts of date text

A layout lists what a date text is made of, from left to right: numbers, marks
and gaps.  Reading follows the layout, checks the range of each number as it is
read, and stops at the first fault.  The whole text has to be used up before the
numbers are looked at together, so trailing text is reported before a day that
does not exist.

A gap stands for any run of blanks, also none.  Blanks are also skipped before
every number, but not before a sign, a mark or a fraction.
-/

namespace CrashReports

/-- Why a date text cannot be read. -/
inductive DateFault where
  /-- The text ends too early. -/
  | short
  /-- A character does not fit the layout. -/
  | invalid
  /-- The text goes on after the layout. -/
  | trailing
  /-- A number is out of its range, or the numbers name no day. -/
  | outOfRange
deriving DecidableEq

/-- The wording of a fault. -/
def DateFault.message : DateFault → String
  | .short => "premature end of input"
  | .invalid => "input contains invalid characters"
  | .trailing => "trailing input"
  | .outOfRange => "input is out of range"

/-- One part of a layout. -/
inductive LayoutItem where
  /-- A year: four digits at most, or a sign and any number of digits. -/
  | year
  | month
  | day
  | hour
  | minute
  | second
  /-- A point and the digits of a fraction of a second, or nothing. -/
  | fraction
  /-- The distance from universal time in hours and minutes. -/
  | offset
  /-- A given character. -/
  | mark (c : Char)
  /-- Any run of blanks. -/
  | gap
deriving DecidableEq

/-- The order and kind of the parts of a date text. -/
abbrev Layout := List LayoutItem

/-- The numbers of a date text.  A part that the layout does not name keeps the
value it has here. -/
structure DateParts where
  year : Int := 0
  month : Nat := 1
  day : Nat := 1
  hour : Nat := 0
  minute : Nat := 0
  second : Nat := 0
  nano : Nat := 0
  /-- Minutes ahead of universal time. -/
  offset : Int := 0

/-- Read the number at the start of a text from its first `width` digits. -/
def readDigits (width : Nat) (cs : List Char) : Except DateFault (Nat × List Char) :=
  match cs with
  | [] => .error .short
  | _ =>
    let digits := (cs.take width).takeWhile Char.isDigit
    if digits = [] then .error .invalid
    else .ok (Text.digitsValue digits, cs.drop digits.length)

/-- Read a number with bounds after any blanks. -/
def readWithin (width low high : Nat) (cs : List Char) :
    Except DateFault (Nat × List Char) := do
  let (n, rest) ← readDigits width (Text.skipBlanks cs)
  if low ≤ n ∧ n ≤ high then pure (n, rest) else throw .outOfRange

/-- Read a year after any blanks. -/
def readYear (cs : List Char) : Except DateFault (Int × List Char) := do
  let cs := Text.skipBlanks cs
  let (year, rest) ← match cs with
    | '-' :: cs => do
      let (n, rest) ← readDigits cs.length cs
      pure (-(n : Int), rest)
    | '+' :: cs => do
      let (n, rest) ← readDigits cs.length cs
      pure ((n : Int), rest)
    | cs => do
      let (n, rest) ← readDigits 4 cs
      pure ((n : Int), rest)
  if -2147483648 ≤ year ∧ year ≤ 2147483647 then pure (year, rest) else throw .outOfRange

/-- Read a fraction of a second as nanoseconds; further digits are dropped. -/
def readFraction (cs : List Char) : Except DateFault (Nat × List Char) :=
  match cs with
  | '.' :: cs => do
    let (n, rest) ← readDigits 9 cs
    let width := cs.length - rest.length
    pure (n * Nat.pow 10 (9 - width), rest.dropWhile Char.isDigit)
  | cs => pure (0, cs)

/-- Read two digits that stand side by side. -/
def readPair (cs : List Char) : Except DateFault (Nat × List Char) :=
  match cs with
  | a :: b :: rest =>
    if a.isDigit ∧ b.isDigit then .ok (Text.digitsValue [a, b], rest) else .error .invalid
  | _ => .error .short

/-- Whether a character may stand between the hours and minutes of an offset. -/
def isOffsetSeparator (c : Char) : Bool :=
  c == ':' || Text.isBlank c

/-- Read a distance from universal time as minutes. -/
def readOffset (cs : List Char) : Except DateFault (Int × List Char) := do
  let (sign, cs) ← match Text.skipBlanks cs with
    | '+' :: cs => pure ((1 : Int), cs)
    | '-' :: cs => pure ((-1 : Int), cs)
    | '\u2212' :: cs => pure ((-1 : Int), cs)
    | _ :: _ => throw .invalid
    | [] => throw .short
  let (hours, cs) ← readPair cs
  let (minutes, cs) ← readPair (cs.dropWhile isOffsetSeparator)
  if minutes < 60 then pure (sign * ((hours * 60 + minutes : Nat) : Int), cs)
  else throw .outOfRange

/-- Read one part of a layout. -/
def LayoutItem.read (item : LayoutItem) (p : DateParts) (cs : List Char) :
    Except DateFault (DateParts × List Char) :=
  match item with
  | .year => do
    let (n, rest) ← readYear cs
    pure ({ p with year := n }, rest)
  | .month => do
    let (n, rest) ← readWithin 2 1 12 cs
    pure ({ p with month := n }, rest)
  | .day => do
    let (n, rest) ← readWithin 2 1 31 cs
    pure ({ p with day := n }, rest)
  | .hour => do
    let (n, rest) ← readWithin 2 0 23 cs
    pure ({ p with hour := n }, rest)
  | .minute => do
    let (n, rest) ← readWithin 2 0 59 cs
    pure ({ p with minute := n }, rest)
  | .second => do
    let (n, rest) ← readWithin 2 0 60 cs
    pure ({ p with second := n }, rest)
  | .fraction => do
    let (n, rest) ← readFraction cs
    pure ({ p with nano := n }, rest)
  | .offset => do
    let (n, rest) ← readOffset cs
    pure ({ p with offset := n }, rest)
  | .mark c =>
    match cs with
    | [] => throw .short
    | d :: rest => if d = c then pure (p, rest) else throw .invalid
  | .gap => pure (p, Text.skipBlanks cs)

/-- Read a whole text by a layout, starting from given parts. -/
def Layout.readFrom : Layout → DateParts → List Char → Except DateFault DateParts
  | [], p, [] => pure p
  | [], _, _ :: _ => throw .trailing
  | item :: layout, p, cs => do
    let (p, rest) ← item.read p cs
    readFrom layout p rest

/-- Read a whole text by a layout. -/
def Layout.read (layout : Layout) (cs : List Char) : Except DateFault DateParts :=
  layout.readFrom {} cs

/-- The day that the numbers name. -/
def DateParts.toDay (p : DateParts) : Except DateFault Day :=
  match Day.ofYmd? p.year p.month p.day with
  | some d => pure d
  | none => throw .outOfRange

/-- The date-time that the numbers name. -/
def DateParts.toDateTime (p : DateParts) : Except DateFault DateTime := do
  let day ← p.toDay
  match TimeOfDay.ofParts? p.hour p.minute p.second p.nano with
  | some time => pure ⟨day, time⟩
  | none => throw .outOfRange

namespace Layout

/-- Year, month and day with nothing between but the dashes. -/
def plainDay : Layout :=
  [.year, .mark '-', .month, .mark '-', .day]

/-- Year, month and day with gaps around the dashes and at the end. -/
def looseDay : Layout :=
  [.year, .gap, .mark '-', .month, .gap, .mark '-', .day, .gap]

/-- Day and time with gaps around all marks but the point. -/
def looseDateTime : Layout :=
  [.year, .gap, .mark '-', .month, .gap, .mark '-', .day, .gap, .mark 'T',
    .hour, .gap, .mark ':', .minute, .gap, .mark ':', .second, .fraction, .gap]

end Layout

/-- Read a day written without gaps. -/
def Day.parsePlain (cs : List Char) : Except DateFault Day := do
  (← Layout.plainDay.read cs).toDay

/-- Read a day with gaps allowed around its parts. -/
def Day.parseLoose (cs : List Char) : Except DateFault Day := do
  (← Layout.looseDay.read cs).toDay

/-- Read a date-time with gaps allowed around its parts. -/
def DateTime.parseLoose (cs : List Char) : Except DateFault DateTime := do
  (← Layout.looseDateTime.read cs).toDateTime

end CrashReports
