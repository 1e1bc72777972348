import CrashReports.Store.Cell
import CrashReports.Store.JulianDay

/-!
# The day of a stored time

How the store finds the day of the time of a crash.  A text is read in exact
widths: a day, or a day and a time, or a time alone, which falls on 2000-01-01.  A
zone is subtracted, so the day is that of universal time.  A number is a Julian
day.  A few words stand for the current time, which is taken from the clock.  All other
values have no day, and are left out of every range.

A stated day stays as it is unless a zone is given or it lies past the 28th; then
the day is that of the instant.  So a time of 24 hours, or one that rounds up to the
next day, moves the day only if the day is computed anyway.
-/

namespace CrashReports.Store

/-- A time of day in milliseconds, and the minutes by which its zone is ahead of
universal time. -/
structure StatedTime where
  millis : Nat
  zone : Int
deriving DecidableEq

/-- The number written by exactly so many digits. -/
def readExact (width : Nat) (cs : List Char) : Option (Nat × List Char) :=
  let digits := cs.take width
  if digits.length = width ∧ digits.all Char.isDigit then
    some (Text.digitsValue digits, cs.drop width)
  else none

/-- A number of exact width within bounds. -/
def readBounded (width low high : Nat) (cs : List Char) : Option (Nat × List Char) := do
  let (n, rest) ← readExact width cs
  if low ≤ n ∧ n ≤ high then some (n, rest) else none

/-- A given character at the start of a text. -/
def readMark (c : Char) : List Char → Option (List Char)
  | d :: rest => if d = c then some rest else none
  | [] => none

/-- The minutes of a zone at the end of a text; blanks may stand around it. -/
def readZone (cs : List Char) : Option Int :=
  match skipStoreBlanks cs with
  | [] => some 0
  | c :: rest =>
    if c = 'Z' ∨ c = 'z' then
      if skipStoreBlanks rest = [] then some 0 else none
    else if c = '+' ∨ c = '-' then do
      let (hours, rest) ← readBounded 2 0 14 rest
      let rest ← readMark ':' rest
      let (minutes, rest) ← readBounded 2 0 59 rest
      let total : Int := ((hours * 60 + minutes : Nat) : Int)
      if skipStoreBlanks rest = [] then some (if c = '-' then -total else total) else none
    else none

/-- One more digit of a binary fraction: the code of the character is added, and the
code of the zero taken away. -/
def pushDigit (x : Rat) (c : Char) : Rat :=
  Decimal.double.round
    (Decimal.double.round (Decimal.double.round (x * 10) + (c.toNat : Rat)) - ('0'.toNat : Rat))

/-- The fraction of a second as a binary fraction, digit by digit.  There is none if
the digits leave the range of double precision; zeros may go on beyond it. -/
def fractionOf (digits : List Char) : Option Rat :=
  let value := digits.foldl pushDigit 0
  let scale := digits.foldl (fun x _ => Decimal.double.round (x * 10)) 1
  if Decimal.tooLargeForDouble scale then
    if Decimal.tooLargeForDouble value then none else some 0
  else some (Decimal.double.round (value / scale))

/-- Seconds with a fraction, to the nearest millisecond. -/
def millisOf (seconds : Nat) (fraction : List Char) : Option Nat :=
  if fraction = [] then some (seconds * 1000)
  else do
    let x ← fractionOf fraction
    let s := Decimal.double.round ((seconds : Rat) + x)
    some (Decimal.double.round (Decimal.double.round (s * 1000) + 1 / 2)).floor.natAbs

/-- The seconds of a time, if the text goes on with them. -/
def readSeconds (cs : List Char) : Option (Nat × List Char) :=
  match cs with
  | ':' :: rest => do
    let (seconds, rest) ← readBounded 2 0 59 rest
    match rest with
    | '.' :: after =>
      let (fraction, rest') := Text.spanDigits after
      if fraction = [] then some (seconds * 1000, rest)
      else (millisOf seconds fraction).map fun millis => (millis, rest')
    | _ => some (seconds * 1000, rest)
  | _ => some (0, cs)

/-- A time of day up to the end of a text. -/
def readTime (cs : List Char) : Option StatedTime := do
  let (hours, rest) ← readBounded 2 0 24 cs
  let rest ← readMark ':' rest
  let (minutes, rest) ← readBounded 2 0 59 rest
  let (millis, rest) ← readSeconds rest
  let zone ← readZone rest
  some ⟨hours * 3600000 + minutes * 60000 + millis, zone⟩

/-- A stated day at the start of a text. -/
def readStatedDay (cs : List Char) : Option (Ymd × List Char) := do
  let (negative, cs) := match cs with
    | '-' :: rest => (true, rest)
    | _ => (false, cs)
  let (year, cs) ← readExact 4 cs
  let cs ← readMark '-' cs
  let (month, cs) ← readBounded 2 1 12 cs
  let cs ← readMark '-' cs
  let (day, cs) ← readBounded 2 1 31 cs
  some (⟨if negative then -(year : Int) else year, month, day⟩, cs)

/-- What may stand between a day and a time. -/
def isDaySeparator (c : Char) : Bool :=
  isStoreBlank c || c == 'T'

/-- A stated day, with a time or without one. -/
def readDayAndTime (cs : List Char) : Option (Ymd × StatedTime) := do
  let (day, rest) ← readStatedDay cs
  match rest.dropWhile isDaySeparator with
  | [] => some (day, ⟨0, 0⟩)
  | rest => do
    let time ← readTime rest
    some (day, time)

/-- The instant that lies a time of universal time after the start of a day. -/
def instantOf (d : Ymd) (t : StatedTime) : Int :=
  d.instant + t.millis - t.zone * 60000

/-- The day of a stated day with its time. -/
def dayOfStated (d : Ymd) (t : StatedTime) : Option Ymd :=
  if -4713 ≤ d.year ∧ d.year ≤ 9999 ∧ isInstant (instantOf d t) then
    some (if t.zone ≠ 0 ∨ 28 < d.day then .ofInstant (instantOf d t) else d)
  else none

/-- The day of a time without a day. -/
def dayOfTime (t : StatedTime) : Ymd :=
  .ofInstant (instantOf ⟨2000, 1, 1⟩ t)

/-- The day of a Julian day with a fraction. -/
def dayOfNumber (n : Number) : Option Ymd :=
  let x := Decimal.double.round n.value
  if 0 ≤ x ∧ x < 10746969 / 2 then
    let t := (Decimal.double.round (Decimal.double.round (x * 86400000) + 1 / 2)).floor
    if isInstant t then some (.ofInstant t) else none
  else none

/-- The words for the current time. -/
def clockWords : List String := ["now", "subsec", "subsecond"]

/-- A text that is a word for the current time, in letters of either case. -/
def asksForNow (cs : List Char) : Bool :=
  clockWords.any fun word => cs.map Char.toLower == word.toList

/-- The day of the current time.  A clock that is not past the start of the Julian days
is taken to be wrong. -/
def dayOfNow (now : Int) : Option Ymd :=
  if 0 < now ∧ isInstant now then some (.ofInstant now) else none

/-- The day of a time given as text. -/
def dayOfText (now : Int) (cs : List Char) : Option Ymd :=
  match readDayAndTime cs with
  | some (d, t) => dayOfStated d t
  | none =>
    match readTime cs with
    | some t => some (dayOfTime t)
    | none => if asksForNow cs then dayOfNow now else (readNumber cs).bind dayOfNumber

/-- A text up to its first NUL. -/
def untilNul (cs : List Char) : List Char :=
  cs.takeWhile (· != '\x00')

/-- The day of a stored time, while the clock shows a given instant. -/
def StampCell.day? (c : StampCell) (now : Int) : Option Ymd :=
  match c with
  | .number n => dayOfNumber n
  | .text s => dayOfText now (untilNul s.toList)
  | .broken t => dayOfText now (untilNul (t.bytes.map fun b => Char.ofNat b.toNat))
  | .bytes bs => dayOfText now (untilNul (bs.map fun b => Char.ofNat b.toNat))

end CrashReports.Store
