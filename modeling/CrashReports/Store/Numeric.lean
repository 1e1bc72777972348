import CrashReports.Decimal.Style

/-!
# Numeric text

The texts that the store takes for numbers: a decimal number with an optional
sign, point and exponent, and ASCII blanks at both ends.  A number without point
and exponent is an integer if it fits in 64 bits.

Any other number becomes a number of double precision from its first digits, as
many as fit in 64 bits, and a power of ten in extended precision.  Its last bit can
therefore differ from the nearest one.
-/

namespace CrashReports.Store

/-- The blanks that the store knows, all of them ASCII. -/
def isStoreBlank (c : Char) : Bool :=
  c == ' ' || ('\x09' ≤ c && c ≤ '\x0d')

/-- Skip the blanks at the start of a text. -/
def skipStoreBlanks (cs : List Char) : List Char :=
  cs.dropWhile isStoreBlank

/-- The least integer of the store. -/
def leastInteger : Int := -Int.pow 2 63

/-- The greatest integer of the store. -/
def greatestInteger : Int := Int.pow 2 63 - 1

/-- A number as the store keeps it. -/
inductive Number where
  | integer (i : Int)
  | real (x : Rat)
deriving DecidableEq

/-- The value of a number. -/
def Number.value : Number → Rat
  | .integer i => i
  | .real x => x

/-- The integer that a real number is kept as: it is whole and lies strictly between
the least and the greatest integer. -/
def integerOfReal? (x : Rat) : Option Int :=
  if x.den = 1 ∧ leastInteger < x.num ∧ x.num < greatestInteger then some x.num else none

/-- Keep a real number as an integer if possible. -/
def Number.ofReal (x : Rat) : Number :=
  match integerOfReal? x with
  | some i => .integer i
  | none => .real x

/-! ### Significands -/

/-- The first digits of a number, and the power of ten that makes up for the others. -/
structure Significand where
  digits : Nat
  exponent : Int
deriving DecidableEq

namespace Significand

/-- Whether one more digit is taken. -/
def hasRoom (s : Significand) : Bool :=
  s.digits < (UInt64.size - 10) / 10

/-- Take a digit before the point. -/
def pushWhole (s : Significand) (c : Char) : Significand :=
  if s.hasRoom then { s with digits := s.digits * 10 + Text.digitsValue [c] }
  else { s with exponent := s.exponent + 1 }

/-- Take a digit after the point. -/
def pushFraction (s : Significand) (c : Char) : Significand :=
  if s.hasRoom then ⟨s.digits * 10 + Text.digitsValue [c], s.exponent - 1⟩ else s

/-- Turn powers of ten into zeros at the end as long as the digits fit in 64 bits, at
most so many times. -/
def lengthen : Nat → Significand → Significand
  | 0, s => s
  | tries + 1, s =>
    if 0 < s.exponent ∧ s.digits < (UInt64.size - 1) / 10 then
      lengthen tries ⟨s.digits * 10, s.exponent - 1⟩
    else s

/-- Turn zeros at the end into powers of ten as long as the exponent is negative, at
most so many times. -/
def shorten : Nat → Significand → Significand
  | 0, s => s
  | tries + 1, s =>
    if s.exponent < 0 ∧ s.digits % 10 = 0 then shorten tries ⟨s.digits / 10, s.exponent + 1⟩
    else s

/-- The number of double precision that a significand stands for.  Twenty digits are
more than 64 bits hold, and beyond `10 ^ 400` and below `10 ^ -400` all numbers are
alike. -/
def value (s : Significand) : Rat :=
  if s.digits = 0 then 0
  else
    let s := shorten 20 (lengthen 20 s)
    if s.exponent = 0 then Decimal.double.round (s.digits : Rat)
    else
      Decimal.double.round (Decimal.scale (Decimal.extended.round (s.digits : Rat))
        (max (-400) (min 400 s.exponent)))

end Significand

/-! ### Reading and writing -/

/-- A sign at the start of a text. -/
def readSign : List Char → Bool × List Char
  | '-' :: rest => (true, rest)
  | '+' :: rest => (false, rest)
  | rest => (false, rest)

/-- The digits after a point, if the text goes on with one. -/
def readPoint : List Char → Option (List Char) × List Char
  | '.' :: rest =>
    let (digits, rest) := Text.spanDigits rest
    (some digits, rest)
  | rest => (none, rest)

/-- The value of the digits of an exponent; one of five digits is not lengthened. -/
def scaleValue (digits : List Char) : Int :=
  digits.foldl (fun n c => if n < 10000 then n * 10 + Text.digitsValue [c] else 10000) 0

/-- The exponent, if the text goes on with one; it needs a digit. -/
def readScale (cs : List Char) : Option (Option Int × List Char) :=
  match cs with
  | e :: rest =>
    if e = 'e' ∨ e = 'E' then
      let (negative, rest) := readSign rest
      let (digits, rest) := Text.spanDigits rest
      if digits = [] then none
      else
        some (some (if negative then -scaleValue digits else scaleValue digits), rest)
    else some (none, cs)
  | [] => some (none, [])

/-- The number that a text writes, if it is numeric. -/
def readNumber (cs : List Char) : Option Number := do
  let (negative, cs) := readSign (skipStoreBlanks cs)
  let (whole, cs) := Text.spanDigits cs
  let (fraction, cs) := readPoint cs
  if whole = [] ∧ fraction.getD [] = [] then none
  let (scale, cs) ← readScale cs
  if skipStoreBlanks cs ≠ [] then none
  let n : Int := Text.digitsValue whole
  let magnitude := if negative then -n else n
  if fraction.isNone ∧ scale.isNone ∧ leastInteger ≤ magnitude ∧ magnitude ≤ greatestInteger then
    some (.integer magnitude)
  else
    let s := (fraction.getD []).foldl Significand.pushFraction
      (whole.foldl Significand.pushWhole ⟨0, 0⟩)
    let x := { s with exponent := s.exponent + scale.getD 0 }.value
    some (Number.ofReal (if negative then -x else x))

/-- The text of a number. -/
def Number.render : Number → String
  | .integer i => String.ofList (Text.signed i)
  | .real x =>
    String.ofList ((if x.num < 0 then ['-'] else []) ++ Decimal.writeFifteen (if x < 0 then -x else x))

end CrashReports.Store
