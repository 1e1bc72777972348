import CrashReports.Decimal.Binary

/-!
# The fewest digits of a binary fraction

The decimal number with the fewest digits that rounds back to a given number of
double precision, and the nearest one among those.  All arithmetic is exact.
-/

namespace CrashReports.Decimal

/-- The number `digits * 10 ^ exponent`. -/
structure Scaled where
  digits : Nat
  exponent : Int
deriving DecidableEq

/-- The exponent of the leading decimal digit of a positive fraction. -/
def leadingDigit (n d : Nat) : Int :=
  let k : Int := ((Nat.toDigits 10 n).length : Int) - ((Nat.toDigits 10 d).length : Int)
  if k < 0 then
    if d ≤ n * Nat.pow 10 k.natAbs then k else k - 1
  else
    if d * Nat.pow 10 k.natAbs ≤ n then k else k - 1

/-- The half-open or closed interval of numbers that round to a given one. -/
structure RoundingInterval where
  low : Rat
  high : Rat
  closed : Bool

/-- Whether a number lies in the interval. -/
def RoundingInterval.holds (i : RoundingInterval) (x : Rat) : Bool :=
  if i.closed then i.low ≤ x && x ≤ i.high else i.low < x && x < i.high

/-- The interval around a positive number of double precision. -/
def roundingInterval (x : Rat) : RoundingInterval :=
  let n := x.num.natAbs
  let d := x.den
  let bit := double.lastBit n d
  let bits := BinaryFormat.roundedBits n d bit
  let half := power 2 (bit - 1)
  let below := if bits = Nat.pow 2 52 ∧ -1074 < bit then half / 2 else half
  ⟨x - below, x + half, bits % 2 == 0⟩

/-- Which of two equally near numbers is taken. -/
inductive Tie where
  /-- The one with an even last digit. -/
  | toEven
  /-- The greater one. -/
  | up
deriving DecidableEq

/-- The neighbours of a number on the grid `10 ^ exponent` that lie in the
interval; of two, the nearer one. -/
def gridPoint? (tie : Tie) (i : RoundingInterval) (x : Rat) (exponent : Int) : Option Scaled :=
  let unit := power 10 exponent
  let down := (x / unit).floor.natAbs
  let up := down + 1
  let low := (down : Rat) * unit
  let high := (up : Rat) * unit
  match 0 < down && i.holds low, i.holds high with
  | true, true =>
    let gap := x - low
    let rest := high - x
    if gap < rest then some ⟨down, exponent⟩
    else if rest < gap then some ⟨up, exponent⟩
    else some ⟨if tie = .toEven ∧ down % 2 = 0 then down else up, exponent⟩
  | true, false => some ⟨down, exponent⟩
  | false, true => some ⟨up, exponent⟩
  | false, false => none

/-- Try finer and finer grids, from `exponent` downwards. -/
def firstGridPoint (tie : Tie) (i : RoundingInterval) (x : Rat) : Nat → Int → Scaled
  | 0, exponent => ⟨(x / power 10 exponent).floor.natAbs, exponent⟩
  | tries + 1, exponent =>
    match gridPoint? tie i x exponent with
    | some s => s
    | none => firstGridPoint tie i x tries (exponent - 1)

/-- The fewest digits that round back to a positive number of double precision. -/
def shortest (tie : Tie) (x : Rat) : Scaled :=
  firstGridPoint tie (roundingInterval x) x 17 (leadingDigit x.num.natAbs x.den)

end CrashReports.Decimal
