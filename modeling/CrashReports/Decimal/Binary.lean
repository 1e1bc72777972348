/-!
# Binary fractions of limited width

Floating-point numbers as exact rational numbers.  A format says how many
significant bits a number keeps and which exponent its last bit has at least.
Rounding takes a rational to the nearest number of the format; a tie goes to the
neighbour with an even last bit.  Exponents are not bounded above:
`tooLargeForDouble` says which results leave the range of double precision.
-/

namespace CrashReports.Decimal

/-- A binary format. -/
structure BinaryFormat where
  /-- The number of significant bits. -/
  width : Nat
  /-- The least exponent of the last bit. -/
  least : Int
deriving DecidableEq

/-- Double precision. -/
def double : BinaryFormat := ⟨53, -1074⟩

/-- Double precision extended by eleven bits, for intermediate results. -/
def extended : BinaryFormat := ⟨64, -16445⟩

/-- The quotient rounded to the nearest natural number, ties to even. -/
def divHalfEven (n d : Nat) : Nat :=
  let q := n / d
  let r := n % d
  if 2 * r < d then q
  else if d < 2 * r then q + 1
  else q + q % 2

/-- `base ^ exponent` for an exponent of either sign. -/
def power (base : Nat) (exponent : Int) : Rat :=
  if exponent < 0 then 1 / (Nat.pow base exponent.natAbs : Rat)
  else (Nat.pow base exponent.natAbs : Rat)

/-- The exponent of the leading bit of a positive fraction. -/
def leadingBit (n d : Nat) : Int :=
  let k : Int := (Nat.log2 n : Int) - (Nat.log2 d : Int)
  if k < 0 then
    if d ≤ n * Nat.pow 2 k.natAbs then k else k - 1
  else
    if d * Nat.pow 2 k.natAbs ≤ n then k else k - 1

namespace BinaryFormat

/-- The exponent of the last bit that a positive fraction can keep. -/
def lastBit (f : BinaryFormat) (n d : Nat) : Int :=
  max (leadingBit n d - f.width + 1) f.least

/-- The number of last bits in the rounded fraction. -/
def roundedBits (n d : Nat) (bit : Int) : Nat :=
  if bit < 0 then divHalfEven (n * Nat.pow 2 bit.natAbs) d
  else divHalfEven n (d * Nat.pow 2 bit.natAbs)

/-- Round a non-negative rational. -/
def roundMagnitude (f : BinaryFormat) (x : Rat) : Rat :=
  let n := x.num.natAbs
  let d := x.den
  if n = 0 then 0
  else
    let bit := f.lastBit n d
    ((roundedBits n d bit : Nat) : Rat) * power 2 bit

/-- Round a rational. -/
def round (f : BinaryFormat) (x : Rat) : Rat :=
  if x.num < 0 then -f.roundMagnitude (-x) else f.roundMagnitude x

end BinaryFormat

/-- Whether a rounded number leaves the range of double precision. -/
def tooLargeForDouble (x : Rat) : Bool :=
  Nat.pow 2 1024 * x.den ≤ x.num.natAbs

end CrashReports.Decimal
