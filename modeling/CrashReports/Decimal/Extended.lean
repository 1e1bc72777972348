import CrashReports.Decimal.Shortest

/-!
# Powers of ten in extended precision

Numbers are taken to another power of ten in steps of `10 ^ 100`, then of `10 ^ 10`,
then of `10`.  The factor and the result of each step are rounded to 64 significant
bits.  Digits that are read or written this way can differ in the last place from
those of exact arithmetic.
-/

namespace CrashReports.Decimal

/-- A power of ten in extended precision. -/
def extendedPower (exponent : Int) : Rat :=
  extended.round (power 10 exponent)

/-- One step by a power of ten. -/
def scaleStep (exponent : Int) (x : Rat) : Rat :=
  extended.round (x * extendedPower exponent)

/-- So many steps by a power of ten. -/
def scaleSteps (exponent : Int) : Nat → Rat → Rat
  | 0, x => x
  | steps + 1, x => scaleSteps exponent steps (scaleStep exponent x)

/-- A number times a power of ten. -/
def scale (x : Rat) (exponent : Int) : Rat :=
  let unit : Int := if exponent < 0 then -1 else 1
  let n := exponent.natAbs
  scaleSteps unit (n % 10) (scaleSteps (unit * 10) (n % 100 / 10)
    (scaleSteps (unit * 100) (n / 100) x))

/-- Move powers of ten from a number to its exponent while a condition holds, at
most so many times. -/
def moveWhile (condition : Rat → Bool) (step : Int) : Nat → Rat × Int → Rat × Int
  | 0, p => p
  | tries + 1, (x, exponent) =>
    if condition x then moveWhile condition step tries (scaleStep (-step) x, exponent + step)
    else (x, exponent)

/-- A positive number of double precision, scaled to 18 or 19 digits before the
point, and the exponent that makes up for it.  Each bound is met after eleven steps at
most. -/
def toWide (x : Rat) : Rat × Int :=
  if extendedPower 19 ≤ x then
    [(100, 119), (10, 29), (1, 19)].foldl
      (fun p (step, bound) => moveWhile (fun y => extendedPower bound ≤ y) step 11 p) (x, 0)
  else
    [(100, -97), (10, 7), (1, 17)].foldl
      (fun p (step, bound) => moveWhile (fun y => y < extendedPower bound) (-step) 11 p) (x, 0)

/-- A positive number of double precision in fifteen digits.  The sixteenth digit
decides whether the others are rounded up. -/
def toFifteen (x : Rat) : Scaled :=
  let (y, exponent) := toWide x
  let wide := y.floor.natAbs
  let surplus := (Nat.toDigits 10 wide).length - 15
  ⟨(wide / Nat.pow 10 (surplus - 1) + 5) / 10, exponent + (surplus : Int)⟩

end CrashReports.Decimal
