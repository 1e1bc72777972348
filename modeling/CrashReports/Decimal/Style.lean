import CrashReports.Decimal.Extended
import CrashReports.Text.Character

/-!
# Positional and scientific notation

How digits and an exponent become text.  A style is a record: which exponents
of the leading digit are written out in positions, and how the others look.  A
positional number always has a digit after its point.
-/

namespace CrashReports.Decimal

/-- The choices that a number format makes. -/
structure NumberStyle where
  /-- Whether a number whose leading digit has this exponent is written in positions. -/
  isPositional : Int → Bool
  /-- The least number of digits of a written exponent. -/
  exponentWidth : Nat
  /-- Whether a single digit before the exponent is followed by `.0`. -/
  pointed : Bool
  /-- Which of two equally near numbers with the fewest digits is written. -/
  tie : Tie

/-- Remove the zeros at the end of a digit string, but keep its first digit. -/
def dropFinalZeros : List Char → List Char
  | [] => []
  | d :: ds => d :: (ds.reverse.dropWhile (· == '0')).reverse

/-- Digits with a point after the first `point` of them. -/
def positional (digits : List Char) (point : Int) : List Char :=
  if point ≤ 0 then
    ['0', '.'] ++ List.replicate point.natAbs '0' ++ digits
  else
    let whole := digits.take point.natAbs
    let rest := digits.drop point.natAbs
    whole ++ List.replicate (point.natAbs - whole.length) '0' ++ '.' ::
      (if rest = [] then ['0'] else rest)

/-- Digits with a point after the first one, and the exponent. -/
def scientific (style : NumberStyle) (digits : List Char) (exponent : Int) : List Char :=
  let tail := digits.drop 1
  let fraction :=
    if tail = [] then (if style.pointed then ['.', '0'] else []) else '.' :: tail
  digits.take 1 ++ fraction ++ 'e' :: (if exponent < 0 then '-' else '+') ::
    Text.padded style.exponentWidth exponent.natAbs

/-- Write a positive number. -/
def Scaled.write (style : NumberStyle) (s : Scaled) : List Char :=
  let all := Text.decimal s.digits
  let leading := s.exponent + (all.length : Int) - 1
  let digits := dropFinalZeros all
  if style.isPositional leading then positional digits (leading + 1)
  else scientific style digits leading

/-- Positions throughout. -/
def plainStyle : NumberStyle :=
  ⟨fun _ => true, 1, false, .up⟩

/-- Positions for exponents from -5 to 15. -/
def compactStyle : NumberStyle :=
  ⟨fun e => -5 ≤ e && e ≤ 15, 1, false, .toEven⟩

/-- Positions for exponents from -4 to 14, and two digits of exponent at least. -/
def storedStyle : NumberStyle :=
  ⟨fun e => -4 ≤ e && e ≤ 14, 2, true, .up⟩

/-- A number of double precision in the fewest digits. -/
def writeShortest (style : NumberStyle) (x : Rat) : List Char :=
  if x.num = 0 then ['0', '.', '0'] else (shortest style.tie x).write style

/-- A non-negative number in fifteen significant digits. -/
def writeFifteen (x : Rat) : List Char :=
  if x.num = 0 then ['0', '.', '0'] else (toFifteen x).write storedStyle

end CrashReports.Decimal
