import CrashReports.Decimal.Style

/-!
# JSON numbers

The parts of a number's text, and the value they write.  A number without
fraction and exponent is an integer as long as it fits in 64 bits, signed or
unsigned; minus zero and all other numbers are binary fractions.

A fraction is read from the digits that fit in an unsigned 64-bit integer: the
integer is rounded to 53 bits and then multiplied or divided by a power of ten,
which is rounded too.  The last bit can therefore differ from the nearest one.
-/

namespace CrashReports.Json

/-- The parts of a number's text. -/
structure Numeral where
  negative : Bool
  /-- The digits before the point. -/
  whole : List Char
  /-- The digits after the point, if there is one. -/
  fraction : Option (List Char)
  /-- The exponent, if there is one. -/
  exponent : Option Int
deriving DecidableEq

/-- The value of a number. -/
inductive NumberValue where
  | integer (i : Int)
  /-- A sign and a magnitude, which may be zero. -/
  | binary (negative : Bool) (magnitude : Rat)
  /-- The magnitude leaves the range of double precision. -/
  | tooLarge
deriving DecidableEq

/-- The digits of a number as far as they fit in 64 bits, and the power of ten
that makes up for those that do not. -/
structure Significand where
  digits : Nat
  exponent : Int
  full : Bool

/-- Whether one more digit fits. -/
def Significand.fits (s : Significand) (c : Char) : Bool :=
  !s.full && s.digits * 10 + Text.digitsValue [c] < UInt64.size

/-- Take a digit before the point; once one does not fit, all later ones count as
powers of ten. -/
def Significand.pushWhole (s : Significand) (c : Char) : Significand :=
  if s.fits c then { s with digits := s.digits * 10 + Text.digitsValue [c] }
  else { s with exponent := s.exponent + 1, full := true }

/-- Take a digit after the point; once one does not fit, all later ones are
dropped. -/
def Significand.pushFraction (s : Significand) (c : Char) : Significand :=
  if s.fits c then
    { s with digits := s.digits * 10 + Text.digitsValue [c], exponent := s.exponent - 1 }
  else { s with full := true }

/-- The significand of a number. -/
def Numeral.significand (n : Numeral) : Significand :=
  let whole := n.whole.foldl Significand.pushWhole ⟨0, 0, false⟩
  (n.fraction.getD []).foldl Significand.pushFraction { whole with full := false }

/-- Bring a small number up by steps of `10 ^ 308` until the exponent is in
reach of one power of ten. -/
def scaleDown : Nat → Rat → Int → Rat × Int
  | 0, x, e => (x, e)
  | steps + 1, x, e =>
    if x = 0 ∨ -308 ≤ e then (x, e)
    else scaleDown steps (Decimal.double.round (x / Decimal.double.round (Decimal.power 10 308))) (e + 308)

/-- A significand times a power of ten, rounded at each step. -/
def scaled (digits : Nat) (exponent : Int) : NumberValue :=
  let x := Decimal.double.round (digits : Rat)
  if x = 0 then .binary false 0
  else if 308 < exponent then .tooLarge
  else if 0 ≤ exponent then
    let y := Decimal.double.round (x * Decimal.double.round (Decimal.power 10 exponent))
    if Decimal.tooLargeForDouble y then .tooLarge else .binary false y
  else
    let (y, e) := scaleDown (exponent.natAbs / 308) x exponent
    if y = 0 then .binary false 0
    else .binary false (Decimal.double.round (y / Decimal.double.round (Decimal.power 10 (-e))))

/-- The number with a sign put before it. -/
def NumberValue.withSign (negative : Bool) : NumberValue → NumberValue
  | .integer i => .integer (if negative then -i else i)
  | .binary _ m => .binary negative m
  | .tooLarge => .tooLarge

/-- Whether the text has neither fraction nor exponent. -/
def Numeral.isPlain (n : Numeral) : Bool :=
  n.fraction.isNone && n.exponent.isNone

/-- The value that a number's text writes. -/
def Numeral.value (n : Numeral) : NumberValue :=
  let magnitude := Text.digitsValue n.whole
  if n.isPlain ∧ n.negative = false ∧ magnitude < UInt64.size then .integer magnitude
  else if n.isPlain ∧ n.negative ∧ 0 < magnitude ∧ magnitude ≤ Nat.pow 2 63 then .integer (-magnitude)
  else
    let s := n.significand
    (scaled s.digits (s.exponent + n.exponent.getD 0)).withSign n.negative

/-- The text of a binary fraction in messages. -/
def renderBinary (negative : Bool) (magnitude : Rat) : List Char :=
  (if negative then ['-'] else []) ++ Decimal.writeShortest Decimal.compactStyle magnitude

end CrashReports.Json
