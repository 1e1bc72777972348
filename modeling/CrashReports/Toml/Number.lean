import CrashReports.Text.Form
import CrashReports.Toml.Value

/-!
# TOML numbers

Integers in four bases and floating-point numbers.  An underscore may stand
between two digits; only decimal integers and floating-point numbers take a sign,
and their digits before the point have no leading zero.  An underscore may also
stand between a sign and the digits, and then a leading zero is allowed.

Integers are recognised by their look.  One with an announced base may lack its
digits, and a decimal one with an underscore may go on with characters that are no
decimal digits.  Such a number belongs to a document, but nobody can read its value.
-/

namespace CrashReports.Toml

/-- Digits without the underscores between them. -/
def ungroup? (isDigit : Char → Bool) : List Char → Option (List Char)
  | [] => none
  | [d] => if isDigit d then some [d] else none
  | d :: e :: ds =>
    if isDigit d then
      if e = '_' then (ungroup? isDigit ds).map (d :: ·)
      else (ungroup? isDigit (e :: ds)).map (d :: ·)
    else none

/-- A sign, if the text begins with one, and the rest; the sign is true for minus. -/
def splitSign : List Char → Bool × List Char
  | '-' :: cs => (true, cs)
  | '+' :: cs => (false, cs)
  | cs => (false, cs)

/-- Whether a text begins with a sign. -/
def isSigned (cs : List Char) : Bool :=
  cs.head? == some '-' || cs.head? == some '+'

/-- Decimal digits before a point, with or without a sign before them. -/
def wholeDigits? (signed : Bool) : List Char → Option (List Char)
  | '_' :: cs => if signed then ungroup? Char.isDigit cs else none
  | cs =>
    match ungroup? Char.isDigit cs with
    | some ds => if ds.head? = some '0' ∧ 1 < ds.length then none else some ds
    | none => none

/-- A decimal integer. -/
def decimalInteger? (cs : List Char) : Option Int :=
  let (negative, rest) := splitSign cs
  (wholeDigits? (isSigned cs) rest).map fun ds =>
    if negative then -(Text.digitsValue ds : Int) else Text.digitsValue ds

/-- Whether a character is a digit of a base up to 16. -/
def isDigitOf (base : Nat) (c : Char) : Bool :=
  match Text.hexDigit? c with
  | some d => d < base
  | none => false

/-- The value of digits of a base up to 16. -/
def valueIn (base : Nat) (ds : List Char) : Nat :=
  ds.foldl (fun n d => n * base + (Text.hexDigit? d).getD 0) 0

/-- The base that the letter after a zero announces. -/
def baseOf? (c : Char) : Option Nat :=
  if c = 'x' then some 16
  else if c = 'o' then some 8
  else if c = 'b' then some 2
  else none

/-- An integer with an announced base. -/
def basedInteger? : List Char → Option Int
  | '0' :: letter :: cs => do
    let base ← baseOf? letter
    let ds ← ungroup? (isDigitOf base) cs
    some (valueIn base ds)
  | _ => none

/-- The number of double precision nearest to digits times a power of ten. -/
def Real.ofDigits (negative : Bool) (ds : List Char) (exponent : Int) : Real :=
  let n := Text.digitsValue ds
  if n = 0 ∨ exponent + (ds.length : Int) < -400 then .finite negative 0
  else if 400 < exponent then .tooLarge
  else
    let x := Decimal.double.round ((n : Rat) * Decimal.power 10 exponent)
    if Decimal.tooLargeForDouble x then .tooLarge else .finite negative x

/-- The digits after the point, if there is a point. -/
def fraction? : List Char → Option (List Char)
  | [] => some []
  | c :: cs => if c = '.' then ungroup? Char.isDigit cs else none

/-- The exponent, if there is one. -/
def exponent? : List Char → Option Int
  | [] => some 0
  | _ :: cs =>
    let (negative, cs) := splitSign cs
    (ungroup? Char.isDigit cs).map fun ds =>
      if negative then -(Text.digitsValue ds : Int) else Text.digitsValue ds

/-- Whether a letter announces an exponent. -/
def isExponentMark (c : Char) : Bool :=
  c == 'e' || c == 'E'

/-- A floating-point number after its sign, if there is one: digits with a fraction
or an exponent or both, or a word. -/
def magnitude? (signed negative : Bool) (cs : List Char) : Option Real :=
  if cs = ['i', 'n', 'f'] then some (.infinite negative)
  else if cs = ['n', 'a', 'n'] then some .notANumber
  else do
    let mantissa := cs.takeWhile fun c => !isExponentMark c
    let ds ← wholeDigits? signed (mantissa.takeWhile (· != '.'))
    let fs ← fraction? (mantissa.dropWhile (· != '.'))
    let e ← exponent? (cs.dropWhile fun c => !isExponentMark c)
    some (.ofDigits negative (ds ++ fs) (e - (fs.length : Int)))

/-- A floating-point number. -/
def real? (cs : List Char) : Option Real :=
  let (negative, rest) := splitSign cs
  magnitude? (isSigned cs) negative rest

/-! ### Numbers without a value -/

/-- Whether every underscore of a text has a digit of base 16 on both sides.  The
first argument says whether one may stand at the beginning. -/
def dividesDigits : Bool → List Char → Bool
  | _, [] => true
  | afterDigit, c :: cs =>
    if c = '_' then afterDigit && cs.head?.any (isDigitOf 16) && dividesDigits false cs
    else dividesDigits (isDigitOf 16 c) cs

/-- A character that does not occur in what looks like a decimal integer. -/
def isRealMark (c : Char) : Bool :=
  c == '.' || c == ' ' || isExponentMark c

/-- Whether a text looks like a decimal integer with an underscore in it. -/
def looksDecimal (cs : List Char) : Bool :=
  let rest := (splitSign cs).2
  rest.head? != some '0' && (rest.dropWhile Char.isDigit).head? == some '_' &&
    !rest.any isRealMark && dividesDigits (isSigned cs) rest

/-- Whether a text announces a base and ends. -/
def lacksDigits : List Char → Bool
  | ['0', letter] => (baseOf? letter).isSome
  | _ => false

/-- A number of either kind. -/
def number? (cs : List Char) : Option Value :=
  match decimalInteger? cs with
  | some i => some (.integer i)
  | none =>
    match basedInteger? cs with
    | some i => some (.integer i)
    | none =>
      match real? cs with
      | some r => some (.real r)
      | none => if looksDecimal cs || lacksDigits cs then some .broken else none

end CrashReports.Toml
