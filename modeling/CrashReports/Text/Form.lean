import CrashReports.Text.Utf8

/-!
# Form-encoded parameters

Names and values after the question mark of a location: pairs between `&`, with
`=` between name and value.  A `+` stands for a blank; it is replaced before
percent escapes are read, so an escaped plus stays a plus.  Bytes that are no UTF-8
are replaced.

A percent escape is a `%` and two hexadecimal digits, and stands for a byte.  A `%`
without two such digits stands for itself, and so does every other character, by its
UTF-8 bytes.

Splitting keeps empty parts, and there is always at least one part.
-/

namespace CrashReports.Text

/-- Split a text at a character. -/
def splitAt (separator : Char) : List Char → List (List Char)
  | [] => [[]]
  | c :: cs =>
    if c = separator then [] :: splitAt separator cs
    else
      match splitAt separator cs with
      | [] => [[c]]
      | part :: parts => (c :: part) :: parts

/-- The text before the first occurrence of a character, and the text after it if
there is one. -/
def splitFirst (separator : Char) (cs : List Char) : List Char × Option (List Char) :=
  match cs.dropWhile (· != separator) with
  | [] => (cs, none)
  | _ :: rest => (cs.takeWhile (· != separator), some rest)

/-- The value of a hexadecimal digit in either case. -/
def hexDigit? (c : Char) : Option Nat :=
  if c.isDigit then some (c.toNat - '0'.toNat)
  else if 'a' ≤ c ∧ c ≤ 'f' then some (c.toNat - 'a'.toNat + 10)
  else if 'A' ≤ c ∧ c ≤ 'F' then some (c.toNat - 'A'.toNat + 10)
  else none

/-- The byte that two hexadecimal digits write. -/
def hexByte? (a b : Char) : Option UInt8 := do
  let high ← hexDigit? a
  let low ← hexDigit? b
  some (UInt8.ofNat (high * 16 + low))

/-- The bytes of a text with percent escapes. -/
def percentBytes : List Char → List UInt8
  | [] => []
  | c :: a :: b :: rest =>
    match c, hexByte? a b with
    | '%', some byte => byte :: percentBytes rest
    | _, _ => String.utf8EncodeChar c ++ percentBytes (a :: b :: rest)
  | c :: rest => String.utf8EncodeChar c ++ percentBytes rest

/-- The text of an encoded name or value. -/
def decodeComponent (cs : List Char) : String :=
  ofUtf8Lossy (percentBytes (cs.map fun c => if c = '+' then ' ' else c))

/-- A pair of name and value; without `=`, the value is empty. -/
def decodePair (cs : List Char) : String × String :=
  let (name, value) := splitFirst '=' cs
  (decodeComponent name, decodeComponent (value.getD []))

/-- The pairs of a query in their order; empty pairs are passed over. -/
def formPairs (query : List Char) : List (String × String) :=
  ((splitAt '&' query).filter (· != [])).map decodePair

end CrashReports.Text
