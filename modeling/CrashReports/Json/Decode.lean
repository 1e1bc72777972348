import CrashReports.Calendar.Layout
import CrashReports.Json.Parsed
import CrashReports.Mismatch

/-!
# Decoding typed values

Readers of typed values from what a JSON text says.  A record may be given as an
object or as an array of its fields in order.  The members of an object are taken
in text order, and the first fault in that order is the one reported: unknown
members are skipped, a known member must not be repeated, and missing members
are looked for at the end.
-/

namespace CrashReports.Json

/-- Why a value cannot be decoded. -/
inductive DecodeError where
  /-- The text is not JSON. -/
  | malformed
  /-- A value does not fit its type. -/
  | mismatch (m : Mismatch)
  /-- A string is no day or date-time. -/
  | date (fault : DateFault)
deriving DecidableEq

/-- The wording of a decoding error. -/
def DecodeError.message : DecodeError → String
  | .malformed => "malformed JSON text"
  | .mismatch m => m.message
  | .date fault => fault.message

/-- A reader of values of a type. -/
abbrev Decoder (α : Type) := Parsed → Except DecodeError α

/-- The error for a value that is not of the expected kind. -/
def unexpected (expected : String) : Parsed → DecodeError
  | .broken => .malformed
  | .null => .mismatch (.wrongKind .null expected)
  | .bool b => .mismatch (.wrongKind (.bool b) expected)
  | .number n =>
    match n.value with
    | .integer i => .mismatch (.wrongKind (.integer i) expected)
    | .binary negative m =>
      .mismatch (.wrongKind (.binary (String.ofList (renderBinary negative m))) expected)
    | .tooLarge => .malformed
  | .string (some s) => .mismatch (.wrongKind (.string s) expected)
  | .string none => .malformed
  | .array _ _ => .mismatch (.wrongKind .sequence expected)
  | .object _ _ => .mismatch (.wrongKind .map expected)

namespace Decoder

/-- Read a string. -/
def string : Decoder String
  | .string (some s) => .ok s
  | v => .error (unexpected "a string" v)

/-- Read an unsigned 32-bit integer. -/
def word : Decoder UInt32
  | .number n =>
    match n.value with
    | .integer i =>
      if 0 ≤ i ∧ i < UInt32.size then .ok (UInt32.ofNat i.natAbs)
      else .error (.mismatch (.outOfBounds i "u32"))
    | _ => .error (unexpected "u32" (.number n))
  | v => .error (unexpected "u32" v)

/-- Read a day. -/
def day : Decoder Day
  | .string (some s) => (Day.parseLoose s.toList).mapError .date
  | v => .error (unexpected "a formatted date string" v)

/-- Read a date-time. -/
def dateTime : Decoder DateTime
  | .string (some s) => (DateTime.parseLoose s.toList).mapError .date
  | v => .error (unexpected "a formatted date and time string" v)

/-- Read a value or `null`. -/
def nullable {α : Type} (f : Decoder α) : Decoder (Option α)
  | .null => .ok none
  | v => (f v).map some

/-- Read every item of a list, and check that the array is closed. -/
def items {α : Type} (f : Decoder α) (closed : Bool) : List Parsed → Except DecodeError (List α)
  | [] => if closed then .ok [] else .error .malformed
  | v :: vs => do
    let x ← f v
    let xs ← items f closed vs
    pure (x :: xs)

/-- Read an array. -/
def list {α : Type} (f : Decoder α) : Decoder (List α)
  | .array vs closed => items f closed vs
  | v => .error (unexpected "a sequence" v)

/-- Pass over a value that nobody wants. -/
def skip (v : Parsed) : Except DecodeError Unit :=
  if v.isWhole then .ok () else .error .malformed

/-- Read a member that may occur once. -/
def once {α : Type} (field : String) (seen : Option α) (f : Decoder α) (v : Parsed) :
    Except DecodeError (Option α) :=
  if seen.isSome then .error (.mismatch (.repeated field)) else (f v).map some

/-- A member that must have occurred. -/
def required {α : Type} (field : String) : Option α → Except DecodeError α
  | some x => .ok x
  | none => .error (.mismatch (.missing field))

/-- Take the members of an object in text order. -/
def members {σ : Type} (step : String → Parsed → σ → Except DecodeError σ) (closed : Bool) :
    List (Option String × Parsed) → σ → Except DecodeError σ
  | [], s => if closed then .ok s else .error .malformed
  | (none, _) :: _, _ => .error .malformed
  | (some key, v) :: ms, s => do
    let s ← step key v s
    members step closed ms s

/-- The field of the given index in a record written as an array, with a value
for its absence. -/
def nthD {α : Type} (f : Decoder α) (absent : α) (closed : Bool) (vs : List Parsed)
    (index : Nat) : Except DecodeError α :=
  match vs[index]? with
  | some v => f v
  | none => if closed then .ok absent else .error .malformed

/-- The field of the given index in a record written as an array. -/
def nth {α : Type} (f : Decoder α) (expected : String) (closed : Bool) (vs : List Parsed)
    (index : Nat) : Except DecodeError α :=
  match vs[index]? with
  | some v => f v
  | none => .error (if closed then .mismatch (.tooFew index expected) else .malformed)

/-- Check that an array ends after the given number of fields. -/
def ends (count : Nat) (closed : Bool) (vs : List Parsed) : Except DecodeError Unit :=
  if count < vs.length then .error (.mismatch (.tooMany vs.length))
  else if closed then .ok ()
  else .error .malformed

end Decoder

/-- Read a whole text; an array with too many items is then a fault of the text. -/
def decode {α : Type} (f : Decoder α) (text : String) : Except DecodeError α :=
  let (v, final) := Parsed.ofText text
  match f v with
  | .ok x => if final then .ok x else .error .malformed
  | .error (.mismatch (.tooMany _)) => .error .malformed
  | .error e => .error e

end CrashReports.Json
