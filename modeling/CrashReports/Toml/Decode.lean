import CrashReports.Mismatch
import CrashReports.Toml.Document

/-!
# Decoding typed values from TOML

Readers of typed values from a document.  A record may be given as a table or as
an array of its fields in order.  The entries of a table that a record knows are
read first, then the missing ones are looked for; items after the last field of
an array are not looked at.
-/

namespace CrashReports.Toml

/-- Why a value cannot be decoded. -/
inductive DecodeError where
  /-- A value does not fit its type. -/
  | mismatch (m : Mismatch)
  /-- A number is out of all bounds or cannot be read, wanted or not. -/
  | overflow
deriving DecidableEq

/-- What a value is in messages.  Moments count as tables, and a number that cannot
be read is nothing at all. -/
def Value.found? : Value → Option Found
  | .string s => some (.string s)
  | .integer i => some (.integer i)
  | .real r => some (.binary (String.ofList r.render))
  | .broken => none
  | .boolean b => some (.bool b)
  | .moment _ | .table _ _ => some .map
  | .array _ | .tables _ _ => some .sequence

/-- A reader of values of a type. -/
abbrev Decoder (α : Type) := Value → Except DecodeError α

namespace Decoder

/-- The error for a value that is not of the expected kind. -/
def unexpected {α : Type} (expected : String) (v : Value) : Except DecodeError α :=
  match v.found? with
  | some found => .error (.mismatch (.wrongKind found expected))
  | none => .error .overflow

/-- Read a string. -/
def string : Decoder String
  | .string s => .ok s
  | v => unexpected "a string" v

/-- Read a natural number below a bound. -/
def below (bound : Nat) (expected : String) : Decoder Nat
  | .integer i =>
    if 0 ≤ i ∧ i < bound then .ok i.natAbs
    else .error (.mismatch (.outOfBounds i expected))
  | v => unexpected expected v

/-- Read an unsigned 16-bit integer. -/
def word16 : Decoder UInt16 := fun v => (below UInt16.size "u16" v).map UInt16.ofNat

/-- Read an unsigned 32-bit integer. -/
def word32 : Decoder UInt32 := fun v => (below UInt32.size "u32" v).map UInt32.ofNat

/-- Read an unsigned 64-bit integer. -/
def word64 : Decoder UInt64 := fun v => (below UInt64.size "u64" v).map UInt64.ofNat

/-- Read an entry that may be missing. -/
def optional {α : Type} (key : String) (f : Decoder α) (t : Table) :
    Except DecodeError (Option α) :=
  match t.get? key with
  | some v => (f v).map some
  | none => .ok none

/-- An entry that must have been there. -/
def required {α : Type} (key : String) : Option α → Except DecodeError α
  | some x => .ok x
  | none => .error (.mismatch (.missing key))

/-- Pass over the entries that a record does not know. -/
def skipOthers (known : List String) (t : Table) : Except DecodeError Unit :=
  if t.all fun e => known.contains e.1 || e.2.fits .any128 then .ok () else .error .overflow

/-- The field of the given index in a record written as an array. -/
def nth {α : Type} (f : Decoder α) (expected : String) (vs : List Value) (index : Nat) :
    Except DecodeError α :=
  match vs[index]? with
  | some v => f v
  | none => .error (.mismatch (.tooFew index expected))

/-- The field of the given index, with a value for its absence. -/
def nthD {α : Type} (f : Decoder α) (absent : α) (vs : List Value) (index : Nat) :
    Except DecodeError α :=
  match vs[index]? with
  | some v => f v
  | none => .ok absent

/-- Read a record from a table or from an array.  A moment is a table without any
entry that a record could know. -/
def record {α : Type} (expected : String) (ofTable : Table → Except DecodeError α)
    (ofItems : List Value → Except DecodeError α) : Decoder α
  | .table _ entries => ofTable entries
  | .moment _ => ofTable []
  | .array items => ofItems items
  | .tables earlier last => ofItems ((earlier ++ [last]).map (.table .header))
  | v => unexpected expected v

end Decoder

end CrashReports.Toml
