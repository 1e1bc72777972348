import CrashReports.Store.Numeric
import CrashReports.Text.Utf8

/-!
# Stored values

The columns of a crash decide in which form a value is stored.  Identity, name and
log are text columns: a number is stored as its text.  The time of a crash is a
numeric column that must have a value: a text that writes a number is stored as
that number, and a whole number as an integer.  Bytes are stored as they are in
either.

The store takes any bytes for a text if it is told so.  A text that is no UTF-8 writes
no number, and it is ordered among the other texts by its bytes.
-/

namespace CrashReports.Store

/-- A value handed to the store. -/
inductive Value where
  | null
  | integer (i : Int)
  | real (x : Rat)
  | text (s : String)
  /-- A text that is no UTF-8. -/
  | broken (t : Text.BrokenText)
  | bytes (bs : List UInt8)
deriving DecidableEq

/-- A value in a text column. -/
inductive TextCell where
  | null
  | text (s : String)
  /-- A text that is no UTF-8. -/
  | broken (t : Text.BrokenText)
  | bytes (bs : List UInt8)
deriving DecidableEq

/-- A value in the column for the time of a crash. -/
inductive StampCell where
  | number (n : Number)
  | text (s : String)
  /-- A text that is no UTF-8. -/
  | broken (t : Text.BrokenText)
  | bytes (bs : List UInt8)
deriving DecidableEq

/-- The stored form of a value in a text column. -/
def TextCell.ofValue : Value → TextCell
  | .null => .null
  | .integer i => .text (Number.integer i).render
  | .real x => .text (Number.real x).render
  | .text s => .text s
  | .broken t => .broken t
  | .bytes bs => .bytes bs

/-- The stored form of a time; there is none for `null`. -/
def StampCell.ofValue? : Value → Option StampCell
  | .null => none
  | .integer i => some (.number (.integer i))
  | .real x => some (.number (Number.ofReal x))
  | .text s =>
    match readNumber s.toList with
    | some n => some (.number n)
    | none => some (.text s)
  | .broken t => some (.broken t)
  | .bytes bs => some (.bytes bs)

/-- The bytes of a time as text. -/
def StampCell.textBytes : StampCell → List UInt8
  | .number n => Text.utf8 n.render
  | .text s => Text.utf8 s
  | .broken t => t.bytes
  | .bytes bs => bs

/-! ### Order -/

/-- The place of a text column in the order of kinds: nothing, texts, bytes. -/
def TextCell.kind : TextCell → Nat
  | .null => 0
  | .text _ | .broken _ => 1
  | .bytes _ => 2

/-- The bytes that a text column is ordered by. -/
def TextCell.content : TextCell → List UInt8
  | .null => []
  | .text s => Text.utf8 s
  | .broken t => t.bytes
  | .bytes bs => bs

/-- Order of text columns: by kind, and then by bytes. -/
def TextCell.before (a b : TextCell) : Bool :=
  if a.kind = b.kind then a.content < b.content else a.kind < b.kind

/-- The place of a time in the order of kinds: numbers, texts, bytes. -/
def StampCell.kind : StampCell → Nat
  | .number _ => 0
  | .text _ | .broken _ => 1
  | .bytes _ => 2

/-- The number that a time is ordered by. -/
def StampCell.value : StampCell → Rat
  | .number n => n.value
  | _ => 0

/-- The bytes that a time is ordered by; a number has none. -/
def StampCell.content : StampCell → List UInt8
  | .number _ => []
  | c => c.textBytes

/-- Order of stored times: by kind, numbers by value, and all others by bytes. -/
def StampCell.before (a b : StampCell) : Bool :=
  if a.kind = b.kind then
    if a.value = b.value then a.content < b.content else a.value < b.value
  else a.kind < b.kind

end CrashReports.Store
