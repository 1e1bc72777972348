import CrashReports.Text.Character

/-!
# Text as bytes

The UTF-8 bytes of a text, and the reading of bytes as UTF-8.  The reader marks
each faulty stretch once: a stretch is the longest start of a character that the
next byte cannot continue.  A strict reading refuses any mark, a lenient one
puts U+FFFD in its place.
-/

namespace CrashReports.Text

/-- The UTF-8 bytes of a text. -/
def utf8 (s : String) : List UInt8 :=
  s.toList.flatMap String.utf8EncodeChar

/-- A character that has begun: how many bytes it still needs, the bounds of the
next of them, and the bits read so far. -/
structure Begun where
  missing : Nat
  low : UInt8
  high : UInt8
  bits : Nat

/-- What the first byte of a character says. -/
inductive FirstByte where
  | whole (c : Char)
  | opens (b : Begun)
  | faulty

/-- Classify the first byte of a character. -/
def FirstByte.of (b : UInt8) : FirstByte :=
  let n := b.toNat
  if n < 0x80 then .whole (Char.ofNat n)
  else if n < 0xC2 then .faulty
  else if n < 0xE0 then .opens ⟨1, 0x80, 0xBF, n - 0xC0⟩
  else if n = 0xE0 then .opens ⟨2, 0xA0, 0xBF, 0⟩
  else if n = 0xED then .opens ⟨2, 0x80, 0x9F, 0xD⟩
  else if n < 0xF0 then .opens ⟨2, 0x80, 0xBF, n - 0xE0⟩
  else if n = 0xF0 then .opens ⟨3, 0x90, 0xBF, 0⟩
  else if n < 0xF4 then .opens ⟨3, 0x80, 0xBF, n - 0xF0⟩
  else if n = 0xF4 then .opens ⟨3, 0x80, 0x8F, 4⟩
  else .faulty

/-- Read bytes as UTF-8, with `none` for each faulty stretch.  The first
argument is the character that has begun, if any. -/
def utf8Marks : Option Begun → List UInt8 → List (Option Char)
  | none, [] => []
  | some _, [] => [none]
  | none, b :: bs => start b bs
  | some p, b :: bs =>
      if p.low ≤ b ∧ b ≤ p.high then
        let bits := p.bits * 64 + (b.toNat - 0x80)
        if p.missing ≤ 1 then
          some (Char.ofNat bits) :: utf8Marks none bs
        else
          utf8Marks (some ⟨p.missing - 1, 0x80, 0xBF, bits⟩) bs
      else
        none :: start b bs
where
  /-- Read on from the first byte of a character. -/
  start (b : UInt8) (bs : List UInt8) : List (Option Char) :=
    match FirstByte.of b with
    | .whole c => some c :: utf8Marks none bs
    | .opens p => utf8Marks (some p) bs
    | .faulty => none :: utf8Marks none bs

/-- The text that the bytes write, if they are UTF-8 throughout. -/
def ofUtf8? (bs : List UInt8) : Option String :=
  (utf8Marks none bs).mapM id |>.map String.ofList

/-- The text that the bytes write, with U+FFFD for each faulty stretch. -/
def ofUtf8Lossy (bs : List UInt8) : String :=
  String.ofList ((utf8Marks none bs).map fun m => m.getD '\uFFFD')

/-- The first faulty stretch of bytes: where it begins, and how long it is unless
the bytes end in it. -/
structure Utf8Fault where
  index : Nat
  length : Option Nat
deriving DecidableEq

/-- Look for the first faulty stretch.  The numbers are the index of the first byte
of the present character and how many of its bytes have been read. -/
def utf8Fault? (index read : Nat) : Option Begun → List UInt8 → Option Utf8Fault
  | none, [] => none
  | some _, [] => some ⟨index, none⟩
  | none, b :: bs =>
    match FirstByte.of b with
    | .whole _ => utf8Fault? (index + 1) 0 none bs
    | .opens p => utf8Fault? index 1 (some p) bs
    | .faulty => some ⟨index, some 1⟩
  | some p, b :: bs =>
    if p.low ≤ b ∧ b ≤ p.high then
      if p.missing ≤ 1 then utf8Fault? (index + read + 1) 0 none bs
      else
        utf8Fault? index (read + 1)
          (some ⟨p.missing - 1, 0x80, 0xBF, p.bits * 64 + (b.toNat - 0x80)⟩) bs
    else some ⟨index, some read⟩

/-- Read bytes as UTF-8, or say where they fail to be. -/
def readUtf8 (bs : List UInt8) : Except Utf8Fault String :=
  match utf8Fault? 0 0 none bs with
  | some fault => .error fault
  | none => .ok (ofUtf8Lossy bs)

/-- Bytes that are no UTF-8. -/
@[ext]
structure BrokenText where
  bytes : List UInt8
  isBroken : (utf8Fault? 0 0 none bytes).isSome
deriving DecidableEq

/-- The first faulty stretch of bytes that are no UTF-8. -/
def BrokenText.fault (t : BrokenText) : Utf8Fault :=
  (utf8Fault? 0 0 none t.bytes).get t.isBroken

/-- The wording of a fault. -/
def Utf8Fault.message (f : Utf8Fault) : String :=
  match f.length with
  | some n =>
    "invalid utf-8 sequence of " ++ String.ofList (decimal n) ++ " bytes from index " ++
      String.ofList (decimal f.index)
  | none => "incomplete utf-8 byte sequence from index " ++ String.ofList (decimal f.index)

end CrashReports.Text
