import CrashReports.Json.Numeral
import CrashReports.Json.Value

/-!
# Reading JSON text

What a text says up to its first fault.  A reader that knows which members it
wants meets an unwanted value before a later syntax error, so the text is not
refused as a whole: the tree keeps everything before the fault, and marks the
value that is broken and the arrays and objects that are not closed.

A string with an unpaired surrogate escape stands for no text; it is a fault only
where the text is wanted.
-/

namespace CrashReports.Json

/-- A JSON text up to its first fault. -/
inductive Parsed where
  /-- A value that ends in a fault, or no value at all. -/
  | broken
  | null
  | bool (b : Bool)
  | number (n : Numeral)
  /-- A string, with no text if a surrogate in it is unpaired. -/
  | string (s : Option String)
  | array (items : List Parsed) (closed : Bool)
  | object (members : List (Option String × Parsed)) (closed : Bool)

/-- The blanks between the tokens of a JSON text. -/
def isSpace (c : Char) : Bool :=
  c == ' ' || c == '\n' || c == '\t' || c == '\r'

/-- Skip the blanks before a token. -/
def skipSpace (cs : List Char) : List Char :=
  cs.dropWhile isSpace

/-- The value of a hexadecimal digit. -/
def hexValue? (c : Char) : Option Nat :=
  if c.isDigit then some (c.toNat - '0'.toNat)
  else if 'a' ≤ c ∧ c ≤ 'f' then some (c.toNat - 'a'.toNat + 10)
  else if 'A' ≤ c ∧ c ≤ 'F' then some (c.toNat - 'A'.toNat + 10)
  else none

/-- The value of hexadecimal digits. -/
def hexNumber? (cs : List Char) : Option Nat :=
  (cs.mapM hexValue?).map fun ds => ds.foldl (fun n d => n * 16 + d) 0

/-- The character of a one-letter escape. -/
def shortEscape? (c : Char) : Option Char :=
  if c = '"' ∨ c = '\\' ∨ c = '/' then some c
  else if c = 'b' then some '\x08'
  else if c = 'f' then some '\x0c'
  else if c = 'n' then some '\n'
  else if c = 'r' then some '\r'
  else if c = 't' then some '\t'
  else none

/-- The code points and surrogates of a string, after its opening quote. -/
def readUnits : List Char → Option (List Nat × List Char)
  | [] => none
  | '"' :: rest => some ([], rest)
  | '\\' :: 'u' :: a :: b :: c :: d :: rest => do
    let unit ← hexNumber? [a, b, c, d]
    let (units, rest) ← readUnits rest
    pure (unit :: units, rest)
  | '\\' :: e :: rest => do
    let c ← shortEscape? e
    let (units, rest) ← readUnits rest
    pure (c.toNat :: units, rest)
  | c :: rest =>
    if c.toNat < 0x20 then none
    else do
      let (units, rest) ← readUnits rest
      pure (c.toNat :: units, rest)

/-- Whether a number is the first half of a surrogate pair. -/
def isHighSurrogate (n : Nat) : Bool := 0xD800 ≤ n && n ≤ 0xDBFF

/-- Whether a number is the second half of a surrogate pair. -/
def isLowSurrogate (n : Nat) : Bool := 0xDC00 ≤ n && n ≤ 0xDFFF

/-- The text of code points and surrogate pairs. -/
def pairUnits : List Nat → Option (List Char)
  | [] => some []
  | [u] => if isHighSurrogate u || isLowSurrogate u then none else some [Char.ofNat u]
  | u :: v :: rest =>
    if isHighSurrogate u then
      if isLowSurrogate v then
        (pairUnits rest).map (Char.ofNat (0x10000 + (u - 0xD800) * 0x400 + (v - 0xDC00)) :: ·)
      else none
    else if isLowSurrogate u then none
    else (pairUnits (v :: rest)).map (Char.ofNat u :: ·)

/-- A string after its opening quote. -/
def readString (cs : List Char) : Option (Option String × List Char) :=
  (readUnits cs).map fun (units, rest) => ((pairUnits units).map String.ofList, rest)

/-- Digits of which there must be at least one. -/
def readDigits1 (cs : List Char) : Option (List Char × List Char) :=
  let (digits, rest) := Text.spanDigits cs
  if digits = [] then none else some (digits, rest)

/-- The part of a number after its point, if there is a point. -/
def readFraction (cs : List Char) : Option (Option (List Char) × List Char) :=
  match cs with
  | '.' :: rest => (readDigits1 rest).map fun (ds, rest) => (some ds, rest)
  | _ => some (none, cs)

/-- The exponent of a number, if there is one. -/
def readExponent (cs : List Char) : Option (Option Int × List Char) :=
  match cs with
  | e :: rest =>
    if e = 'e' ∨ e = 'E' then
      match rest with
      | '+' :: rest => (readDigits1 rest).map fun (ds, rest) => (some (Text.digitsValue ds), rest)
      | '-' :: rest =>
        (readDigits1 rest).map fun (ds, rest) => (some (-(Text.digitsValue ds : Int)), rest)
      | rest => (readDigits1 rest).map fun (ds, rest) => (some (Text.digitsValue ds), rest)
    else some (none, cs)
  | [] => some (none, cs)

/-- A number: its digits before the point have no leading zero. -/
def readNumeral (cs : List Char) : Option (Numeral × List Char) := do
  let (negative, cs) := match cs with
    | '-' :: rest => (true, rest)
    | _ => (false, cs)
  let (whole, cs) ← readDigits1 cs
  if whole.head? = some '0' ∧ 1 < whole.length then none
  let (fraction, cs) ← readFraction cs
  let (exponent, cs) ← readExponent cs
  pure (⟨negative, whole, fraction, exponent⟩, cs)

mutual

/-- Read a value; the rest of the text is there if no fault was met.  The first
argument bounds the nesting. -/
def readValue : Nat → List Char → Parsed × Option (List Char)
  | 0, _ => (.broken, none)
  | fuel + 1, cs =>
    match skipSpace cs with
    | 'n' :: 'u' :: 'l' :: 'l' :: rest => (.null, some rest)
    | 't' :: 'r' :: 'u' :: 'e' :: rest => (.bool true, some rest)
    | 'f' :: 'a' :: 'l' :: 's' :: 'e' :: rest => (.bool false, some rest)
    | '"' :: rest =>
      match readString rest with
      | some (s, rest) => (.string s, some rest)
      | none => (.broken, none)
    | '[' :: rest =>
      match skipSpace rest with
      | ']' :: rest => (.array [] true, some rest)
      | rest =>
        let (items, rest) := readItems fuel rest
        (.array items rest.isSome, rest)
    | '\x7b' :: rest =>
      match skipSpace rest with
      | '\x7d' :: rest => (.object [] true, some rest)
      | rest =>
        let (members, rest) := readMembers fuel rest
        (.object members rest.isSome, rest)
    | rest =>
      match readNumeral rest with
      | some (n, rest) => (.number n, some rest)
      | none => (.broken, none)

/-- Read the items of an array up to its end. -/
def readItems : Nat → List Char → List Parsed × Option (List Char)
  | 0, _ => ([], none)
  | fuel + 1, cs =>
    match readValue fuel cs with
    | (v, none) => ([v], none)
    | (v, some rest) =>
      match skipSpace rest with
      | ']' :: rest => ([v], some rest)
      | ',' :: rest =>
        let (vs, rest) := readItems fuel rest
        (v :: vs, rest)
      | _ => ([v], none)

/-- Read the members of an object up to its end. -/
def readMembers : Nat → List Char → List (Option String × Parsed) × Option (List Char)
  | 0, _ => ([], none)
  | fuel + 1, cs =>
    match skipSpace cs with
    | '"' :: rest =>
      match readString rest with
      | none => ([], none)
      | some (key, rest) =>
        match skipSpace rest with
        | ':' :: rest =>
          match readValue fuel rest with
          | (v, none) => ([(key, v)], none)
          | (v, some rest) =>
            match skipSpace rest with
            | '\x7d' :: rest => ([(key, v)], some rest)
            | ',' :: rest =>
              let (ms, rest) := readMembers fuel rest
              ((key, v) :: ms, rest)
            | _ => ([(key, v)], none)
        | _ => ([(key, .broken)], none)
    | _ => ([], none)

end

/-- Read a text as one value, and say whether nothing but blanks follows it. -/
def Parsed.ofText (text : String) : Parsed × Bool :=
  let cs := text.toList
  match readValue (2 * cs.length + 2) cs with
  | (v, some rest) => (v, skipSpace rest = [])
  | (v, none) => (v, false)

mutual

/-- Whether a value has no fault but unpaired surrogates. -/
def Parsed.isWhole : Parsed → Bool
  | .broken => false
  | .null | .bool _ | .number _ | .string _ => true
  | .array items closed => areWhole items && closed
  | .object members closed => haveWholeValues members && closed

/-- Whether all values of a list have no fault. -/
def Parsed.areWhole : List Parsed → Bool
  | [] => true
  | v :: vs => v.isWhole && areWhole vs

/-- Whether the values of all members have no fault. -/
def Parsed.haveWholeValues : List (Option String × Parsed) → Bool
  | [] => true
  | (_, v) :: ms => v.isWhole && haveWholeValues ms

end

end CrashReports.Json
