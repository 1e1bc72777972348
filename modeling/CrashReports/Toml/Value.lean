import CrashReports.Decimal.Style

/-!
# TOML values

The values that a TOML document can hold.  A table remembers how it came about,
because that decides which later statements may add to it.  Integers are of any
size here; which of them fit is asked by those who read them.
-/

namespace CrashReports.Toml

/-- A floating-point number. -/
inductive Real where
  /-- A sign and a magnitude of double precision, which may be zero. -/
  | finite (negative : Bool) (magnitude : Rat)
  | infinite (negative : Bool)
  | notANumber
  /-- Digits whose value leaves the range of double precision. -/
  | tooLarge
deriving DecidableEq

/-- The text of a floating-point number in messages. -/
def Real.render : Real → List Char
  | .finite negative m =>
    (if negative then ['-'] else []) ++ Decimal.writeShortest Decimal.plainStyle m
  | .infinite negative => (if negative then ['-'] else []) ++ ['i', 'n', 'f']
  | .notANumber => ['N', 'a', 'N']
  | .tooLarge => ['i', 'n', 'f']

/-- How a table came about. -/
inductive TableKind where
  /-- By a header with its name, or as the document itself. -/
  | header
  /-- On the way to a header with a longer name. -/
  | implicit
  /-- On the way to the last part of a dotted key. -/
  | dotted
  /-- Between braces. -/
  | inline
deriving DecidableEq

/-- A TOML value. -/
inductive Value where
  | string (s : String)
  | integer (i : Int)
  | real (r : Real)
  /-- A number whose digits cannot be read. -/
  | broken
  | boolean (b : Bool)
  /-- A date, a time, or both, as written. -/
  | moment (text : String)
  /-- An array between brackets. -/
  | array (items : List Value)
  | table (kind : TableKind) (entries : List (String × Value))
  /-- The tables that share a double-bracketed header, with the last one apart. -/
  | tables (earlier : List (List (String × Value))) (last : List (String × Value))

/-- The entries of a table.  No name occurs twice. -/
abbrev Table := List (String × Value)

/-- The value under a name. -/
def Table.get? (t : Table) (key : String) : Option Value :=
  (t.find? fun e => e.1 == key).map Prod.snd

/-- Put a value under a name, in place of the one that is there. -/
def Table.put (key : String) (v : Value) : Table → Table
  | [] => [(key, v)]
  | e :: es => if e.1 = key then (key, v) :: es else e :: put key v es

/-- Which numbers somebody can hold. -/
structure NumberRange where
  least : Int
  greatest : Int

/-- The integers of 64 bits with a sign. -/
def NumberRange.signed64 : NumberRange := ⟨-Int.pow 2 63, Int.pow 2 63 - 1⟩

/-- The integers of 128 bits, with or without a sign. -/
def NumberRange.any128 : NumberRange := ⟨-Int.pow 2 127, Int.pow 2 128 - 1⟩

mutual

/-- Whether all integers of a value are in a range, and every number can be read and
is not too large for its kind. -/
def Value.fits (r : NumberRange) : Value → Bool
  | .integer i => r.least ≤ i && i ≤ r.greatest
  | .real .tooLarge | .broken => false
  | .string _ | .real _ | .boolean _ | .moment _ => true
  | .array items => Value.allFit r items
  | .table _ entries => Value.entriesFit r entries
  | .tables earlier last => Value.tablesFit r earlier && Value.entriesFit r last

/-- Whether the numbers of all values fit. -/
def Value.allFit (r : NumberRange) : List Value → Bool
  | [] => true
  | v :: vs => v.fits r && Value.allFit r vs

/-- Whether the numbers of a table fit. -/
def Value.entriesFit (r : NumberRange) : List (String × Value) → Bool
  | [] => true
  | (_, v) :: es => v.fits r && Value.entriesFit r es

/-- Whether the numbers of all tables fit. -/
def Value.tablesFit (r : NumberRange) : List (List (String × Value)) → Bool
  | [] => true
  | t :: ts => Value.entriesFit r t && Value.tablesFit r ts

end

end CrashReports.Toml
