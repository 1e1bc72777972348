import CrashReports.Text.Character
import CrashReports.Text.Quoted

/-!
# Mismatches between data and its type

Why a value that was read does not fit the type it is wanted in.  The wording is
the same for every format the value may have come from.
-/

namespace CrashReports

/-- What was found in place of the expected kind of value. -/
inductive Found where
  | null
  | bool (b : Bool)
  | integer (i : Int)
  /-- A number that is no integer, by its text. -/
  | binary (text : String)
  | string (s : String)
  | sequence
  | map
deriving DecidableEq

/-- The wording of what was found. -/
def Found.message : Found → String
  | .null => "null"
  | .bool b => "boolean `" ++ (if b then "true" else "false") ++ "`"
  | .integer i => "integer `" ++ String.ofList (Text.signed i) ++ "`"
  | .binary text => "floating point `" ++ text ++ "`"
  | .string s => "string " ++ Text.quote s
  | .sequence => "sequence"
  | .map => "map"

/-- Why a value does not fit its type. -/
inductive Mismatch where
  /-- A value of another kind. -/
  | wrongKind (found : Found) (expected : String)
  /-- An integer outside its type. -/
  | outOfBounds (i : Int) (expected : String)
  /-- A record without one of its fields. -/
  | missing (field : String)
  /-- A record with two values for a field. -/
  | repeated (field : String)
  /-- A record written as an array that ends before the field of the given index. -/
  | tooFew (length : Nat) (expected : String)
  /-- A record written as an array of more items than it has fields. -/
  | tooMany (length : Nat)
deriving DecidableEq

/-- The wording of a mismatch. -/
def Mismatch.message : Mismatch → String
  | .wrongKind found expected => "invalid type: " ++ found.message ++ ", expected " ++ expected
  | .outOfBounds i expected =>
    "invalid value: integer `" ++ String.ofList (Text.signed i) ++ "`, expected " ++ expected
  | .missing field => "missing field `" ++ field ++ "`"
  | .repeated field => "duplicate field `" ++ field ++ "`"
  | .tooFew length expected =>
    "invalid length " ++ String.ofList (Text.decimal length) ++ ", expected " ++ expected
  | .tooMany length =>
    "invalid length " ++ String.ofList (Text.decimal length) ++
      ", expected fewer elements in array"

end CrashReports
