import CrashReports.Text.Character

/-!
# JSON values and their text

The values that the library writes, and their compact text: no blanks, members
in the order they are given, and only the quote, the backslash and the controls
escaped inside strings.
-/

namespace CrashReports

/-- A JSON value whose numbers are integers. -/
inductive Json where
  | null
  | bool (b : Bool)
  | integer (i : Int)
  | string (s : String)
  | array (items : List Json)
  | object (members : List (String × Json))

namespace Json

/-- A hexadecimal digit in lower case. -/
def hexDigit (n : Nat) : Char :=
  Nat.digitChar n

/-- The form of one character inside a JSON string. -/
def escapeChar (c : Char) : List Char :=
  if c = '"' then ['\\', '"']
  else if c = '\\' then ['\\', '\\']
  else if c = '\x08' then ['\\', 'b']
  else if c = '\x0c' then ['\\', 'f']
  else if c = '\n' then ['\\', 'n']
  else if c = '\r' then ['\\', 'r']
  else if c = '\t' then ['\\', 't']
  else if c.toNat < 0x20 then
    ['\\', 'u', '0', '0', hexDigit (c.toNat / 16), hexDigit (c.toNat % 16)]
  else [c]

/-- A string between quotes. -/
def writeString (s : String) : List Char :=
  '"' :: s.toList.flatMap escapeChar ++ ['"']

mutual

/-- The text of a value. -/
def write : Json → List Char
  | .null => ['n', 'u', 'l', 'l']
  | .bool true => ['t', 'r', 'u', 'e']
  | .bool false => ['f', 'a', 'l', 's', 'e']
  | .integer i => Text.signed i
  | .string s => writeString s
  | .array [] => ['[', ']']
  | .array (v :: vs) => '[' :: write v ++ writeItems vs
  | .object [] => ['\x7b', '\x7d']
  | .object ((k, v) :: ms) => '\x7b' :: writeString k ++ ':' :: write v ++ writeMembers ms

/-- The text from the second item of an array on. -/
def writeItems : List Json → List Char
  | [] => [']']
  | v :: vs => ',' :: write v ++ writeItems vs

/-- The text from the second member of an object on. -/
def writeMembers : List (String × Json) → List Char
  | [] => ['\x7d']
  | (k, v) :: ms => ',' :: writeString k ++ ':' :: write v ++ writeMembers ms

end

/-- The text of a value. -/
def render (v : Json) : String :=
  String.ofList v.write

/-- A list of values as an array. -/
def ofList {α : Type} (f : α → Json) (xs : List α) : Json :=
  .array (xs.map f)

/-- A value that may be absent, with `null` for its absence. -/
def ofOption {α : Type} (f : α → Json) : Option α → Json
  | none => .null
  | some x => f x

end Json

end CrashReports
