import CrashReports.Text.Form
import CrashReports.Toml.Gap

/-!
# TOML strings

Strings between double quotes take escapes, strings between single quotes do not.
Both may stand between triple quotes instead; they may then hold line ends, a
line end right after the opening quotes is dropped, and one or two quotes may
precede the closing ones.  A backslash at the end of a line removes all blanks
and line ends up to the next text.

`quote` writes a string between double quotes, and `readBasic` reads it back.
-/

namespace CrashReports.Toml

/-- The character of a one-letter escape. -/
def shortEscape? (c : Char) : Option Char :=
  if c = '"' ∨ c = '\\' then some c
  else if c = 'b' then some '\x08'
  else if c = 't' then some '\t'
  else if c = 'n' then some '\n'
  else if c = 'f' then some '\x0c'
  else if c = 'r' then some '\r'
  else if c = 'e' then some '\x1b'
  else none

/-- How many hexadecimal digits follow a letter that announces a code point. -/
def codeWidth? (c : Char) : Option Nat :=
  if c = 'x' then some 2
  else if c = 'u' then some 4
  else if c = 'U' then some 8
  else none

/-- The character with a code point, if there is one. -/
def ofCode? (n : Nat) : Option Char :=
  if n.isValidChar then some (Char.ofNat n) else none

/-- Where a reader of a string stands. -/
inductive TextState where
  | plain
  /-- After a backslash. -/
  | escape
  /-- In the digits of a code point: how many are missing, and the value so far. -/
  | code (missing value : Nat)
  /-- After a backslash at the end of a line: whether the line end has come. -/
  | gap (broken : Bool)

/-- Put a character before the text that was read. -/
def consText (c : Char) (r : Option (List Char × List Char)) :
    Option (List Char × List Char) :=
  r.map fun (s, rest) => (c :: s, rest)

/-- The quotes before the closing ones, after three quotes of a run, and the rest
of the text after the run. -/
def closeRun (quote : Char) : List Char → List Char × List Char
  | c :: d :: rest =>
    if c = quote ∧ d = quote then ([quote, quote], rest)
    else if c = quote then ([quote], d :: rest)
    else ([], c :: d :: rest)
  | [c] => if c = quote then ([quote], []) else ([], [c])
  | [] => ([], [])

/-- Whether a text begins with two quotes more. -/
def beginsPair (quote : Char) (cs : List Char) : Bool :=
  cs.take 2 == [quote, quote]

/-- Read a string after its opening double quote, or its opening triple quote. -/
def readBasic (triple : Bool) : TextState → List Char → Option (List Char × List Char)
  | _, [] => none
  | .plain, c :: cs => plainly c cs
  | .escape, c :: cs =>
    if triple && (isSpace c || beginsLineEnd c cs) then readBasic triple (.gap (c == '\n')) cs
    else
      match codeWidth? c with
      | some width => readBasic triple (.code width 0) cs
      | none => (shortEscape? c).bind fun e => consText e (readBasic triple .plain cs)
  | .code missing value, c :: cs =>
    (Text.hexDigit? c).bind fun digit =>
      if missing ≤ 1 then
        (ofCode? (value * 16 + digit)).bind fun e => consText e (readBasic triple .plain cs)
      else readBasic triple (.code (missing - 1) (value * 16 + digit)) cs
  | .gap broken, c :: cs =>
    if isSpace c then readBasic triple (.gap broken) cs
    else if beginsLineEnd c cs then readBasic triple (.gap (broken || c == '\n')) cs
    else if broken then plainly c cs
    else none
where
  /-- Go on with a character that is no part of an escape. -/
  plainly (c : Char) (cs : List Char) : Option (List Char × List Char) :=
    if c = '"' then
      if triple then
        if beginsPair '"' cs then some (closeRun '"' (cs.drop 2))
        else consText c (readBasic triple .plain cs)
      else some ([], cs)
    else if c = '\\' then readBasic triple .escape cs
    else if isPlain c || (triple && beginsLineEnd c cs) then
      consText c (readBasic triple .plain cs)
    else none

/-- Read a string after its opening single quote, or its opening triple quote. -/
def readLiteral (triple : Bool) : List Char → Option (List Char × List Char)
  | [] => none
  | c :: cs =>
    if c = '\x27' then
      if triple then
        if beginsPair '\x27' cs then some (closeRun '\x27' (cs.drop 2))
        else consText c (readLiteral triple cs)
      else some ([], cs)
    else if isPlain c || (triple && beginsLineEnd c cs) then consText c (readLiteral triple cs)
    else none

/-- Drop a line end right after opening quotes. -/
def skipFirstLineEnd (cs : List Char) : List Char :=
  (dropLineEnd? cs).getD cs

/-- Read a string of one line with its quotes. -/
def readLineText : List Char → Option (List Char × List Char)
  | c :: rest =>
    if c = '"' then readBasic false .plain rest
    else if c = '\x27' then readLiteral false rest
    else none
  | [] => none

/-- Read a string of any kind with its quotes. -/
def readText : List Char → Option (List Char × List Char)
  | c :: rest =>
    if beginsPair c rest ∧ c = '"' then
      readBasic true .plain (skipFirstLineEnd (rest.drop 2))
    else if beginsPair c rest ∧ c = '\x27' then
      readLiteral true (skipFirstLineEnd (rest.drop 2))
    else readLineText (c :: rest)
  | [] => none

/-- The form of a character between double quotes. -/
def quoteChar (c : Char) : List Char :=
  if c = '"' ∨ c = '\\' then ['\\', c]
  else if isPlain c ∧ c ≠ '\t' then [c]
  else '\\' :: 'u' :: '0' :: '0' :: Nat.digitChar (c.toNat / 16) :: [Nat.digitChar (c.toNat % 16)]

/-- A text between double quotes. -/
def quote (cs : List Char) : List Char :=
  '"' :: cs.flatMap quoteChar ++ ['"']

end CrashReports.Toml
