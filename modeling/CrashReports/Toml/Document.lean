import CrashReports.Toml.Moment
import CrashReports.Toml.Number
import CrashReports.Toml.Table
import CrashReports.Toml.Text

/-!
# TOML documents

The reader of a document: one statement a line, each a header or a key with a
value.  Arrays and inline tables may go over several lines, but a dotted key may not.
Arrays and inline tables are nested at most `deepest` times, and a dotted key has at
most as many parts.
-/

namespace CrashReports.Toml

/-- How many arrays and inline tables may stand inside one another, and how many
parts a key may have. -/
def deepest : Nat := 80

/-! ### Keys -/

/-- A character of a key without quotes. -/
def isBareKeyChar (c : Char) : Bool :=
  c.isAlphanum || c == '_' || c == '-'

/-- One part of a key. -/
def readKey (cs : List Char) : Option (String × List Char) :=
  match readLineText cs with
  | some (s, rest) => some (String.ofList s, rest)
  | none =>
    match cs.takeWhile isBareKeyChar with
    | [] => none
    | key => some (String.ofList key, cs.dropWhile isBareKeyChar)

/-- A dotted key of at most so many parts, with the blanks around them. -/
def readPath : Nat → List Char → Option (Path × List Char)
  | 0, _ => none
  | parts + 1, cs => do
    let (key, cs) ← readKey (skipSpace cs)
    match skipSpace cs with
    | '.' :: cs =>
      let (path, cs) ← readPath parts cs
      some (⟨key :: path.parents, path.last⟩, cs)
    | cs => some (⟨[], key⟩, cs)

/-- A dotted key, and the rest of the text. -/
def readDottedKey (cs : List Char) : Option (Path × List Char) :=
  readPath deepest cs

/-! ### Values -/

/-- A character that ends an unquoted text. -/
def endsAtom (c : Char) : Bool :=
  ['=', ',', '[', ']', '\x7b', '\x7d', ' ', '\t', '#', '\r', '\n'].contains c

/-- The value that an unquoted text stands for. -/
def atom? (cs : List Char) : Option Value :=
  if cs = ['t', 'r', 'u', 'e'] then some (.boolean true)
  else if cs = ['f', 'a', 'l', 's', 'e'] then some (.boolean false)
  else if isMoment cs then some (.moment (String.ofList cs))
  else number? cs

/-- Split off the unquoted text that a text begins with.  A date goes on after a
blank if a digit follows. -/
def spanAtom (cs : List Char) : List Char × List Char :=
  let atom := cs.takeWhile fun c => !endsAtom c
  match cs.dropWhile fun c => !endsAtom c with
  | ' ' :: c :: rest =>
    if isDate atom ∧ c.isDigit then
      (atom ++ ' ' :: (c :: rest).takeWhile fun c => !endsAtom c,
        (c :: rest).dropWhile fun c => !endsAtom c)
    else (atom, ' ' :: c :: rest)
  | rest => (atom, rest)

/-- A value that holds no other values. -/
def readScalar (cs : List Char) : Option (Value × List Char) :=
  match readText cs with
  | some (s, rest) => some (.string (String.ofList s), rest)
  | none =>
    let (atom, rest) := spanAtom cs
    (atom? atom).map fun v => (v, rest)

/-- A reader of values. -/
abbrev Reader := List Char → Option (Value × List Char)

/-- The items of an array after its opening bracket.  The second argument bounds
their number. -/
def readItems (item : Reader) : Nat → List Char → Option (List Value × List Char)
  | 0, _ => none
  | fuel + 1, cs =>
    match skipGap false cs with
    | ']' :: rest => some ([], rest)
    | cs => do
      let (v, cs) ← item cs
      match skipGap false cs with
      | ']' :: rest => some ([v], rest)
      | ',' :: rest =>
        let (vs, rest) ← readItems item fuel rest
        some (v :: vs, rest)
      | _ => none

/-- A key and its value.  The first argument skips what may stand around the sign
between them. -/
def readPair (skip : List Char → List Char) (item : Reader) (cs : List Char) :
    Option ((Path × Value) × List Char) := do
  let (path, cs) ← readDottedKey cs
  match skip cs with
  | '=' :: cs =>
    let (v, cs) ← item (skip cs)
    some ((path, v), cs)
  | _ => none

/-- The pairs of an inline table after its opening brace.  The second argument
bounds their number. -/
def readPairs (item : Reader) : Nat → List Char → Option (List (Path × Value) × List Char)
  | 0, _ => none
  | fuel + 1, cs =>
    match skipGap false cs with
    | '\x7d' :: rest => some ([], rest)
    | cs => do
      let (p, cs) ← readPair (skipGap false) item cs
      match skipGap false cs with
      | '\x7d' :: rest => some ([p], rest)
      | ',' :: rest =>
        let (ps, rest) ← readPairs item fuel rest
        some (p :: ps, rest)
      | _ => none

/-- A value with so many levels of arrays and inline tables at most. -/
def readValue : Nat → Reader
  | 0, cs => readScalar cs
  | depth + 1, cs =>
    match cs with
    | '[' :: rest =>
      (readItems (readValue depth) (rest.length + 1) rest).map fun (vs, rest) => (.array vs, rest)
    | '\x7b' :: rest => do
      let (ps, rest) ← readPairs (readValue depth) (rest.length + 1) rest
      let entries ← Table.ofPairs ps
      some (.table .inline entries, rest)
    | cs => readScalar cs

/-! ### Statements -/

/-- One statement. -/
def readStatement : List Char → Option (Statement × List Char)
  | '[' :: '[' :: cs => do
    let (path, cs) ← readDottedKey cs
    match cs with
    | ']' :: ']' :: rest => some (.item path, rest)
    | _ => none
  | '[' :: cs => do
    let (path, cs) ← readDottedKey cs
    match cs with
    | ']' :: rest => some (.table path, rest)
    | _ => none
  | cs => do
    let ((path, v), rest) ← readPair skipSpace (readValue deepest) cs
    some (.pair path v, rest)

/-- The statements of a text, at most one a line.  The first argument bounds their
number. -/
def readStatements : Nat → List Char → Option (List Statement)
  | 0, _ => none
  | fuel + 1, cs =>
    match skipGap false cs with
    | [] => some []
    | cs => do
      let (s, cs) ← readStatement cs
      let cs ← endLine? cs
      let ss ← readStatements fuel cs
      some (s :: ss)

/-- A text without a byte order mark. -/
def skipMark : List Char → List Char
  | '\uFEFF' :: cs => cs
  | cs => cs

/-- Read a document. -/
def readDocument (text : String) : Option Table := do
  let cs := skipMark text.toList
  let statements ← readStatements (cs.length + 1) cs
  Table.ofStatements statements

end CrashReports.Toml
