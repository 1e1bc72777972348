/-!
# Spaces, line ends and comments

The parts of a TOML text that carry no data.  Inside a line only spaces and tabs
may stand between tokens; between statements, and inside arrays and inline
tables, line ends and comments may stand there too.  A carriage return is a line
end only together with the line feed after it, and a comment holds no control
character but the tab.
-/

namespace CrashReports.Toml

/-- A blank inside a line. -/
def isSpace (c : Char) : Bool :=
  c == ' ' || c == '\t'

/-- A character that may stand in a comment or, unless it is a delimiter or an
escape, in a string: no control but the tab. -/
def isPlain (c : Char) : Bool :=
  c == '\t' || (0x20 ≤ c.toNat && c.toNat != 0x7F)

/-- Whether a character begins a line end, given what follows it. -/
def beginsLineEnd (c : Char) (cs : List Char) : Bool :=
  c == '\n' || (c == '\r' && cs.head? == some '\n')

/-- Skip the blanks inside a line. -/
def skipSpace (cs : List Char) : List Char :=
  cs.dropWhile isSpace

/-- Skip blanks, line ends and comments.  The first argument says whether the
text begins inside a comment. -/
def skipGap : Bool → List Char → List Char
  | _, [] => []
  | inComment, c :: cs =>
    if inComment && isPlain c then skipGap true cs
    else if isSpace c || beginsLineEnd c cs then skipGap false cs
    else if c == '#' then skipGap true cs
    else c :: cs

/-- The rest of the text after a line end, if it begins with one. -/
def dropLineEnd? : List Char → Option (List Char)
  | '\n' :: rest => some rest
  | '\r' :: '\n' :: rest => some rest
  | _ => none

/-- The text after the comment that it begins with, if it begins with one. -/
def skipComment : List Char → List Char
  | '#' :: rest => rest.dropWhile isPlain
  | cs => cs

/-- What follows the line, if nothing but blanks and a comment is left of it. -/
def endLine? (cs : List Char) : Option (List Char) :=
  match skipComment (skipSpace cs) with
  | [] => some []
  | cs => dropLineEnd? cs

end CrashReports.Toml
