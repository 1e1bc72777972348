import CrashReports.Text.Form

/-!
# A tree of files

Directories and files by their place, and the making of missing directories.  A
path is a list of names, read from the root on; `..` leads to the directory that
holds the present one, and only existing directories can be passed through.

`Tree.makeAll` makes a directory together with all missing directories above it.
What has been made stays when it fails.
-/

namespace CrashReports.Files

/-- The name of a file or directory. -/
abbrev Name := List Char

/-- Where a file or directory stands: the names from the root down to it. -/
abbrev Place := List Name

/-- What stands at a place. -/
inductive Entry where
  | directory
  | database
  /-- A file that is no database. -/
  | otherFile
deriving DecidableEq

/-- The files and directories below the root, which is always there. -/
structure Tree where
  entries : List (Place × Entry)

/-- Why a path cannot be followed or a directory cannot be made. -/
inductive PathFault where
  | missing
  | notDirectory
  /-- Something stands at the place already. -/
  | taken
  | nameTooLong
  | nulCharacter
deriving DecidableEq

/-- The wording of a fault. -/
def PathFault.message : PathFault → String
  | .missing => "No such file or directory (os error 2)"
  | .notDirectory => "Not a directory (os error 20)"
  | .taken => "File exists (os error 17)"
  | .nameTooLong => "File name too long (os error 36)"
  | .nulCharacter => "file name contained an unexpected NUL byte"

/-- The name that leads to the directory above. -/
def above : Name := ['.', '.']

/-- The names of a path; empty names and single dots lead nowhere. -/
def namesOf (path : List Char) : List Name :=
  (Text.splitAt '/' path).filter fun name => name != [] && name != ['.']

/-- How many bytes a name takes. -/
def nameSize (name : Name) : Nat :=
  (name.flatMap String.utf8EncodeChar).length

/-- How many bytes a name may take. -/
def longestName : Nat := 255

/-- How many bytes the names of a path take, each with the slash before it. -/
def pathSize (names : List Name) : Nat :=
  (names.map fun name => nameSize name + 1).foldr (· + ·) 0

/-- How many bytes a path may take. -/
def longestPath : Nat := 4095

namespace Tree

/-- What stands at a place. -/
def at? (t : Tree) (place : Place) : Option Entry :=
  if place = [] then some .directory
  else (t.entries.find? fun e => e.1 == place).map Prod.snd

/-- Whether a directory stands at a place. -/
def isDirectory (t : Tree) (place : Place) : Bool :=
  t.at? place == some .directory

/-- Put something at a place where nothing stands. -/
def add (t : Tree) (place : Place) (entry : Entry) : Tree :=
  ⟨t.entries ++ [(place, entry)]⟩

/-- Follow one name. -/
def step (t : Tree) (place : Place) (name : Name) : Except PathFault Place :=
  if t.isDirectory place then
    if name = above then .ok place.dropLast
    else if longestName < nameSize name then .error .nameTooLong
    else if (t.at? (place ++ [name])).isSome then .ok (place ++ [name])
    else .error .missing
  else .error .notDirectory

/-- Follow names from the root on. -/
def walk (t : Tree) (names : List Name) : Except PathFault Place :=
  names.foldlM t.step []

/-- Whether a path leads to a directory. -/
def leadsToDirectory (t : Tree) (names : List Name) : Bool :=
  match t.walk names with
  | .ok place => t.isDirectory place
  | .error _ => false

/-- Make one directory, in the one that the names lead to. -/
def make (t : Tree) (names : List Name) (name : Name) : Except PathFault Tree :=
  match t.walk names with
  | .error fault => .error fault
  | .ok place =>
    match t.step place name with
    | .ok _ => .error .taken
    | .error .missing => .ok (t.add (place ++ [name]) .directory)
    | .error fault => .error fault

/-- Make a directory unless it is there, and say what went wrong. -/
def ensure (t : Tree) (names : List Name) (name : Name) : Tree × Option PathFault :=
  match t.make names name with
  | .ok t => (t, none)
  | .error fault =>
    (t, if t.leadsToDirectory (names ++ [name]) then none else some fault)

/-- Make a directory and the missing ones above it.  The names are given from the
directory up to the root. -/
def makeAll (t : Tree) : List Name → Tree × Option PathFault
  | [] => (t, none)
  | name :: rest =>
    match t.ensure rest.reverse name with
    | (_, some .missing) =>
      match t.makeAll rest with
      | (t, some fault) => (t, some fault)
      | (t, none) => t.ensure rest.reverse name
    | result => result

end Tree

end CrashReports.Files
