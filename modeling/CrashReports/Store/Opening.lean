import CrashReports.Files.Tree
import CrashReports.Store.Location
import CrashReports.Store.Table

/-!
# Opening a store

From a path to an open database.  The path is used twice: as it stands, for the
directory of the database file, which is made if it is missing; and as a location,
for the file itself.  The two readings differ where the path holds a question mark
or a percent escape.

The file system of the database resolves `..` by dropping the name before it,
whether or not such a directory exists.

An open database has one connection.  Its table is made over that one, but the index
of the table over another, if a second one is allowed.  The second connection looks
for the database again: by then the file is there, which a name may no longer lead
past, and a database in memory is found only if its name is shared.
-/

namespace CrashReports.Store

open Files (Entry Name PathFault Place Tree)

/-- What the database reports. -/
inductive DatabaseFault where
  | noFileSystem (name : String)
  /-- There is no table that an index can be made for. -/
  | noTable
  | readOnly
  | cannotOpen
  | notDatabase
  /-- The file cannot be read. -/
  | unreadable
deriving DecidableEq

/-- The code and the wording of a fault. -/
def DatabaseFault.message : DatabaseFault → String
  | .noFileSystem name => "error returned from database: (code: 1) no such vfs: " ++ name
  | .noTable => "error returned from database: (code: 1) no such table: main.crashedcontainers"
  | .readOnly => "error returned from database: (code: 8) attempt to write a readonly database"
  | .cannotOpen => "error returned from database: (code: 14) unable to open database file"
  | .notDatabase => "error returned from database: (code: 26) file is not a database"
  | .unreadable => "error returned from database: (code: 266) disk I/O error"

/-- Why a store cannot be opened. -/
inductive OpenError where
  /-- The directory of the file cannot be made. -/
  | directory (fault : PathFault)
  | location (error : LocationError)
  /-- The name of the file holds a NUL. -/
  | nulCharacter
  /-- No connection is allowed. -/
  | noConnection
  /-- The time to wait for a busy database is out of range. -/
  | waitTooLong
  | database (fault : DatabaseFault)
deriving DecidableEq

/-- The wording of an error. -/
def OpenError.message : OpenError → String
  | .directory fault => fault.message
  | .location error => error.message
  | .nulCharacter =>
    "error communicating with database: filename passed to SQLite must not contain nul bytes"
  | .noConnection => "pool timed out while waiting for an open connection"
  | .waitTooLong => "attempted to communicate with a crashed background worker"
  | .database fault => fault.message

/-! ### Directories -/

/-- Make the directory that holds a path. -/
def makeParent (t : Tree) (path : List Char) : Tree × Option PathFault :=
  match (Files.namesOf path).reverse with
  | [] => (t, none)
  | _ :: parents =>
    if parents.any fun name => name.contains '\x00' then (t, some .nulCharacter)
    else if Files.longestPath < Files.pathSize parents then (t, some .nameTooLong)
    else t.makeAll parents

/-! ### The database file -/

/-- Follow one name the way the database does.  A name below a missing directory
is not refused here. -/
def resolveStep (t : Tree) (place : Place) (name : Name) : Option Place :=
  if name = Files.above then some place.dropLast
  else if Files.longestName < Files.nameSize name then none
  else
    match t.at? place with
    | some .database | some .otherFile => none
    | some .directory | none => some (place ++ [name])

/-- How many bytes the resolved path of a database file may take. -/
def longestPath : Nat := 504

/-- How many bytes the name of a database file may take; the names of its side files
are longer. -/
def longestFileName : Nat := 247

/-- The place of a database file. -/
def resolve (t : Tree) (file : List Char) : Option Place := do
  let place ← (Files.namesOf file).foldlM (resolveStep t) []
  if Files.pathSize place ≤ longestPath then some place else none

/-- Open the file at a place, which is made if it is missing. -/
def openFile (t : Tree) (place : Place) (mode : OpenMode) : Tree × Option DatabaseFault :=
  if t.isDirectory place.dropLast then
    match t.at? place with
    | some .directory => (t, some (if mode.readOnly then .unreadable else .cannotOpen))
    | some .database | some .otherFile => (t, none)
    | none =>
      if mode.readOnly then (t, some .cannotOpen) else (t.add place .database, none)
  else (t, some .cannotOpen)

/-- What goes wrong when an open file is used for the first time. -/
def firstUse? (t : Tree) (place : Place) (mode : OpenMode) : Option DatabaseFault :=
  if t.at? place = some .otherFile then some .notDatabase
  else if mode.immutable = false ∧ longestFileName < Files.nameSize (place.getLastD []) then
    some .cannotOpen
  else none

/-- The names of the file systems, apart from the one in memory. -/
def fileSystems : List String :=
  ["unix", "unix-none", "unix-dotfile", "unix-excl"]

/-- The name of the file system in memory. -/
def memorySystem : String := "memdb"

/-- The fault of a mode that names an unknown file system. -/
def OpenMode.fault? (m : OpenMode) : Option DatabaseFault :=
  match m.fileSystem with
  | none => none
  | some name =>
    if name = memorySystem ∨ fileSystems.contains name then none else some (.noFileSystem name)

/-- Whether a file is used at all. -/
def OpenMode.usesFile (m : OpenMode) : Bool :=
  !m.inMemory && m.fileSystem != some memorySystem

/-- Whether the open database can be changed. -/
def OpenMode.isWritable (m : OpenMode) : Bool :=
  !m.readOnly && (m.inMemory || !m.immutable)

/-- Whether parameters reach the database together with the name of the file. -/
def OpenMode.hasParameters (m : OpenMode) : Bool :=
  m.immutable || m.fileSystem.isSome

/-- Whether all connections find the same database in memory.  They do in the file
system in memory, and where the cache is shared under a name with parameters. -/
def OpenMode.sharesMemory (m : OpenMode) : Bool :=
  !m.inMemory || (m.sharesCache && m.hasParameters)

/-- The name of the file as it reaches the database: with parameters of its own it
ends before a NUL, otherwise it must not hold any. -/
def Location.fileName (l : Location) : Except OpenError (List Char) :=
  let name := l.file.toList
  if l.mode.hasParameters then .ok (name.takeWhile (· != '\x00'))
  else if name.contains '\x00' then .error .nulCharacter
  else .ok name

/-- How many seconds the database can be told to wait: as many as there are in
`2 ^ 31 - 1` milliseconds. -/
def longestWait : Nat := (Nat.pow 2 31 - 1) / 1000

/-- An open database. -/
structure Handle where
  /-- The name of its file, as it reaches the database. -/
  name : List Char
  mode : OpenMode
  /-- How many connections it may have. -/
  connections : Nat
deriving DecidableEq

/-- Open the file with a name, and say what went wrong. -/
def OpenMode.openNamed (m : OpenMode) (t : Tree) (name : List Char) (busySecs : Nat) :
    Tree × Option OpenError :=
  match resolve t name with
  | none => (t, some (.database .cannotOpen))
  | some place =>
    match openFile t place m with
    | (t, some fault) => (t, some (.database fault))
    | (t, none) =>
      if longestWait < busySecs then (t, some .waitTooLong)
      else (t, (firstUse? t place m).map .database)

/-- Open the first connection to the database of a location. -/
def Location.connect (l : Location) (t : Tree) (connections busySecs : Nat) :
    Tree × Except OpenError Handle :=
  match l.fileName with
  | .error e => (t, .error e)
  | .ok name =>
    match l.mode.fault? with
    | some fault => (t, .error (.database fault))
    | none =>
      if l.mode.usesFile then
        match l.mode.openNamed t name busySecs with
        | (t, some e) => (t, .error e)
        | (t, none) => (t, .ok ⟨name, l.mode, connections⟩)
      else if longestWait < busySecs then (t, .error .waitTooLong)
      else (t, .ok ⟨name, l.mode, connections⟩)

/-- Open the database that a path names with so many connections at most, waiting so
many seconds while it is busy. -/
def connect (t : Tree) (path : String) (connections busySecs : Nat) :
    Tree × Except OpenError Handle :=
  match makeParent t path.toList with
  | (t, some fault) => (t, .error (.directory fault))
  | (t, none) =>
    match Location.parse path with
    | .error e => (t, .error (.location e))
    | .ok l =>
      if connections = 0 then (t, .error .noConnection) else l.connect t connections busySecs

/-- What keeps a second connection from the table that the first one has made. -/
def Handle.secondFault? (h : Handle) (t : Tree) : Option DatabaseFault :=
  if h.mode.usesFile then
    if (resolve t h.name).isSome then none else some .cannotOpen
  else if h.mode.sharesMemory then none
  else some .noTable

/-- Make the table of a new database and its index. -/
def Handle.init (h : Handle) (t : Tree) (now : Int) : Except DatabaseFault Store :=
  if h.mode.isWritable = false then .error .readOnly
  else
    match if h.connections = 1 then none else h.secondFault? t with
    | some fault => .error fault
    | none => .ok (fresh now).init

end CrashReports.Store
