import CrashReports.Text.Form
import CrashReports.Text.Quoted

/-!
# Locations of a database

A location names a database file and, after the first question mark, parameters
that say how to open it.  The name of the file may hold percent escapes; together
they have to write UTF-8.  The parameters are read in their order, and the first
one that is unknown or has an unknown value is reported.
-/

namespace CrashReports.Store

/-- How a database is opened. -/
structure OpenMode where
  readOnly : Bool
  /-- The database is kept in memory, and the file is not looked at. -/
  inMemory : Bool
  /-- Connections may use one cache together. -/
  sharesCache : Bool
  /-- Nobody changes the file. -/
  immutable : Bool
  /-- The name of the file system to use in place of the usual one. -/
  fileSystem : Option String
deriving DecidableEq

/-- The usual way to open a database. -/
def OpenMode.usual : OpenMode := ⟨false, false, false, false, none⟩

/-- A database file and how it is opened. -/
structure Location where
  file : String
  mode : OpenMode
deriving DecidableEq

/-- Why a location cannot be understood. -/
inductive LocationError where
  /-- The name of the file is no UTF-8. -/
  | notUtf8 (fault : Text.Utf8Fault)
  | unknownValue (parameter value : String)
  | unknownParameter (parameter : String)
deriving DecidableEq

/-- The wording of an error. -/
def LocationError.message : LocationError → String
  | .notUtf8 fault => "error with configuration: " ++ fault.message
  | .unknownValue parameter value =>
    "error with configuration: unknown value " ++ Text.quote value ++ " for `" ++ parameter ++ "`"
  | .unknownParameter parameter =>
    "error with configuration: unknown query parameter `" ++ parameter ++
      "` while parsing connection URL"

/-- The name of a file system as it reaches the database: with a plus for each blank,
and without what follows a NUL. -/
def systemName (text : String) : String :=
  String.ofList ((text.toList.takeWhile (· != '\x00')).map fun c => if c = ' ' then '+' else c)

/-- Follow one parameter.  A database in memory has a shared cache unless a later
parameter says otherwise.  Whether a missing file is made is accepted but changes
nothing. -/
def OpenMode.take (m : OpenMode) (parameter value : String) : Except LocationError OpenMode :=
  if parameter = "mode" then
    if value = "ro" then .ok { m with readOnly := true }
    else if value = "rw" ∨ value = "rwc" then .ok m
    else if value = "memory" then .ok { m with inMemory := true, sharesCache := true }
    else .error (.unknownValue parameter value)
  else if parameter = "cache" then
    if value = "private" then .ok { m with sharesCache := false }
    else if value = "shared" then .ok { m with sharesCache := true }
    else .error (.unknownValue parameter value)
  else if parameter = "immutable" then
    if value = "true" ∨ value = "1" then .ok { m with immutable := true }
    else if value = "false" ∨ value = "0" then .ok { m with immutable := false }
    else .error (.unknownValue parameter value)
  else if parameter = "vfs" then .ok { m with fileSystem := some (systemName value) }
  else .error (.unknownParameter parameter)

/-- Read a location. -/
def Location.parse (text : String) : Except LocationError Location := do
  let (file, query) := Text.splitFirst '?' text.toList
  let file ← (Text.readUtf8 (Text.percentBytes file)).mapError .notUtf8
  let mode ← (Text.formPairs (query.getD [])).foldlM (fun m p => m.take p.1 p.2) OpenMode.usual
  pure ⟨file, mode⟩

end CrashReports.Store
