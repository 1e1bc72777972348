import CrashReports.Text.Utf8
import CrashReports.Toml.Decode

/-!
# Settings

The settings of the service, as a TOML document gives them.  Loading checks first
that the text is a document, then that every value fits its type, and at last
that the values make sense; the first check that fails is reported.

A number that is beyond 64 bits or cannot be read is tolerated as long as the values
fit their types: once one does not, a text with such a number counts as malformed.
-/

namespace CrashReports

open Toml (Decoder DecodeError Table)

/-- Where the service listens. -/
structure ServerSettings where
  port : UInt16
  host : String
deriving DecidableEq

/-- The database file and how it is opened. -/
structure DatabaseSettings where
  path : String
  maxPoolSize : UInt32
  busyTimeoutSecs : UInt64
deriving DecidableEq

/-- The settings of the service. -/
structure Settings where
  server : ServerSettings
  database : DatabaseSettings
deriving DecidableEq

/-! ### Typed reading -/

/-- The seconds to wait for a busy database if the document does not say. -/
def defaultBusyTimeoutSecs : UInt64 := 5

/-- Read the server settings. -/
def ServerSettings.decoder : Decoder ServerSettings :=
  Decoder.record "struct ServerConfig"
    (fun t => do
      Decoder.skipOthers ["host", "port"] t
      let host ← Decoder.optional "host" Decoder.string t
      let port ← Decoder.optional "port" Decoder.word16 t
      let port ← Decoder.required "port" port
      let host ← Decoder.required "host" host
      pure ⟨port, host⟩)
    (fun vs => do
      let expected := "struct ServerConfig with 2 elements"
      let port ← Decoder.nth Decoder.word16 expected vs 0
      let host ← Decoder.nth Decoder.string expected vs 1
      pure ⟨port, host⟩)

/-- Read the database settings. -/
def DatabaseSettings.decoder : Decoder DatabaseSettings :=
  Decoder.record "struct DatabaseConfig"
    (fun t => do
      Decoder.skipOthers ["busy_timeout_secs", "max_pool_size", "path"] t
      let busyTimeoutSecs ← Decoder.optional "busy_timeout_secs" Decoder.word64 t
      let maxPoolSize ← Decoder.optional "max_pool_size" Decoder.word32 t
      let path ← Decoder.optional "path" Decoder.string t
      let path ← Decoder.required "path" path
      let maxPoolSize ← Decoder.required "max_pool_size" maxPoolSize
      pure ⟨path, maxPoolSize, busyTimeoutSecs.getD defaultBusyTimeoutSecs⟩)
    (fun vs => do
      let expected := "struct DatabaseConfig with 3 elements"
      let path ← Decoder.nth Decoder.string expected vs 0
      let maxPoolSize ← Decoder.nth Decoder.word32 expected vs 1
      let busyTimeoutSecs ← Decoder.nthD Decoder.word64 defaultBusyTimeoutSecs vs 2
      pure ⟨path, maxPoolSize, busyTimeoutSecs⟩)

/-- Read the settings from a document. -/
def Settings.ofTable (t : Table) : Except DecodeError Settings := do
  Decoder.skipOthers ["database", "server"] t
  let database ← Decoder.optional "database" DatabaseSettings.decoder t
  let server ← Decoder.optional "server" ServerSettings.decoder t
  let server ← Decoder.required "server" server
  let database ← Decoder.required "database" database
  pure ⟨server, database⟩

/-! ### Checks -/

/-- Why settings make no sense. -/
inductive SettingsFault where
  | zeroPort
  | emptyHost
  | emptyPath
  | zeroPoolSize
  | zeroBusyTimeout
deriving DecidableEq

/-- The wording of a fault. -/
def SettingsFault.message : SettingsFault → String
  | .zeroPort => "server.port must be between 1 and 65535, got 0"
  | .emptyHost => "server.host must be non-empty"
  | .emptyPath => "database.path must be non-empty"
  | .zeroPoolSize => "database.max_pool_size must be > 0, got 0"
  | .zeroBusyTimeout => "database.busy_timeout_secs must be > 0, got 0"

/-- The first fault of settings. -/
def Settings.fault? (s : Settings) : Option SettingsFault :=
  if s.server.port = 0 then some .zeroPort
  else if s.server.host = "" then some .emptyHost
  else if s.database.path = "" then some .emptyPath
  else if s.database.maxPoolSize = 0 then some .zeroPoolSize
  else if s.database.busyTimeoutSecs = 0 then some .zeroBusyTimeout
  else none

/-! ### Loading -/

/-- Why settings cannot be loaded. -/
inductive LoadError where
  /-- There is no file. -/
  | missingFile
  /-- The file is no text. -/
  | notText
  /-- The text is no TOML document, or not one whose numbers can all be held. -/
  | malformed
  /-- A value does not fit its type. -/
  | mismatch (m : Mismatch)
  /-- The settings make no sense. -/
  | fault (f : SettingsFault)
deriving DecidableEq

/-- The wording of a loading error. -/
def LoadError.message : LoadError → String
  | .missingFile => "no settings file"
  | .notText => "the settings file is no text"
  | .malformed => "malformed TOML document"
  | .mismatch m => m.message
  | .fault f => f.message

/-- Settings that make sense, read from a document. -/
def Settings.ofDocument (t : Table) : Except LoadError Settings :=
  match Settings.ofTable t with
  | .error .overflow => .error .malformed
  | .error (.mismatch m) =>
    .error (if Toml.Value.entriesFit .signed64 t then .mismatch m else .malformed)
  | .ok s =>
    match s.fault? with
    | some f => .error (.fault f)
    | none => .ok s

/-- Read settings from a text. -/
def Settings.parse (text : String) : Except LoadError Settings :=
  match Toml.readDocument text with
  | none => .error .malformed
  | some t => Settings.ofDocument t

/-- Load settings from the bytes of a file, if there is one. -/
def Settings.load : Option (List UInt8) → Except LoadError Settings
  | none => .error .missingFile
  | some bytes =>
    match Text.ofUtf8? bytes with
    | none => .error .notText
    | some text => Settings.parse text

end CrashReports
