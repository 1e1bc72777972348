import CrashReports.Settings

/-!
# Settings as they are written

Settings before anybody has checked them, with integers of any size, and the TOML
document that holds them.  Reading the document is the other side of this:
`Settings.parse` accepts it exactly if the integers fit their types and the settings
make sense.
-/

namespace CrashReports

/-- Settings before they are checked. -/
structure RawSettings where
  port : Int
  host : String
  path : String
  maxPoolSize : Int
  /-- Left out of the document if missing. -/
  busyTimeoutSecs : Option Int
deriving DecidableEq

namespace RawSettings

/-- The line of an entry. -/
def entry (key : String) (value : List Char) : List Char :=
  key.toList ++ ' ' :: '=' :: ' ' :: value ++ ['\n']

/-- The line of a header. -/
def header (name : String) : List Char :=
  '[' :: name.toList ++ [']', '\n']

/-- The line of the time to wait, if it is given. -/
def busyTimeoutEntry : Option Int → List Char
  | some secs => entry "busy_timeout_secs" (Text.signed secs)
  | none => []

/-- The document that holds the settings. -/
def render (s : RawSettings) : String :=
  String.ofList (header "server" ++ entry "port" (Text.signed s.port) ++
    entry "host" (Toml.quote s.host.toList) ++ header "database" ++
    entry "path" (Toml.quote s.path.toList) ++
    entry "max_pool_size" (Text.signed s.maxPoolSize) ++ busyTimeoutEntry s.busyTimeoutSecs)

end RawSettings

end CrashReports
