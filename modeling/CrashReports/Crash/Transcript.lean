import CrashReports.Calendar.DateTime

/-!
# Crash events and log transcripts

A crash is an event with the end of the container's log.  The log fragments of each
container are joined into one transcript.  Transcripts stand in the order in which
their containers first occur; fragments are joined in the order of their events, with a
blank line between two of them; the name is that of the first event.
-/

namespace CrashReports

/-- One crash of a container. -/
@[ext]
structure Event where
  containerId : String
  containerName : String
  /-- The time of the crash, if it is known. -/
  crashedOn : Option DateTime
  logText : String
deriving DecidableEq

/-- All log fragments of one container. -/
@[ext]
structure Transcript where
  containerId : String
  containerName : String
  logText : String
deriving DecidableEq

/-- What stands between two fragments of a transcript. -/
def fragmentSeparator : String := "\n\n"

namespace Transcript

/-- The transcript of a single event. -/
def ofEvent (e : Event) : Transcript :=
  ⟨e.containerId, e.containerName, e.logText⟩

/-- A transcript with one more fragment. -/
def append (t : Transcript) (fragment : String) : Transcript :=
  { t with logText := t.logText ++ fragmentSeparator ++ fragment }

/-- Add an event to the transcript of its container, or start one at the end. -/
def absorb (e : Event) : List Transcript → List Transcript
  | [] => [ofEvent e]
  | t :: ts =>
    if t.containerId = e.containerId then t.append e.logText :: ts else t :: absorb e ts

/-- The transcripts of a list of events. -/
def consolidate (events : List Event) : List Transcript :=
  events.foldl (fun ts e => absorb e ts) []

/-- The first transcript of a container. -/
def find? (ts : List Transcript) (id : String) : Option Transcript :=
  ts.find? fun t => t.containerId == id

end Transcript

end CrashReports
