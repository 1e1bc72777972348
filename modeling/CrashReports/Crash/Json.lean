import CrashReports.Crash.Query
import CrashReports.Json.Decode

/-!
# Crash data as JSON

The JSON form of events, daily counts, transcripts, series and reports, and the
readers of these forms.  An event needs only its container, a daily count its
container and its number; the other records need all their fields.
-/

namespace CrashReports

open Json (Decoder DecodeError Parsed)

/-! ### Writing -/

/-- A day as a JSON string. -/
def Day.toJson (d : Day) : Json := .string (toString d)

/-- A date-time as a JSON string. -/
def DateTime.toJson (t : DateTime) : Json := .string (toString t)

/-- An event as a JSON object. -/
def Event.toJson (e : Event) : Json :=
  .object [("container_id", .string e.containerId), ("container_name", .string e.containerName),
    ("crashed_on", Json.ofOption DateTime.toJson e.crashedOn), ("logs", .string e.logText)]

/-- A daily count as a JSON object. -/
def CountRecord.toJson (r : CountRecord) : Json :=
  .object [("container_id", .string r.containerId), ("container_name", .string r.containerName),
    ("crashed_on", Json.ofOption Day.toJson r.crashedOn),
    ("crash_count", .integer r.crashCount.toNat)]

/-- A transcript as a JSON object. -/
def Transcript.toJson (t : Transcript) : Json :=
  .object [("container_id", .string t.containerId), ("container_name", .string t.containerName),
    ("logs", .string t.logText)]

/-- A legend entry as a JSON object. -/
def ContainerKey.toJson (k : ContainerKey) : Json :=
  .object [("container_id", .string k.containerId), ("container_name", .string k.containerName)]

/-- The counts of one container as a JSON array. -/
def Series.rowToJson (row : List UInt32) : Json :=
  Json.ofList (fun n => .integer n.toNat) row

/-- A series as a JSON object. -/
def Series.toJson (s : Series) : Json :=
  .object [("dates", Json.ofList Day.toJson s.dates),
    ("containers", Json.ofList ContainerKey.toJson s.containers),
    ("counts", Json.ofList Series.rowToJson s.counts)]

/-- A report as a JSON object. -/
def Report.toJson (r : Report) : Json :=
  .object [("transcripts", Json.ofList Transcript.toJson r.transcripts),
    ("series", r.series.toJson)]

/-! ### Reading -/

/-- The members of an event read so far. -/
structure Event.Draft where
  containerId : Option String := none
  containerName : Option String := none
  crashedOn : Option (Option DateTime) := none
  logText : Option String := none

/-- Take one member of an event. -/
def Event.Draft.take (key : String) (v : Parsed) (d : Event.Draft) :
    Except DecodeError Event.Draft := do
  if key = "container_id" then
    pure { d with containerId := ← Decoder.once key d.containerId Decoder.string v }
  else if key = "container_name" then
    pure { d with containerName := ← Decoder.once key d.containerName Decoder.string v }
  else if key = "crashed_on" then
    pure { d with
      crashedOn := ← Decoder.once key d.crashedOn (Decoder.nullable Decoder.dateTime) v }
  else if key = "logs" then
    pure { d with logText := ← Decoder.once key d.logText Decoder.string v }
  else
    Decoder.skip v
    pure d

/-- Read an event. -/
def Event.decoder : Decoder Event
  | .object ms closed => do
    let d ← Decoder.members Event.Draft.take closed ms {}
    let id ← Decoder.required "container_id" d.containerId
    pure ⟨id, d.containerName.getD "", d.crashedOn.getD none, d.logText.getD ""⟩
  | .array vs closed => do
    let expected := "struct CrashEvent with 4 elements"
    let id ← Decoder.nth Decoder.string expected closed vs 0
    let name ← Decoder.nthD Decoder.string "" closed vs 1
    let crashedOn ← Decoder.nthD (Decoder.nullable Decoder.dateTime) none closed vs 2
    let logs ← Decoder.nthD Decoder.string "" closed vs 3
    Decoder.ends 4 closed vs
    pure ⟨id, name, crashedOn, logs⟩
  | v => .error (Json.unexpected "struct CrashEvent" v)

/-- The members of a daily count read so far. -/
structure CountRecord.Draft where
  containerId : Option String := none
  containerName : Option String := none
  crashedOn : Option (Option Day) := none
  crashCount : Option UInt32 := none

/-- Take one member of a daily count. -/
def CountRecord.Draft.take (key : String) (v : Parsed) (d : CountRecord.Draft) :
    Except DecodeError CountRecord.Draft := do
  if key = "container_id" then
    pure { d with containerId := ← Decoder.once key d.containerId Decoder.string v }
  else if key = "container_name" then
    pure { d with containerName := ← Decoder.once key d.containerName Decoder.string v }
  else if key = "crashed_on" then
    pure { d with crashedOn := ← Decoder.once key d.crashedOn (Decoder.nullable Decoder.day) v }
  else if key = "crash_count" then
    pure { d with crashCount := ← Decoder.once key d.crashCount Decoder.word v }
  else
    Decoder.skip v
    pure d

/-- Read a daily count. -/
def CountRecord.decoder : Decoder CountRecord
  | .object ms closed => do
    let d ← Decoder.members CountRecord.Draft.take closed ms {}
    let id ← Decoder.required "container_id" d.containerId
    let count ← Decoder.required "crash_count" d.crashCount
    pure ⟨id, d.containerName.getD "", d.crashedOn.getD none, count⟩
  | .array vs closed => do
    let expected := "struct CrashCountRecord with 4 elements"
    let id ← Decoder.nth Decoder.string expected closed vs 0
    let name ← Decoder.nthD Decoder.string "" closed vs 1
    let crashedOn ← Decoder.nthD (Decoder.nullable Decoder.day) none closed vs 2
    let count ← Decoder.nth Decoder.word expected closed vs 3
    Decoder.ends 4 closed vs
    pure ⟨id, name, crashedOn, count⟩
  | v => .error (Json.unexpected "struct CrashCountRecord" v)

/-- The members of a transcript read so far. -/
structure Transcript.Draft where
  containerId : Option String := none
  containerName : Option String := none
  logText : Option String := none

/-- Take one member of a transcript. -/
def Transcript.Draft.take (key : String) (v : Parsed) (d : Transcript.Draft) :
    Except DecodeError Transcript.Draft := do
  if key = "container_id" then
    pure { d with containerId := ← Decoder.once key d.containerId Decoder.string v }
  else if key = "container_name" then
    pure { d with containerName := ← Decoder.once key d.containerName Decoder.string v }
  else if key = "logs" then
    pure { d with logText := ← Decoder.once key d.logText Decoder.string v }
  else
    Decoder.skip v
    pure d

/-- Read a transcript. -/
def Transcript.decoder : Decoder Transcript
  | .object ms closed => do
    let d ← Decoder.members Transcript.Draft.take closed ms {}
    let id ← Decoder.required "container_id" d.containerId
    let name ← Decoder.required "container_name" d.containerName
    let logs ← Decoder.required "logs" d.logText
    pure ⟨id, name, logs⟩
  | .array vs closed => do
    let expected := "struct ContainerLogTranscript with 3 elements"
    let id ← Decoder.nth Decoder.string expected closed vs 0
    let name ← Decoder.nth Decoder.string expected closed vs 1
    let logs ← Decoder.nth Decoder.string expected closed vs 2
    Decoder.ends 3 closed vs
    pure ⟨id, name, logs⟩
  | v => .error (Json.unexpected "struct ContainerLogTranscript" v)

/-- The members of a legend entry read so far. -/
structure ContainerKey.Draft where
  containerId : Option String := none
  containerName : Option String := none

/-- Take one member of a legend entry. -/
def ContainerKey.Draft.take (key : String) (v : Parsed) (d : ContainerKey.Draft) :
    Except DecodeError ContainerKey.Draft := do
  if key = "container_id" then
    pure { d with containerId := ← Decoder.once key d.containerId Decoder.string v }
  else if key = "container_name" then
    pure { d with containerName := ← Decoder.once key d.containerName Decoder.string v }
  else
    Decoder.skip v
    pure d

/-- Read a legend entry. -/
def ContainerKey.decoder : Decoder ContainerKey
  | .object ms closed => do
    let d ← Decoder.members ContainerKey.Draft.take closed ms {}
    let id ← Decoder.required "container_id" d.containerId
    let name ← Decoder.required "container_name" d.containerName
    pure ⟨id, name⟩
  | .array vs closed => do
    let expected := "struct ContainerKey with 2 elements"
    let id ← Decoder.nth Decoder.string expected closed vs 0
    let name ← Decoder.nth Decoder.string expected closed vs 1
    Decoder.ends 2 closed vs
    pure ⟨id, name⟩
  | v => .error (Json.unexpected "struct ContainerKey" v)

/-- The members of a series read so far. -/
structure Series.Draft where
  dates : Option (List Day) := none
  containers : Option (List ContainerKey) := none
  counts : Option (List (List UInt32)) := none

/-- Read the counts of all containers. -/
def Series.countsDecoder : Decoder (List (List UInt32)) :=
  Decoder.list (Decoder.list Decoder.word)

/-- Take one member of a series. -/
def Series.Draft.take (key : String) (v : Parsed) (d : Series.Draft) :
    Except DecodeError Series.Draft := do
  if key = "dates" then
    pure { d with dates := ← Decoder.once key d.dates (Decoder.list Decoder.day) v }
  else if key = "containers" then
    pure { d with
      containers := ← Decoder.once key d.containers (Decoder.list ContainerKey.decoder) v }
  else if key = "counts" then
    pure { d with counts := ← Decoder.once key d.counts Series.countsDecoder v }
  else
    Decoder.skip v
    pure d

/-- Read a series. -/
def Series.decoder : Decoder Series
  | .object ms closed => do
    let d ← Decoder.members Series.Draft.take closed ms {}
    let dates ← Decoder.required "dates" d.dates
    let containers ← Decoder.required "containers" d.containers
    let counts ← Decoder.required "counts" d.counts
    pure ⟨dates, containers, counts⟩
  | .array vs closed => do
    let expected := "struct ChartSeries with 3 elements"
    let dates ← Decoder.nth (Decoder.list Decoder.day) expected closed vs 0
    let containers ←
      Decoder.nth (Decoder.list ContainerKey.decoder) expected closed vs 1
    let counts ← Decoder.nth Series.countsDecoder expected closed vs 2
    Decoder.ends 3 closed vs
    pure ⟨dates, containers, counts⟩
  | v => .error (Json.unexpected "struct ChartSeries" v)

/-- The members of a report read so far. -/
structure Report.Draft where
  transcripts : Option (List Transcript) := none
  series : Option Series := none

/-- Take one member of a report. -/
def Report.Draft.take (key : String) (v : Parsed) (d : Report.Draft) :
    Except DecodeError Report.Draft := do
  if key = "transcripts" then
    pure { d with
      transcripts := ← Decoder.once key d.transcripts (Decoder.list Transcript.decoder) v }
  else if key = "series" then
    pure { d with series := ← Decoder.once key d.series Series.decoder v }
  else
    Decoder.skip v
    pure d

/-- Read a report. -/
def Report.decoder : Decoder Report
  | .object ms closed => do
    let d ← Decoder.members Report.Draft.take closed ms {}
    let transcripts ← Decoder.required "transcripts" d.transcripts
    let series ← Decoder.required "series" d.series
    pure ⟨transcripts, series⟩
  | .array vs closed => do
    let expected := "struct CrashReport with 2 elements"
    let transcripts ←
      Decoder.nth (Decoder.list Transcript.decoder) expected closed vs 0
    let series ← Decoder.nth Series.decoder expected closed vs 1
    Decoder.ends 2 closed vs
    pure ⟨transcripts, series⟩
  | v => .error (Json.unexpected "struct CrashReport" v)

end CrashReports
