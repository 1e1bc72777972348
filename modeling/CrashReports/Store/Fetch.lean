import CrashReports.Crash.Query
import CrashReports.Store.StoredDay
import CrashReports.Store.Table
import CrashReports.Store.Timestamp

/-!
# Fetches from the store

The two queries of a store.  Both take the rows whose day, as text, lies between
the texts of the ends of the range, and both read the clock of the store.

Events come in the order of the text of their time, and then of their row number.
Counts come one for each day and container; the name is that of the row with the
least time of the group, and the counts are ordered by day, name and container.  A
container that is missing is a group of its own, and is read as the empty text
only afterwards.

A row that is selected but cannot be read fails the whole fetch.  So does a count on
a day that is none of the calendar.
-/

namespace CrashReports.Store

/-- Why a fetch fails. -/
inductive FetchError where
  | noTable
  /-- A column of a selected row holds bytes in place of a text. -/
  | column (name : String)
  /-- The bytes of a column of a selected row are no UTF-8. -/
  | encoding (name : String) (fault : Text.Utf8Fault)
  /-- The day of a count is no day of the calendar. -/
  | noDay (text : String)
  /-- A count does not fit in 32 bits. -/
  | countTooLarge
deriving DecidableEq

/-- How the wording of a column that cannot be read begins. -/
def unreadableColumn (name : String) : String :=
  "error occurred while decoding column \"" ++ name ++ "\""

/-- The wording of types that do not match: bytes where an optional text is read. -/
def mismatchedTypes : String :=
  "mismatched types; Rust type `core::option::Option<alloc::string::String>` " ++
    "(as SQL type `TEXT`) is not compatible with SQL type `BLOB`"

/-- The wording of a failure. -/
def FetchError.message : FetchError → String
  | .noTable => "error returned from database: (code: 1) " ++ StatementError.noTable.message
  | .column name => unreadableColumn name ++ ": " ++ mismatchedTypes
  | .encoding name fault => unreadableColumn name ++ ": " ++ fault.message
  | .noDay text => "crash_date \"" ++ text ++ "\": input is out of range"
  | .countTooLarge => "out of range integral type conversion attempted"

/-- Put an item before the first one that it must precede. -/
def place {α : Type} (before : α → α → Bool) (x : α) : List α → List α
  | [] => [x]
  | y :: ys => if before x y then x :: y :: ys else y :: place before x ys

/-- Sort a list; items that neither precede the other keep their order. -/
def arrange {α : Type} (before : α → α → Bool) (xs : List α) : List α :=
  xs.foldl (fun sorted x => place before x sorted) []

/-- A row with the day it was found on. -/
abbrev Selected := Ymd × Row

/-- The day of a row, if it is selected by a range. -/
def selectedDay? (now : Int) (r : DayRange) (row : Row) : Option Ymd :=
  match row.crashedOn.day? now with
  | none => none
  | some d => if r.bounds.1 ≤ toString d ∧ toString d ≤ r.bounds.2 then some d else none

/-- The rows that a range selects, in the order of their numbers. -/
def selected (now : Int) (r : DayRange) (rows : List Row) : List Selected :=
  rows.filterMap fun row => (selectedDay? now r row).map fun d => (d, row)

/-- The text of a column, empty if it is missing. -/
def readColumn (name : String) : TextCell → Except FetchError String
  | .null => .ok ""
  | .text s => .ok s
  | .broken t => .error (.encoding name t.fault)
  | .bytes _ => .error (.column name)

/-- The text of a time. -/
def readStamp (c : StampCell) : Except FetchError String :=
  (Text.readUtf8 c.textBytes).mapError (.encoding "crashedon")

/-! ### Events -/

/-- Order of events: by the bytes of their time. -/
def eventBefore (a b : Row) : Bool :=
  a.crashedOn.textBytes < b.crashedOn.textBytes

/-- The event of a row. -/
def readEvent (row : Row) : Except FetchError Event := do
  let id ← readColumn "container_id" row.containerId
  let name ← readColumn "container_name" row.containerName
  let logs ← readColumn "logs" row.logs
  let stamp ← readStamp row.crashedOn
  pure ⟨id, name, Timestamp.parse stamp, logs⟩

/-- The events of a range. -/
def events (s : Store) (r : DayRange) : Except FetchError (List Event) :=
  match s.table with
  | none => .error .noTable
  | some t => (arrange eventBefore ((selected s.now r t.rows).map Prod.snd)).mapM readEvent

/-! ### Daily counts -/

/-- The crashes of one container on one day. -/
structure Group where
  day : Ymd
  containerId : TextCell
  /-- The row with the least time. -/
  first : Row
  size : Nat

/-- Add a row to a group. -/
def Group.add (g : Group) (row : Row) : Group :=
  { g with
    first := if row.crashedOn.before g.first.crashedOn then row else g.first
    size := g.size + 1 }

/-- Add a selected row to the group of its day and container. -/
def addToGroups (groups : List Group) (x : Selected) : List Group :=
  match groups with
  | [] => [⟨x.1, x.2.containerId, x.2, 1⟩]
  | g :: rest =>
    if g.day = x.1 ∧ g.containerId = x.2.containerId then g.add x.2 :: rest
    else g :: addToGroups rest x

/-- The groups of a list of selected rows. -/
def groupsOf (xs : List Selected) : List Group :=
  xs.foldl addToGroups []

/-- Order of groups: by the text of the day, then by name, then by container. -/
def groupBefore (a b : Group) : Bool :=
  let day := toString a.day
  let day' := toString b.day
  if day = day' then
    if a.first.containerName = b.first.containerName then a.containerId.before b.containerId
    else a.first.containerName.before b.first.containerName
  else day < day'

/-- The calendar day of a group. -/
def readDay (d : Ymd) : Except FetchError Day :=
  match d.toDay? with
  | some day => .ok day
  | none => .error (.noDay (toString d))

/-- The daily count of a group. -/
def readGroup (g : Group) : Except FetchError CountRecord := do
  let id ← readColumn "container_id" g.containerId
  let name ← readColumn "container_name" g.first.containerName
  let day ← readDay g.day
  if g.size < UInt32.size then pure ⟨id, name, some day, UInt32.ofNat g.size⟩
  else throw .countTooLarge

/-- The daily counts of a range. -/
def counts (s : Store) (r : DayRange) : Except FetchError (List CountRecord) :=
  match s.table with
  | none => .error .noTable
  | some t => (arrange groupBefore (groupsOf (selected s.now r t.rows))).mapM readGroup

/-- A fetch that answers at once, its failure as text. -/
def immediate {α : Type} (x : Except FetchError (List α)) : Fetch α :=
  ⟨0, x.mapError FetchError.message⟩

/-- A store as a source of queries. -/
def source (s : Store) : Source :=
  ⟨fun r => immediate (s.events r), fun r => immediate (s.counts r)⟩

end CrashReports.Store
