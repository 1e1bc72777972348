import CrashReports.Crash.Binning
import CrashReports.Crash.Transcript
import CrashReports.DayRange

/-!
# Reports and queries

A report holds the two views of one range of days: log transcripts for reading and a
series for the chart.

A query fetches events and daily counts side by side and builds the report from
both.  A fetch may be pending for any number of turns before it answers, and the
two take turns until both have answered.  A fetch that fails is replaced by an
empty list and a warning; the other one is not affected.  A faulty range ends the
query before any fetch begins.
-/

namespace CrashReports

/-- The answer to a query for a range of days. -/
@[ext]
structure Report where
  transcripts : List Transcript
  series : Series
deriving DecidableEq

namespace Report

/-- The report on lists of events and daily counts. -/
def ofLists (events : List Event) (records : List CountRecord) : Report :=
  ⟨Transcript.consolidate events, Series.ofRecords records⟩

/-- The transcript of a container. -/
def transcript? (r : Report) (id : String) : Option Transcript :=
  Transcript.find? r.transcripts id

end Report

/-- The two fetches of a query. -/
inductive Branch where
  | events
  | counts
deriving DecidableEq

/-- A fetch on its way: the turns for which it is still pending, and what it then
answers.  A failure carries its text. -/
structure Fetch (α : Type) where
  pending : Nat
  outcome : Except String (List α)

/-- Where events and daily counts come from. -/
structure Source where
  events : DayRange → Fetch Event
  counts : DayRange → Fetch CountRecord

/-- A call of a source. -/
structure Call where
  branch : Branch
  range : DayRange
deriving DecidableEq

/-- What is worth a warning. -/
inductive Warning where
  /-- A fetch of a report failed and was replaced by an empty list. -/
  | branchFailed (branch : Branch) (error : String)
  /-- A fetch failed whose result was the answer. -/
  | fetchFailed (error : String)
deriving DecidableEq

/-- The wording of a warning. -/
def Warning.message : Warning → String
  | .branchFailed .events _ => "crash event fetch failed, using empty result"
  | .branchFailed .counts _ => "crash count fetch failed, using empty result"
  | .fetchFailed _ => "crash store query failed"

/-- How far a fetch has come. -/
inductive Progress (α : Type) where
  | unstarted (start : DayRange → Fetch α)
  | waiting (turns : Nat) (outcome : Except String (List α))
  | answered (outcome : Except String (List α))

namespace Progress

variable {α : Type}

/-- Wait for one turn, or take the answer. -/
def advance (turns : Nat) (outcome : Except String (List α)) : Progress α :=
  match turns with
  | 0 => .answered outcome
  | turns + 1 => .waiting turns outcome

/-- Give a fetch its turn.  The first turn calls the source. -/
def turn (branch : Branch) (range : DayRange) : Progress α → List Call × Progress α
  | .unstarted start =>
    let fetch := start range
    ([⟨branch, range⟩], advance fetch.pending fetch.outcome)
  | .waiting turns outcome => ([], advance turns outcome)
  | .answered outcome => ([], .answered outcome)

end Progress

/-- Both fetches of a query, and the calls made so far. -/
structure Race where
  events : Progress Event
  counts : Progress CountRecord
  calls : List Call

namespace Race

/-- The state before the first turn. -/
def start (source : Source) : Race :=
  ⟨.unstarted source.events, .unstarted source.counts, []⟩

/-- One turn for each fetch, the events first. -/
def round (range : DayRange) (r : Race) : Race :=
  let (called, events) := r.events.turn .events range
  let (called', counts) := r.counts.turn .counts range
  ⟨events, counts, r.calls ++ called ++ called'⟩

/-- So many rounds. -/
def rounds (range : DayRange) : Nat → Race → Race
  | 0, r => r
  | n + 1, r => rounds range n (r.round range)

end Race

/-- What a query gives back. -/
structure Answer where
  report : Report
  warnings : List Warning
  calls : List Call

/-- The list of an answered fetch, or nothing with a warning. -/
def settleBranch {α : Type} (branch : Branch) : Progress α → List α × List Warning
  | .answered (.ok xs) => (xs, [])
  | .answered (.error e) => ([], [.branchFailed branch e])
  | _ => ([], [])

/-- Query a source for a range: take turns until both fetches have answered, then
build the report. -/
def Source.query (source : Source) (range : DayRange) : Answer :=
  let longest := max (source.events range).pending (source.counts range).pending
  let race := (Race.start source).rounds range (longest + 1)
  let (events, warned) := settleBranch .events race.events
  let (records, warned') := settleBranch .counts race.counts
  ⟨Report.ofLists events records, warned ++ warned', race.calls⟩

/-- Query a source for the range between two texts. -/
def Source.queryTexts (source : Source) (start stop : Option String) :
    Except RangeError Answer :=
  (DayRange.parse start stop).map source.query

end CrashReports
