import CrashReports.Calendar.Axis

/-!
# Daily counts and chart series

Daily counts come as records by container and day; a series holds them as a chart
shows them.  Row `c` of the counts belongs to container `c` of the legend, and cell `d`
of a row to day `d` of the axis.  A series made from records has a full row for each
container; one that was read from elsewhere may be ragged, and what it lacks counts as
absent.
-/

namespace CrashReports

/-- The number of crashes of one container on one day. -/
@[ext]
structure CountRecord where
  containerId : String
  containerName : String
  crashedOn : Option Day
  crashCount : UInt32
deriving DecidableEq

/-- An entry of the legend: a container and the name shown for it. -/
@[ext]
structure ContainerKey where
  containerId : String
  containerName : String
deriving DecidableEq

/-- Counts by container and day. -/
@[ext]
structure Series where
  dates : List Day
  containers : List ContainerKey
  counts : List (List UInt32)
deriving DecidableEq

namespace Series

/-- The series of no crashes. -/
def empty : Series := ⟨[], [], []⟩

/-- Whether a series has neither days nor containers. -/
def isEmpty (s : Series) : Bool :=
  s.dates.isEmpty && s.containers.isEmpty

/-- The number of cells in all rows. -/
def cellCount (s : Series) : Nat :=
  (s.counts.map List.length).foldr (· + ·) 0

/-- The index of the first legend entry of a container. -/
def rowIndex? (containers : List ContainerKey) (id : String) : Option Nat :=
  containers.findIdx? fun k => k.containerId == id

/-- The counts of a container by day. -/
def row? (s : Series) (id : String) : Option (List UInt32) := do
  let index ← rowIndex? s.containers id
  s.counts[index]?

/-- The count of a container on a day; 0 for what the series does not hold. -/
def count (s : Series) (d : Day) (id : String) : UInt32 :=
  match Axis.search s.dates d with
  | none => 0
  | some column => ((s.row? id).bind fun row => row[column]?).getD 0

end Series

end CrashReports
