import CrashReports.Crash.Series

/-!
# Binning of daily counts

The series of a list of daily counts.  Its axis holds the days that occur, and
its legend the containers in the order in which they first occur, each with the
name of its first record.  Records without a day are left out altogether.  The
cells are filled record by record: the first record of a cell decides it, and a
cell without a record is 0.
-/

namespace CrashReports.Series

/-- The records that have a day, with that day. -/
def dated (records : List CountRecord) : List (Day × CountRecord) :=
  records.filterMap fun r => r.crashedOn.map fun d => (d, r)

/-- Add the container of a record at the end of a legend, unless it is there. -/
def enlist (legend : List ContainerKey) (r : CountRecord) : List ContainerKey :=
  match rowIndex? legend r.containerId with
  | some _ => legend
  | none => legend ++ [⟨r.containerId, r.containerName⟩]

/-- The containers of a list of dated records. -/
def legendOf (records : List (Day × CountRecord)) : List ContainerKey :=
  records.foldl (fun legend r => enlist legend r.2) []

/-- A cell while the series is being filled; `none` until its first record. -/
abbrev Cells := List (List (Option UInt32))

/-- A matrix of cells without records. -/
def blankCells (rows columns : Nat) : Cells :=
  List.replicate rows (List.replicate columns none)

/-- Put a count into a cell that has none. -/
def settle (cells : Cells) (row column : Nat) (n : UInt32) : Cells :=
  cells.modify row fun line => line.modify column fun cell => some (cell.getD n)

/-- Put a record into the cell of its container and day. -/
def place (axis : List Day) (legend : List ContainerKey) (cells : Cells)
    (r : Day × CountRecord) : Cells :=
  match Axis.search axis r.1, rowIndex? legend r.2.containerId with
  | some column, some row => settle cells row column r.2.crashCount
  | _, _ => cells

/-- The series of a list of daily counts. -/
def ofRecords (records : List CountRecord) : Series :=
  let points := dated records
  let axis := Axis.ofDays (points.map Prod.fst)
  let legend := legendOf points
  let cells := points.foldl (place axis legend) (blankCells legend.length axis.length)
  ⟨axis, legend, cells.map fun line => line.map fun cell => cell.getD 0⟩

end CrashReports.Series
