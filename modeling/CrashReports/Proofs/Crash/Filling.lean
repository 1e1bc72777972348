import CrashReports.Proofs.Crash.Binning
import CrashReports.Proofs.Outcome

/-!
# No record is skipped while a series is filled

The cells of a series are filled in turns, one for each dated record.  A turn looks for the day
on the axis and for the row of the container, and leaves the cells as they are where one of them
is missing: a record that was missed would leave no trace.

Here the binning is done over again with its faults in view.  The rows of the containers are kept
in a map beside the legend while it grows (`Register`), and a turn that would skip its record, or
use an index outside of the cells, ends in a fault (`watchPlace`).  The map stays in step with the
legend (`Register.InStep`), and every turn keeps the cells a full matrix of axis and legend.  So
there are no faults, the result is the series of the records, and each turn finds the one cell of
its day and container (`isTurn_of_dated`).
-/

namespace CrashReports.Series

/-! ### The legend and the map of its rows -/

/-- A legend while it is collected, and the rows of its containers. -/
structure Register where
  legend : List ContainerKey
  rows : Std.HashMap String Nat

namespace Register

/-- Enter the container of a record at the end, unless the map has it. -/
def enter (g : Register) (r : CountRecord) : Register :=
  if g.rows.contains r.containerId then g
  else
    ⟨g.legend ++ [⟨r.containerId, r.containerName⟩], g.rows.insert r.containerId g.legend.length⟩

/-- The containers of a list of dated records. -/
def ofPoints (points : List (Day × CountRecord)) : Register :=
  points.foldl (fun g p => g.enter p.2) ⟨[], ∅⟩

/-- The map has for each container what a search through the legend finds. -/
def InStep (g : Register) : Prop :=
  ∀ id, g.rows[id]? = rowIndex? g.legend id

theorem inStep_empty : InStep ⟨[], ∅⟩ := by
  intro id
  simp [rowIndex?]

variable {g : Register}

theorem InStep.contains_eq (h : g.InStep) (id : String) :
    g.rows.contains id = (rowIndex? g.legend id).isSome := by
  rw [Std.HashMap.contains_eq_isSome_getElem?, h]

/-- With the map in step, the legend grows as it does without a map. -/
theorem InStep.legend_enter (h : g.InStep) (r : CountRecord) :
    (g.enter r).legend = enlist g.legend r := by
  unfold enter enlist
  rw [h.contains_eq]
  cases rowIndex? g.legend r.containerId with
  | none => rfl
  | some row => rfl

theorem InStep.enter (h : g.InStep) (r : CountRecord) : (g.enter r).InStep := by
  unfold Register.enter
  rw [h.contains_eq]
  cases hrow : rowIndex? g.legend r.containerId with
  | some row => exact h
  | none =>
    intro id
    -- the new container stands at the end, where no other one is found
    have hlegend : rowIndex? (g.legend ++ [⟨r.containerId, r.containerName⟩]) id =
        (rowIndex? g.legend id).or (if r.containerId = id then some g.legend.length else none) := by
      unfold rowIndex?
      rw [List.findIdx?_append, List.findIdx?_singleton]
      by_cases hid : r.containerId = id
      · simp [hid]
      · simp [hid]
    change (g.rows.insert r.containerId g.legend.length)[id]? = rowIndex? (g.legend ++ _) id
    rw [hlegend, Std.HashMap.getElem?_insert, h id]
    by_cases hid : r.containerId = id
    · subst hid
      simp [hrow]
    · simp [hid]

/-- Entering one record after the other keeps the map in step. -/
theorem InStep.foldl_enter (h : g.InStep) (points : List (Day × CountRecord)) :
    (points.foldl (fun g p => g.enter p.2) g).InStep ∧
      (points.foldl (fun g p => g.enter p.2) g).legend =
        points.foldl (fun legend p => enlist legend p.2) g.legend := by
  induction points generalizing g with
  | nil => exact ⟨h, rfl⟩
  | cons p points ih =>
    rw [List.foldl_cons, List.foldl_cons, ← h.legend_enter]
    exact ih (h.enter p.2)

theorem inStep_ofPoints (points : List (Day × CountRecord)) : (ofPoints points).InStep :=
  (inStep_empty.foldl_enter points).1

theorem legend_ofPoints (points : List (Day × CountRecord)) :
    (ofPoints points).legend = legendOf points :=
  (inStep_empty.foldl_enter points).2

end Register

/-! ### Turns with their faults -/

/-- What must not happen to a record at its turn. -/
inductive FillFault where
  /-- The search for its day goes wrong. -/
  | search (fault : Axis.SearchFault)
  /-- Its day or its container is not found. -/
  | skipped (p : Day × CountRecord)
  /-- There is no such row. -/
  | outsideRows (row : Nat)
  /-- The row has no such cell. -/
  | outsideColumns (row column : Nat)

/-- Put a record into the cell of its container and day, with an error for a fault. -/
def watchPlace (axis : List Day) (g : Register) (cells : Cells) (p : Day × CountRecord) :
    Except FillFault Cells := do
  let column? ← (Axis.watch axis p.1).mapError .search
  match column?, g.rows[p.2.containerId]? with
  | some column, some row =>
    match cells[row]? with
    | none => .error (.outsideRows row)
    | some line =>
      if column < line.length then .ok (settle cells row column p.2.crashCount)
      else .error (.outsideColumns row column)
  | _, _ => .error (.skipped p)

/-- The cells when some records have been put in, with an error for a fault. -/
def watchFill (axis : List Day) (g : Register) (points : List (Day × CountRecord)) :
    Except FillFault Cells :=
  points.foldlM (watchPlace axis g) (blankCells g.legend.length axis.length)

/-- The series of a list of daily counts, with an error for a fault. -/
def watchRecords (records : List CountRecord) : Except FillFault Series := do
  let points := dated records
  let axis := Axis.ofDays (points.map Prod.fst)
  let g := Register.ofPoints points
  let cells ← watchFill axis g points
  return ⟨axis, g.legend, cells.map fun line => line.map fun cell => cell.getD 0⟩

/-- There is a cell at a row and a column. -/
def IsInside (cells : Cells) (row column : Nat) : Prop :=
  ∃ h : row < cells.length, column < cells[row].length

/-- The turn of a record after those before it: the cells as they are by then, and the row and
the column that are found for it. -/
structure IsTurn (axis : List Day) (g : Register) (before : List (Day × CountRecord))
    (p : Day × CountRecord) (cells : Cells) (row column : Nat) : Prop where
  /-- The turns before have no fault and lead to these cells. -/
  reached : watchFill axis g before = .ok cells
  /-- They are the cells of the binning itself. -/
  cells_eq : before.foldl (place axis g.legend) (blankCells g.legend.length axis.length) = cells
  /-- The search for the day succeeds, and looks nowhere outside of the axis. -/
  watch : Axis.watch axis p.1 = .ok (some column)
  search : Axis.search axis p.1 = some column
  /-- The map has the container. -/
  lookup : g.rows[p.2.containerId]? = some row
  rowIndex : rowIndex? g.legend p.2.containerId = some row
  /-- The day stands at the column and nowhere else. -/
  day_iff : ∀ j, axis[j]? = some p.1 ↔ j = column
  /-- The container stands at the row and nowhere else. -/
  container_iff : ∀ i, (ids g.legend)[i]? = some p.2.containerId ↔ i = row
  inside : IsInside cells row column
  /-- The cell has the count of the first record before of the same day and container. -/
  held : cells[row]?.bind (fun cs => cs[column]?) =
    some (firstCount? before p.1 p.2.containerId)
  /-- The record is put into the cell. -/
  watchPlace_eq : watchPlace axis g cells p = .ok (settle cells row column p.2.crashCount)
  place_eq : place axis g.legend cells p = settle cells row column p.2.crashCount

/-! ### One turn -/

/-- An axis and a register that have the day and the container of each of some records. -/
structure Covers (axis : List Day) (g : Register) (points : List (Day × CountRecord)) : Prop where
  ascending : Axis.Ascending axis
  inStep : g.InStep
  nodup : (ids g.legend).Nodup
  mem_axis : ∀ p ∈ points, p.1 ∈ axis
  mem_ids : ∀ p ∈ points, p.2.containerId ∈ ids g.legend

section Turn

variable {axis : List Day} {g : Register} {points : List (Day × CountRecord)}
  {p : Day × CountRecord} {cells : Cells} {row column : Nat}

theorem Covers.of_subset (h : Covers axis g points) {part : List (Day × CountRecord)}
    (hpart : part ⊆ points) : Covers axis g part :=
  { h with
    mem_axis := fun p hp => h.mem_axis p (hpart hp)
    mem_ids := fun p hp => h.mem_ids p (hpart hp) }

/-- What is on the axis and in the legend is found there. -/
theorem Covers.exists_search (h : Covers axis g points) (hp : p ∈ points) :
    ∃ row column, Axis.search axis p.1 = some column ∧
      rowIndex? g.legend p.2.containerId = some row := by
  obtain ⟨column, hcolumn⟩ := List.mem_iff_getElem?.1 (h.mem_axis p hp)
  obtain ⟨row, hrow⟩ := List.mem_iff_getElem?.1 (h.mem_ids p hp)
  exact ⟨row, column, (Axis.search_eq_some_iff h.ascending).2 hcolumn,
    (rowIndex?_eq_some_iff h.nodup).2 hrow⟩

theorem place_eq_settle {legend : List ContainerKey} (hcolumn : Axis.search axis p.1 = some column)
    (hrow : rowIndex? legend p.2.containerId = some row) :
    place axis legend cells p = settle cells row column p.2.crashCount := by
  unfold place
  rw [hcolumn, hrow]

theorem watchPlace_eq_ok (hcolumn : Axis.search axis p.1 = some column)
    (hrow : g.rows[p.2.containerId]? = some row) (hinside : IsInside cells row column) :
    watchPlace axis g cells p = .ok (settle cells row column p.2.crashCount) := by
  obtain ⟨hlt, hcell⟩ := hinside
  have hwatch : (Axis.watch axis p.1).mapError FillFault.search = .ok (some column) := by
    rw [Axis.watch_eq_ok, hcolumn]
    rfl
  unfold watchPlace
  rw [hwatch, ok_bind, hrow]
  simp only [List.getElem?_eq_getElem hlt, if_pos hcell]

theorem isInside_of_bind {cell : Option UInt32}
    (h : cells[row]?.bind (fun cs => cs[column]?) = some cell) : IsInside cells row column := by
  obtain ⟨line, hline, hcell⟩ := Option.bind_eq_some_iff.1 h
  obtain ⟨hrow, rfl⟩ := List.getElem?_eq_some_iff.1 hline
  exact ⟨hrow, (List.getElem?_eq_some_iff.1 hcell).1⟩

/-- The cell that is found in a full matrix is that of the day and the container. -/
theorem Covers.bind_getElem?_matrix (h : Covers axis g points)
    (hcolumn : Axis.search axis p.1 = some column)
    (hrow : rowIndex? g.legend p.2.containerId = some row) (f : Day → String → Option UInt32) :
    (matrix axis g.legend f)[row]?.bind (fun cs => cs[column]?) =
      some (f p.1 p.2.containerId) := by
  obtain ⟨k, hk, hid⟩ := getElem?_ids_eq_some_iff.1 ((rowIndex?_eq_some_iff h.nodup).1 hrow)
  have hday := (Axis.search_eq_some_iff h.ascending).1 hcolumn
  simp [matrix, hk, hid, hday]

/-- The turn of a record whose day and container are there has no fault. -/
theorem Covers.watchPlace_matrix (h : Covers axis g points) (hp : p ∈ points)
    (f : Day → String → Option UInt32) :
    watchPlace axis g (matrix axis g.legend f) p =
      .ok (place axis g.legend (matrix axis g.legend f) p) := by
  obtain ⟨row, column, hcolumn, hrow⟩ := h.exists_search hp
  have hcell := h.bind_getElem?_matrix hcolumn hrow f
  have hlookup := (h.inStep p.2.containerId).trans hrow
  rw [place_eq_settle hcolumn hrow]
  exact watchPlace_eq_ok hcolumn hlookup (isInside_of_bind hcell)

end Turn

/-! ### All turns -/

section Run

variable {axis : List Day} {g : Register} {points : List (Day × CountRecord)}

/-- Turn after turn there is no fault, from any full matrix on. -/
theorem Covers.foldlM_watchPlace (h : Covers axis g points) (f : Day → String → Option UInt32) :
    points.foldlM (watchPlace axis g) (matrix axis g.legend f) =
      .ok (points.foldl (place axis g.legend) (matrix axis g.legend f)) := by
  -- a turn leaves a full matrix behind, so the next one finds its cell as well
  induction points generalizing f with
  | nil => rfl
  | cons p points ih =>
    rw [List.foldlM_cons, h.watchPlace_matrix List.mem_cons_self, ok_bind, List.foldl_cons,
      place_matrix h.ascending h.nodup]
    exact ih (h.of_subset (List.subset_cons_self p points)) _

theorem Covers.watchFill_eq_ok (h : Covers axis g points) :
    watchFill axis g points =
      .ok (points.foldl (place axis g.legend) (blankCells g.legend.length axis.length)) := by
  unfold watchFill
  rw [blankCells_eq_matrix]
  exact h.foldlM_watchPlace _

/-- The cells after some turns hold the counts of first records. -/
theorem Covers.foldl_place_blankCells (h : Covers axis g points) :
    points.foldl (place axis g.legend) (blankCells g.legend.length axis.length) =
      matrix axis g.legend (firstCount? points) := by
  rw [blankCells_eq_matrix, foldl_place_matrix h.ascending h.nodup]
  rfl

theorem Covers.exists_isTurn {before after : List (Day × CountRecord)} {p : Day × CountRecord}
    (h : Covers axis g (before ++ p :: after)) :
    ∃ cells row column, IsTurn axis g before p cells row column := by
  have hbefore := h.of_subset (List.subset_append_left before (p :: after))
  obtain ⟨row, column, hcolumn, hrow⟩ :=
    h.exists_search (List.mem_append_right before List.mem_cons_self)
  have hlookup := (h.inStep p.2.containerId).trans hrow
  have hday := (Axis.search_eq_some_iff h.ascending).1 hcolumn
  have hid := (rowIndex?_eq_some_iff h.nodup).1 hrow
  have hcell := h.bind_getElem?_matrix hcolumn hrow (firstCount? before)
  rw [← hbefore.foldl_place_blankCells] at hcell
  have hinside := isInside_of_bind hcell
  exact ⟨_, row, column, {
    reached := hbefore.watchFill_eq_ok
    cells_eq := rfl
    watch := (Axis.watch_eq_ok axis p.1).trans (congrArg Except.ok hcolumn)
    search := hcolumn
    lookup := hlookup
    rowIndex := hrow
    day_iff := fun j =>
      ⟨fun hj => (index_eq_iff h.ascending.nodup hj hday).2 rfl, fun hj => hj ▸ hday⟩
    container_iff := fun i =>
      ⟨fun hi => (index_eq_iff h.nodup hi hid).2 rfl, fun hi => hi ▸ hid⟩
    inside := hinside
    held := hcell
    watchPlace_eq := watchPlace_eq_ok hcolumn hlookup hinside
    place_eq := place_eq_settle hcolumn hrow }⟩

end Run

/-! ### The turns of a list of daily counts -/

theorem legend_register (records : List CountRecord) :
    (Register.ofPoints (dated records)).legend = (ofRecords records).containers :=
  Register.legend_ofPoints (dated records)

/-- The days and the containers of the dated records were collected before the first turn. -/
theorem covers_dated (records : List CountRecord) :
    Covers (ofRecords records).dates (Register.ofPoints (dated records)) (dated records) where
  ascending := ascending_dates records
  inStep := Register.inStep_ofPoints (dated records)
  nodup := by
    rw [Register.legend_ofPoints]
    exact nodup_ids_legendOf (dated records)
  mem_axis p hp := (mem_dates records).2 ⟨p, hp, rfl⟩
  mem_ids p hp := by
    rw [Register.legend_ofPoints]
    exact mem_ids_legendOf.2 ⟨p, hp, rfl⟩

/-- Binning has no fault. -/
theorem watchRecords_eq_ok (records : List CountRecord) :
    watchRecords records = .ok (ofRecords records) := by
  have hfill := (covers_dated records).watchFill_eq_ok
  rw [ofRecords_dates] at hfill
  unfold watchRecords
  dsimp only
  rw [hfill, ok_bind, Register.legend_ofPoints]
  rfl

/-- No dated record is skipped.  At its turn its day and its container are found, at the one column
and the one row where they stand, which are inside of the cells; so the series comes without a
fault. -/
theorem isTurn_of_dated (records : List CountRecord) :
    watchRecords records = .ok (ofRecords records) ∧
      (Register.ofPoints (dated records)).legend = (ofRecords records).containers ∧
      ∀ before p after, dated records = before ++ p :: after →
        ∃ cells row column, IsTurn (ofRecords records).dates (Register.ofPoints (dated records))
          before p cells row column := by
  refine ⟨watchRecords_eq_ok records, legend_register records, fun before p after h => ?_⟩
  have hall : before ++ p :: after ⊆ dated records := h ▸ List.Subset.refl (dated records)
  exact ((covers_dated records).of_subset hall).exists_isTurn

/-- Records of two containers: one without a day among them, and the last one for a cell that
another has decided. -/
def patchyRecords : List CountRecord :=
  [⟨"web", "web", some ⟨2025, 3, 9, by decide⟩, 2⟩, ⟨"cache", "cache", none, 1⟩,
    ⟨"db", "db", some ⟨2025, 3, 8, by decide⟩, 3⟩,
    ⟨"web", "web-2", some ⟨2025, 3, 9, by decide⟩, 7⟩]

/-- The last record of the list at its turn. -/
def lastPoint : Day × CountRecord :=
  (⟨2025, 3, 9, by decide⟩, ⟨"web", "web-2", some ⟨2025, 3, 9, by decide⟩, 7⟩)

theorem isTurn_patchyRecords :
    dated patchyRecords = (dated patchyRecords).take 2 ++ lastPoint :: [] ∧
      IsTurn (ofRecords patchyRecords).dates (Register.ofPoints (dated patchyRecords))
        ((dated patchyRecords).take 2) lastPoint [[none, some 2], [some 3, none]] 0 1 := by
  have hdated : dated patchyRecords = (dated patchyRecords).take 2 ++ lastPoint :: [] := by
    decide
  obtain ⟨-, hlegend, hturns⟩ := isTurn_of_dated patchyRecords
  obtain ⟨cells, row, column, hturn⟩ := hturns _ _ _ hdated
  have hcells := hturn.cells_eq
  have hrow := hturn.rowIndex
  rw [hlegend] at hcells hrow
  have hzero : rowIndex? (ofRecords patchyRecords).containers lastPoint.2.containerId = some 0 := by
    decide
  have hone : Axis.search (ofRecords patchyRecords).dates lastPoint.1 = some 1 := by
    decide
  have hmatrix : ((dated patchyRecords).take 2).foldl
      (place (ofRecords patchyRecords).dates (ofRecords patchyRecords).containers)
      (blankCells (ofRecords patchyRecords).containers.length
        (ofRecords patchyRecords).dates.length) = [[none, some 2], [some 3, none]] := by
    decide
  obtain rfl : 0 = row := Option.some.inj (hzero.symm.trans hrow)
  obtain rfl : 1 = column := Option.some.inj (hone.symm.trans hturn.search)
  obtain rfl := hmatrix.symm.trans hcells
  exact ⟨hdated, hturn⟩

end CrashReports.Series
