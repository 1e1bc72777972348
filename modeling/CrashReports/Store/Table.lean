import CrashReports.Store.Cell

/-!
# The crash table

The rows that the monitor writes, each under a number of its own, in ascending
order of these numbers.  A row that is inserted without a number gets the one
after the greatest, or some free number if there is none after it.  The table may be
missing altogether.

A store also has a clock, which no statement changes.
-/

namespace CrashReports.Store

/-- A stored crash. -/
structure Row where
  number : Int
  containerId : TextCell
  containerName : TextCell
  logs : TextCell
  crashedOn : StampCell
deriving DecidableEq

/-- A crash handed to the store. -/
structure NewRow where
  number : Value
  containerId : Value
  containerName : Value
  logs : Value
  crashedOn : Value

/-- The rows of a crash table in ascending order of their numbers. -/
structure Table where
  rows : List Row
  ascending : rows.Pairwise fun a b => a.number < b.number

/-- Why the store refuses a statement. -/
inductive StatementError where
  | noTable
  /-- A row number that is no integer. -/
  | mismatch
  /-- A row without a time. -/
  | noTime
  /-- A row number that is taken. -/
  | taken
deriving DecidableEq

/-- The wording of a refusal. -/
def StatementError.message : StatementError → String
  | .noTable => "no such table: crashedcontainers"
  | .mismatch => "datatype mismatch"
  | .noTime => "NOT NULL constraint failed: crashedcontainers.crashedon"
  | .taken => "UNIQUE constraint failed: crashedcontainers.id"

namespace Table

/-- A table without rows. -/
def empty : Table := ⟨[], .nil⟩

/-- Put a row before the first one with a greater number, unless its number is
taken. -/
def insertRow? (r : Row) : List Row → Option (List Row)
  | [] => some [r]
  | s :: rest =>
    if r.number < s.number then some (r :: s :: rest)
    else if r.number = s.number then none
    else (insertRow? r rest).map (s :: ·)

theorem mem_of_insertRow? {r x : Row} {rows out : List Row} (h : insertRow? r rows = some out)
    (hx : x ∈ out) : x = r ∨ x ∈ rows := by
  induction rows generalizing out with
  | nil =>
    obtain rfl := Option.some.inj h
    simpa using hx
  | cons s rest ih =>
    unfold insertRow? at h
    split at h
    · obtain rfl := Option.some.inj h
      simpa using hx
    · split at h
      · cases h
      · obtain ⟨tail, ht, rfl⟩ := Option.map_eq_some_iff.1 h
        rcases List.mem_cons.1 hx with rfl | hx
        · simp
        · rcases ih ht hx with hx | hx <;> simp [hx]

theorem pairwise_of_insertRow? {r : Row} {rows out : List Row}
    (hrows : rows.Pairwise fun a b => a.number < b.number) (h : insertRow? r rows = some out) :
    out.Pairwise fun a b => a.number < b.number := by
  induction rows generalizing out with
  | nil =>
    obtain rfl := Option.some.inj h
    simp
  | cons s rest ih =>
    have hs := List.pairwise_cons.1 hrows
    unfold insertRow? at h
    split at h
    case isTrue hlt =>
      obtain rfl := Option.some.inj h
      refine List.pairwise_cons.2 ⟨fun a ha => ?_, hrows⟩
      rcases List.mem_cons.1 ha with rfl | ha
      · exact hlt
      · exact Int.lt_trans hlt (hs.1 a ha)
    case isFalse hge =>
      split at h
      · cases h
      case isFalse hne =>
        obtain ⟨tail, ht, rfl⟩ := Option.map_eq_some_iff.1 h
        refine List.pairwise_cons.2 ⟨fun a ha => ?_, ih hs.2 ht⟩
        rcases mem_of_insertRow? ht ha with rfl | ha
        · omega
        · exact hs.1 a ha

/-- Insert a row, unless its number is taken. -/
def insert? (t : Table) (r : Row) : Option Table :=
  match h : insertRow? r t.rows with
  | some rows => some ⟨rows, pairwise_of_insertRow? t.ascending h⟩
  | none => none

/-- A number that no row has, far from the least and from the greatest one. -/
def freeNumber (t : Table) : Int :=
  t.rows.foldl (fun n r => if r.number = n then n + 1 else n) (Int.pow 2 61)

/-- The number for a row that is inserted without one. -/
def nextNumber (t : Table) : Int :=
  match t.rows.getLast? with
  | some r => if r.number < greatestInteger then r.number + 1 else t.freeNumber
  | none => 1

/-- The number that a value names: an integer, or a real number or text that
writes one. -/
def numberOf : Value → Option Int
  | .integer i => some i
  | .real x => integerOfReal? x
  | .text s =>
    match readNumber s.toList with
    | some (.integer i) => some i
    | _ => none
  | _ => none

/-- The rows without those of a given number. -/
def erase (t : Table) (number : Int) : Table :=
  ⟨t.rows.filter fun r => r.number != number, t.ascending.filter _⟩

/-- Change the time of the rows of a given number. -/
def restamp (t : Table) (number : Int) (stamp : StampCell) : Table :=
  ⟨t.rows.map fun r => if r.number = number then { r with crashedOn := stamp } else r, by
    refine List.pairwise_map.2 (t.ascending.imp fun h => ?_)
    split <;> split <;> exact h⟩

/-- Whether a row of a given number exists. -/
def has (t : Table) (number : Int) : Bool :=
  t.rows.any fun r => r.number == number

end Table

end CrashReports.Store

namespace CrashReports

/-- A store with its table, if it has one. -/
structure Store where
  table : Option Store.Table
  /-- What the clock shows, in milliseconds of Julian days. -/
  now : Int

namespace Store

/-- A store whose table has not been created. -/
def fresh (now : Int) : Store := ⟨none, now⟩

/-- Create the table unless it exists. -/
def init (s : Store) : Store :=
  ⟨some (s.table.getD .empty), s.now⟩

/-- The table of a store. -/
def opened (s : Store) : Except StatementError Table :=
  match s.table with
  | some t => .ok t
  | none => .error .noTable

/-- Insert a row.  Its number is looked at first, then its time, and then whether
the number is taken. -/
def insert (s : Store) (r : NewRow) : Except StatementError Store := do
  let t ← s.opened
  let number ← match r.number with
    | .null => pure t.nextNumber
    | v =>
      match Table.numberOf v with
      | some n => pure n
      | none => throw .mismatch
  match StampCell.ofValue? r.crashedOn with
  | none => throw .noTime
  | some stamp =>
    match t.insert? ⟨number, .ofValue r.containerId, .ofValue r.containerName, .ofValue r.logs,
        stamp⟩ with
    | some t => pure ⟨some t, s.now⟩
    | none => throw .taken

/-- Change the time of a row, and say how many rows that were. -/
def updateTime (s : Store) (row time : Value) : Except StatementError (Nat × Store) := do
  let t ← s.opened
  match Table.numberOf row with
  | none => pure (0, s)
  | some n =>
    if t.has n then
      match StampCell.ofValue? time with
      | some stamp => pure (1, ⟨some (t.restamp n stamp), s.now⟩)
      | none => throw .noTime
    else pure (0, s)

/-- Delete a row, and say how many rows that were. -/
def delete (s : Store) (row : Value) : Except StatementError (Nat × Store) := do
  let t ← s.opened
  match Table.numberOf row with
  | none => pure (0, s)
  | some n => pure (if t.has n then 1 else 0, ⟨some (t.erase n), s.now⟩)

/-- Remove the table with all its rows. -/
def drop (s : Store) : Except StatementError Store := do
  let _ ← s.opened
  pure (fresh s.now)

end Store

end CrashReports
