import CrashReports.Toml.Value

/-!
# Tables from statements

A document is a list of statements: headers that open a table, and pairs of a key
and a value.  Tables are made on the way to the name of a header or of a dotted
key.  Nothing is defined twice: a header opens a table that no other header has
opened and no dotted key has led through, a dotted key adds only to tables that no
header has opened, and nobody adds to an inline table or to an array between
brackets.
-/

namespace CrashReports.Toml

/-- A dotted key. -/
structure Path where
  parents : List String
  last : String
deriving DecidableEq

/-- One statement of a document. -/
inductive Statement where
  /-- A header between brackets. -/
  | table (path : Path)
  /-- A header between double brackets. -/
  | item (path : Path)
  /-- A key and its value. -/
  | pair (path : Path) (v : Value)

/-- Whether a table that is found on the way to a new one must not be entered. -/
def TableKind.isShut (made kind : TableKind) : Bool :=
  match kind with
  | .inline => true
  | .header => made == .dotted
  | .implicit | .dotted => false

/-- How a table counts once a path has led through it: a dotted key makes the
implicit tables on its way its own. -/
def TableKind.passedBy (made kind : TableKind) : TableKind :=
  match made, kind with
  | .dotted, .implicit => .dotted
  | _, kind => kind

/-- Change the table at the end of a path.  Missing tables on the way are made;
where tables share a header, the way goes through the last one. -/
def Table.within (made : TableKind) (change : TableKind → Table → Option Table) :
    List String → TableKind → Table → Option Table
  | [], kind, t => change kind t
  | key :: path, _, t =>
    match get? t key with
    | none => (within made change path made []).map fun sub => put key (.table made sub) t
    | some (.table kind sub) =>
      if made.isShut kind then none
      else
        (within made change path kind sub).map fun sub =>
          put key (.table (made.passedBy kind) sub) t
    | some (.tables earlier last) =>
      (within made change path .header last).map fun last => put key (.tables earlier last) t
    | some _ => none

/-- Put a value under a dotted key. -/
def Table.insert (path : Path) (v : Value) (t : Table) : Option Table :=
  within .dotted
    (fun kind t =>
      if path.parents ≠ [] ∧ kind = .header then none
      else if (get? t path.last).isSome then none
      else some (put path.last v t))
    path.parents .header t

/-- Open the table of a header. -/
def Table.openTable (path : Path) (t : Table) : Option Table :=
  within .implicit
    (fun _ t =>
      match get? t path.last with
      | none => some (put path.last (.table .header []) t)
      | some (.table .implicit sub) => some (put path.last (.table .header sub) t)
      | some _ => none)
    path.parents .header t

/-- Open one more of the tables that share a header. -/
def Table.openItem (path : Path) (t : Table) : Option Table :=
  within .implicit
    (fun _ t =>
      match get? t path.last with
      | none => some (put path.last (.tables [] []) t)
      | some (.tables earlier last) => some (put path.last (.tables (earlier ++ [last]) []) t)
      | some _ => none)
    path.parents .header t

/-- The whole name that a path spells. -/
def Path.names (p : Path) : List String :=
  p.parents ++ [p.last]

/-- A document on its way: its tables, and the name of the one that is open. -/
structure Draft where
  tables : Table
  current : List String

/-- Follow one statement. -/
def Draft.take (d : Draft) : Statement → Option Draft
  | .table path => (d.tables.openTable path).map fun t => ⟨t, path.names⟩
  | .item path => (d.tables.openItem path).map fun t => ⟨t, path.names⟩
  | .pair path v =>
    (Table.within .implicit (fun _ t => Table.insert path v t) d.current .header d.tables).map
      fun t => ⟨t, d.current⟩

/-- The document that statements make. -/
def Table.ofStatements (statements : List Statement) : Option Table :=
  (statements.foldlM Draft.take ⟨[], []⟩).map Draft.tables

/-- The entries between braces. -/
def Table.ofPairs (pairs : List (Path × Value)) : Option Table :=
  pairs.foldlM (fun t p => Table.insert p.1 p.2 t) []

end CrashReports.Toml
