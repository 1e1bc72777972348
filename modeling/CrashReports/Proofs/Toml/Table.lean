import CrashReports.Proofs.Gather
import CrashReports.Toml.Decode

/-!
# Tables from headers and pairs

A document without dotted keys is a list of tables with distinct names, each a header followed
by the pairs of its entries, which have distinct names too.  Its statements make just these
tables (`ofStatements_statementsOf`).  What is read from a table does not depend on the order
of its entries.
-/

namespace CrashReports.Toml

/-! ### Looking up and putting entries -/

namespace Table

variable {t t' : Table} {key : String}

theorem get?_eq_none_iff : t.get? key = none ↔ key ∉ t.map Prod.fst := by
  rw [get?, Option.map_eq_none_iff, List.find?_eq_none, List.mem_map]
  constructor
  · rintro h ⟨e, he, hkey⟩
    exact h e he (beq_iff_eq.2 hkey)
  · intro h e he hkey
    exact h ⟨e, he, beq_iff_eq.1 hkey⟩

theorem get?_eq_some_iff (h : (t.map Prod.fst).Nodup) {v : Value} :
    t.get? key = some v ↔ (key, v) ∈ t := by
  simp only [get?, Option.map_eq_some_iff,
    Gather.find?_eq_some_iff_of_nodup h fun _ => beq_iff_eq]
  constructor
  · rintro ⟨⟨k, w⟩, ⟨hmem, rfl⟩, rfl⟩
    exact hmem
  · intro hmem
    exact ⟨(key, v), ⟨hmem, rfl⟩, rfl⟩

/-- Looking up does not depend on the order of the entries. -/
theorem get?_perm (h : t.Perm t') (hnodup : (t.map Prod.fst).Nodup) :
    t.get? key = t'.get? key := by
  have hnodup' : (t'.map Prod.fst).Nodup := (h.map Prod.fst).nodup_iff.1 hnodup
  ext v
  rw [get?_eq_some_iff hnodup, get?_eq_some_iff hnodup', h.mem_iff]

/-- A new entry is put at the end. -/
theorem put_new (h : key ∉ t.map Prod.fst) (v : Value) : t.put key v = t ++ [(key, v)] := by
  induction t with
  | nil => rfl
  | cons e t ih =>
    obtain ⟨hne, h⟩ := not_or.1 (mt List.mem_cons.2 h)
    rw [put, if_neg (Ne.symm hne), ih h, List.cons_append]

/-- The entry at the end is replaced in its place. -/
theorem put_last (h : key ∉ t.map Prod.fst) (v w : Value) :
    (t ++ [(key, v)]).put key w = t ++ [(key, w)] := by
  induction t with
  | nil => simp [put]
  | cons e t ih =>
    obtain ⟨hne, h⟩ := not_or.1 (mt List.mem_cons.2 h)
    rw [List.cons_append, put, if_neg (Ne.symm hne), ih h, List.cons_append]

theorem get?_last (h : key ∉ t.map Prod.fst) (v : Value) :
    (t ++ [(key, v)]).get? key = some v := by
  have hnone := get?_eq_none_iff.2 h
  rw [get?, Option.map_eq_none_iff] at hnone
  simp [get?, List.find?_append, hnone]

end Table

/-! ### Documents without dotted keys -/

/-- The statements of a table with a header. -/
def statementsOf (s : String × Table) : List Statement :=
  .table ⟨[], s.1⟩ :: s.2.map fun e => .pair ⟨[], e.1⟩ e.2

/-- The document that holds the given tables. -/
def tableOf (sections : List (String × Table)) : Table :=
  sections.map fun s => (s.1, .table .header s.2)

theorem take_header {d : Draft} {name : String} (h : name ∉ d.tables.map Prod.fst) :
    d.take (.table ⟨[], name⟩) = some ⟨d.tables ++ [(name, .table .header [])], [name]⟩ := by
  simp [Draft.take, Table.openTable, Table.within, Table.get?_eq_none_iff.2 h, Table.put_new h,
    Path.names]

/-- A pair adds an entry to the table that is open, which is the last one. -/
theorem take_pair {t sub : Table} {name key : String} (hname : name ∉ t.map Prod.fst)
    (hkey : key ∉ sub.map Prod.fst) (v : Value) :
    Draft.take ⟨t ++ [(name, .table .header sub)], [name]⟩ (.pair ⟨[], key⟩ v) =
      some ⟨t ++ [(name, .table .header (sub ++ [(key, v)]))], [name]⟩ := by
  simp [Draft.take, Table.insert, Table.within, Table.get?_last hname, Table.put_last hname,
    Table.get?_eq_none_iff.2 hkey, Table.put_new hkey, TableKind.isShut, TableKind.passedBy]

theorem take_pairs {t : Table} {name : String} (hname : name ∉ t.map Prod.fst) (es sub : Table)
    (hkeys : ((sub ++ es).map Prod.fst).Nodup) :
    (es.map fun e => Statement.pair ⟨[], e.1⟩ e.2).foldlM Draft.take
        ⟨t ++ [(name, .table .header sub)], [name]⟩ =
      some ⟨t ++ [(name, .table .header (sub ++ es))], [name]⟩ := by
  induction es generalizing sub with
  | nil => simp
  | cons e es ih =>
    have hnew : e.1 ∉ sub.map Prod.fst := by
      rw [List.map_append] at hkeys
      exact fun hmem => List.disjoint_of_nodup_append hkeys hmem List.mem_cons_self
    have hrest := ih (sub ++ [e]) (by simpa using hkeys)
    rw [List.map_cons, List.foldlM_cons, take_pair hname hnew]
    simpa using hrest

theorem take_statementsOf {t : Table} (current : List String) {s : String × Table}
    (hname : s.1 ∉ t.map Prod.fst) (hkeys : (s.2.map Prod.fst).Nodup) :
    (statementsOf s).foldlM Draft.take ⟨t, current⟩ =
      some ⟨t ++ [(s.1, .table .header s.2)], [s.1]⟩ := by
  have hopen : Draft.take ⟨t, current⟩ (.table ⟨[], s.1⟩) = _ := take_header hname
  have hpairs := take_pairs hname s.2 [] hkeys
  rw [statementsOf, List.foldlM_cons, hopen]
  exact hpairs

theorem take_sections {sections : List (String × Table)} {d : Draft}
    (hnames : ((d.tables.map Prod.fst) ++ sections.map Prod.fst).Nodup)
    (hkeys : ∀ s ∈ sections, (s.2.map Prod.fst).Nodup) :
    ((sections.flatMap statementsOf).foldlM Draft.take d).map Draft.tables =
      some (d.tables ++ tableOf sections) := by
  induction sections generalizing d with
  | nil => simp [tableOf]
  | cons s sections ih =>
    obtain ⟨hs, hkeys⟩ := List.forall_mem_cons.1 hkeys
    have hnew : s.1 ∉ d.tables.map Prod.fst := fun hmem =>
      List.disjoint_of_nodup_append hnames hmem List.mem_cons_self
    have hhead := take_statementsOf d.current hnew hs
    have hnames' : (((d.tables ++ [(s.1, .table .header s.2)] : Table).map Prod.fst) ++
        sections.map Prod.fst).Nodup := by
      simpa using hnames
    have hrest := ih (d := ⟨d.tables ++ [(s.1, .table .header s.2)], [s.1]⟩) hnames' hkeys
    rw [List.flatMap_cons, List.foldlM_append, hhead]
    simpa [tableOf] using hrest

/-- Tables with distinct names and distinct entries are what their statements make. -/
theorem ofStatements_statementsOf {sections : List (String × Table)}
    (hnames : (sections.map Prod.fst).Nodup) (hkeys : ∀ s ∈ sections, (s.2.map Prod.fst).Nodup) :
    Table.ofStatements (sections.flatMap statementsOf) = some (tableOf sections) :=
  take_sections (d := ⟨[], []⟩) hnames hkeys

end CrashReports.Toml
