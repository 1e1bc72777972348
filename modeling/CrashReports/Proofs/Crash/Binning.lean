import CrashReports.Crash.Binning
import CrashReports.Proofs.Calendar.Axis
import CrashReports.Proofs.Gather

/-!
# What a binned series holds

The counts of a series made from records are a full matrix: the cell of a container and a
day holds the count of the first record of that container on that day, and 0 without one
(`Series.ofRecords_counts`).  Reading a row or a cell gives the same numbers, also off the
axis and for containers that are not in the legend.

While it is filled, the matrix is described by a function from days and containers to
cells; putting in a record changes that function at one place.
-/

namespace CrashReports.Series

/-! ### The legend -/

/-- How a legend is collected: the first record of a container decides its name. -/
def legendGather : Gather (Day × CountRecord) ContainerKey String where
  itemKey p := p.2.containerId
  entryKey k := k.containerId
  start p := ⟨p.2.containerId, p.2.containerName⟩
  extend k _ := k
  entryKey_start _ := rfl
  entryKey_extend _ _ := rfl

/-- The identities in a legend. -/
def ids (legend : List ContainerKey) : List String :=
  legend.map ContainerKey.containerId

theorem getElem?_ids_eq_some_iff {legend : List ContainerKey} {id : String} {i : Nat} :
    (ids legend)[i]? = some id ↔ ∃ k, legend[i]? = some k ∧ k.containerId = id := by
  simp [ids]

theorem rowIndex?_eq_none_iff {legend : List ContainerKey} {id : String} :
    rowIndex? legend id = none ↔ id ∉ ids legend := by
  simp [rowIndex?, ids, List.findIdx?_eq_none_iff]

theorem rowIndex?_eq_some_iff {legend : List ContainerKey} (h : (ids legend).Nodup) {id : String}
    {i : Nat} : rowIndex? legend id = some i ↔ (ids legend)[i]? = some id := by
  induction legend generalizing i with
  | nil => simp [rowIndex?, ids]
  | cons k legend ih =>
    obtain ⟨hk, hlegend⟩ := List.nodup_cons.1 h
    have ih := @ih hlegend
    unfold rowIndex? at ih ⊢
    rw [List.findIdx?_cons]
    by_cases hid : k.containerId = id
    · subst hid
      cases i with
      | zero => simp [ids]
      | succ i =>
        have hne : (ids legend)[i]? ≠ some k.containerId := fun h => hk (List.mem_of_getElem? h)
        simpa [ids] using hne
    · cases i with
      | zero => simp [ids, hid]
      | succ i => simpa [ids, hid] using ih

theorem enlist_eq_add (legend : List ContainerKey) (p : Day × CountRecord) :
    enlist legend p.2 = legendGather.add p legend := by
  have hadd : legendGather.add p legend =
      if p.2.containerId ∈ ids legend then legend
      else legend ++ [⟨p.2.containerId, p.2.containerName⟩] := by
    induction legend with
    | nil => rfl
    | cons k legend ih =>
      have hcons : legendGather.add p (k :: legend) =
          if k.containerId = p.2.containerId then k :: legend
          else k :: legendGather.add p legend := rfl
      rw [hcons]
      by_cases hk : k.containerId = p.2.containerId
      · have hmem : p.2.containerId ∈ ids (k :: legend) := by simp [ids, hk]
        rw [if_pos hk, if_pos hmem]
      · have hiff : p.2.containerId ∈ ids (k :: legend) ↔ p.2.containerId ∈ ids legend := by
          simp [ids, Ne.symm hk]
        rw [if_neg hk, ih]
        by_cases hmem : p.2.containerId ∈ ids legend
        · rw [if_pos hmem, if_pos (hiff.2 hmem)]
        · rw [if_neg hmem, if_neg (mt hiff.1 hmem), List.cons_append]
  rw [hadd, enlist]
  cases hindex : rowIndex? legend p.2.containerId with
  | none => rw [if_neg (rowIndex?_eq_none_iff.1 hindex)]
  | some i =>
    have hmem : p.2.containerId ∈ ids legend := by
      by_contra hmem
      rw [rowIndex?_eq_none_iff.2 hmem] at hindex
      cases hindex
    rw [if_pos hmem]

theorem legendOf_eq_collect (points : List (Day × CountRecord)) :
    legendOf points = legendGather.collect points := by
  unfold legendOf Gather.collect
  congr 1
  funext legend p
  exact enlist_eq_add legend p

/-- Containers come into a legend in the order of their first records. -/
theorem ids_legendOf (points : List (Day × CountRecord)) :
    ids (legendOf points) = (points.map fun p => p.2.containerId).eraseDups := by
  rw [legendOf_eq_collect]
  exact legendGather.map_entryKey_collect points

theorem nodup_ids_legendOf (points : List (Day × CountRecord)) : (ids (legendOf points)).Nodup :=
  legendOf_eq_collect points ▸ legendGather.nodup_map_entryKey_collect points

theorem mem_ids_legendOf {points : List (Day × CountRecord)} {id : String} :
    id ∈ ids (legendOf points) ↔ ∃ p ∈ points, p.2.containerId = id := by
  rw [legendOf_eq_collect]
  exact legendGather.mem_map_entryKey_collect

theorem entry_legendGather (points : List (Day × CountRecord)) :
    legendGather.entry points = points.head?.map legendGather.start := by
  cases points with
  | nil => rfl
  | cons p points =>
    have hfold : ∀ k, points.foldl legendGather.extend k = k := by
      intro k
      induction points with
      | nil => rfl
      | cons p points ih => exact ih
    exact congrArg some (hfold _)

/-- The legend entry of a container has the name of its first record. -/
theorem find?_legendOf (points : List (Day × CountRecord)) (id : String) :
    (legendOf points).find? (fun k => decide (k.containerId = id)) =
      (points.find? fun p => decide (p.2.containerId = id)).map fun p =>
        ⟨p.2.containerId, p.2.containerName⟩ := by
  have hcollect := legendGather.find?_collect points id
  rw [entry_legendGather, List.head?_filter, ← legendOf_eq_collect] at hcollect
  exact hcollect

/-! ### The matrix -/

/-- The matrix of cells that a function of day and container describes. -/
def matrix {α : Type} (axis : List Day) (legend : List ContainerKey) (f : Day → String → α) :
    List (List α) :=
  legend.map fun k => axis.map fun d => f d k.containerId

theorem blankCells_eq_matrix (axis : List Day) (legend : List ContainerKey) :
    blankCells legend.length axis.length = matrix axis legend fun _ _ => none := by
  simp [blankCells, matrix, List.map_const']

/-- Changing a list at one index changes it where a property holds that singles out this
index. -/
theorem modify_map {α β : Type} {xs : List α} {f : α → β} {g : β → β} {c : Nat} {P : α → Prop}
    [DecidablePred P] (h : ∀ j x, xs[j]? = some x → (c = j ↔ P x)) :
    (xs.map f).modify c g = xs.map fun x => if P x then g (f x) else f x := by
  apply List.ext_getElem?
  intro j
  rw [List.getElem?_modify, List.getElem?_map, List.getElem?_map]
  cases hx : xs[j]? with
  | none => rfl
  | some x =>
    have hiff := h j x hx
    by_cases hc : c = j
    · simp [hc, hiff.1 hc]
    · simp [hc, mt hiff.2 hc]

/-- Entries of a list without repetitions stand at the same index if they are the same. -/
theorem index_eq_iff {α : Type} {xs : List α} (h : xs.Nodup) {i j : Nat} {x y : α}
    (hi : xs[i]? = some x) (hj : xs[j]? = some y) : i = j ↔ y = x := by
  obtain ⟨hi', rfl⟩ := List.getElem?_eq_some_iff.1 hi
  obtain ⟨hj', rfl⟩ := List.getElem?_eq_some_iff.1 hj
  rw [h.getElem_inj_iff, eq_comm]

theorem settle_matrix {axis : List Day} {legend : List ContainerKey} (haxis : Axis.Ascending axis)
    (hlegend : (ids legend).Nodup) {d : Day} {id : String} {row column : Nat}
    (hcolumn : axis[column]? = some d) (hrow : (ids legend)[row]? = some id) (n : UInt32)
    (f : Day → String → Option UInt32) :
    settle (matrix axis legend f) row column n =
      matrix axis legend fun e i => if e = d ∧ i = id then some ((f e i).getD n) else f e i := by
  have hday : ∀ j e, axis[j]? = some e → (column = j ↔ e = d) :=
    fun j e hj => index_eq_iff haxis.nodup hcolumn hj
  have hid : ∀ j k, legend[j]? = some k → (row = j ↔ k.containerId = id) := by
    intro j k hj
    exact index_eq_iff hlegend hrow (getElem?_ids_eq_some_iff.2 ⟨k, hj, rfl⟩)
  unfold settle matrix
  rw [modify_map hid]
  refine List.map_congr_left fun k _ => ?_
  by_cases hk : k.containerId = id
  · rw [if_pos hk, modify_map hday]
    exact List.map_congr_left fun e _ => by simp [hk]
  · rw [if_neg hk]
    exact List.map_congr_left fun e _ => by simp [hk]

theorem matrix_congr {α : Type} {axis : List Day} {legend : List ContainerKey}
    {f g : Day → String → α} (h : ∀ d ∈ axis, ∀ id ∈ ids legend, f d id = g d id) :
    matrix axis legend f = matrix axis legend g := by
  unfold matrix
  refine List.map_congr_left fun k hk => List.map_congr_left fun d hd => h d hd _ ?_
  exact List.mem_map_of_mem hk

/-- Putting in a record decides the cell of its day and container, unless it is decided. -/
theorem place_matrix {axis : List Day} {legend : List ContainerKey} (haxis : Axis.Ascending axis)
    (hlegend : (ids legend).Nodup) (p : Day × CountRecord) (f : Day → String → Option UInt32) :
    place axis legend (matrix axis legend f) p =
      matrix axis legend fun e i =>
        if e = p.1 ∧ i = p.2.containerId then some ((f e i).getD p.2.crashCount) else f e i := by
  unfold place
  -- off the axis or the legend the place is not in the matrix, so both sides leave it as it is
  cases hcolumn : Axis.search axis p.1 with
  | none =>
    have hday := (Axis.search_eq_none_iff haxis).1 hcolumn
    refine matrix_congr fun e he i _ => (if_neg ?_).symm
    rintro ⟨rfl, -⟩
    exact hday he
  | some column =>
    cases hrow : rowIndex? legend p.2.containerId with
    | none =>
      have hid := rowIndex?_eq_none_iff.1 hrow
      refine matrix_congr fun e _ i hi => (if_neg ?_).symm
      rintro ⟨-, rfl⟩
      exact hid hi
    | some row =>
      exact settle_matrix haxis hlegend ((Axis.search_eq_some_iff haxis).1 hcolumn)
        ((rowIndex?_eq_some_iff hlegend).1 hrow) _ _

/-- The count of the first record of a container on a day. -/
def firstCount? (points : List (Day × CountRecord)) (d : Day) (id : String) : Option UInt32 :=
  (points.find? fun p => decide (d = p.1 ∧ id = p.2.containerId)).map fun p => p.2.crashCount

/-- Filling in records one after the other: what is decided stays, and the first record
of a cell decides it. -/
theorem foldl_place_matrix {axis : List Day} {legend : List ContainerKey}
    (haxis : Axis.Ascending axis) (hlegend : (ids legend).Nodup) (points : List (Day × CountRecord))
    (f : Day → String → Option UInt32) :
    points.foldl (place axis legend) (matrix axis legend f) =
      matrix axis legend fun d id => (f d id).or (firstCount? points d id) := by
  -- the matrix stays one that a function describes, and each record changes that function
  induction points generalizing f with
  | nil => simp [firstCount?]
  | cons p points ih =>
    rw [List.foldl_cons, place_matrix haxis hlegend, ih]
    refine matrix_congr fun d _ id _ => ?_
    by_cases h : d = p.1 ∧ id = p.2.containerId
    · cases f d id <;> simp [firstCount?, h]
    · simp [firstCount?, h]

variable (records : List CountRecord)

theorem ofRecords_dates : (ofRecords records).dates = Axis.ofDays ((dated records).map Prod.fst) :=
  rfl

theorem ofRecords_containers : (ofRecords records).containers = legendOf (dated records) :=
  rfl

theorem ascending_dates : Axis.Ascending (ofRecords records).dates :=
  Axis.ascending_ofDays _

theorem mem_dates {d : Day} : d ∈ (ofRecords records).dates ↔ ∃ p ∈ dated records, p.1 = d := by
  rw [ofRecords_dates, Axis.mem_ofDays, List.mem_map]

/-- The counts are a full matrix of the counts of first records. -/
theorem ofRecords_counts :
    (ofRecords records).counts =
      matrix (ofRecords records).dates (ofRecords records).containers fun d id =>
        (firstCount? (dated records) d id).getD 0 := by
  have hfold := foldl_place_matrix (Axis.ascending_ofDays ((dated records).map Prod.fst))
    (nodup_ids_legendOf (dated records)) (dated records) fun _ _ => none
  rw [← blankCells_eq_matrix] at hfold
  unfold ofRecords
  dsimp only
  rw [hfold]
  simp [matrix, Function.comp_def]

theorem row?_ofRecords (id : String) :
    (ofRecords records).row? id =
      if id ∈ ids (ofRecords records).containers then
        some ((ofRecords records).dates.map fun d => (firstCount? (dated records) d id).getD 0)
      else none := by
  have hnodup := nodup_ids_legendOf (dated records)
  unfold row?
  cases hrow : rowIndex? (ofRecords records).containers id with
  | none => rw [if_neg (rowIndex?_eq_none_iff.1 hrow)]; rfl
  | some i =>
    have hget : (ids (ofRecords records).containers)[i]? = some id :=
      (rowIndex?_eq_some_iff hnodup).1 hrow
    obtain ⟨k, hk, hid⟩ := getElem?_ids_eq_some_iff.1 hget
    rw [if_pos (List.mem_of_getElem? hget)]
    show (ofRecords records).counts[i]? = _
    rw [ofRecords_counts, matrix, List.getElem?_map, hk, ← hid]
    rfl

theorem firstCount?_eq_none_iff {points : List (Day × CountRecord)} {d : Day} {id : String} :
    firstCount? points d id = none ↔ ∀ p ∈ points, p.1 = d → p.2.containerId ≠ id := by
  unfold firstCount?
  rw [Option.map_eq_none_iff, List.find?_eq_none]
  constructor
  · intro h p hp hd hid
    exact h p hp (decide_eq_true ⟨hd.symm, hid.symm⟩)
  · intro h p hp heq
    obtain ⟨hd, hid⟩ := of_decide_eq_true heq
    exact h p hp hd.symm hid.symm

/-- Every cell, on the axes or not, reads as the count of the first record of that day and
container, or as 0 without one. -/
theorem count_ofRecords (d : Day) (id : String) :
    (ofRecords records).count d id = (firstCount? (dated records) d id).getD 0 := by
  unfold count
  -- a day off the axis and a container off the legend have no record
  cases hcolumn : Axis.search (ofRecords records).dates d with
  | none =>
    have hday := (Axis.search_eq_none_iff (ascending_dates records)).1 hcolumn
    have hnone : firstCount? (dated records) d id = none :=
      firstCount?_eq_none_iff.2 fun p hp hd => absurd ((mem_dates records).2 ⟨p, hp, hd⟩) hday
    rw [hnone]
    rfl
  | some column =>
    have hget := (Axis.search_eq_some_iff (ascending_dates records)).1 hcolumn
    dsimp only
    rw [row?_ofRecords]
    by_cases hid : id ∈ ids (ofRecords records).containers
    · rw [if_pos hid, Option.bind_some, List.getElem?_map, hget]
      rfl
    · have hnone : firstCount? (dated records) d id = none :=
        firstCount?_eq_none_iff.2 fun p hp _ h => hid (mem_ids_legendOf.2 ⟨p, hp, h⟩)
      rw [if_neg hid, hnone]
      rfl

theorem isSome_row?_ofRecords {id : String} :
    ((ofRecords records).row? id).isSome ↔ ∃ p ∈ dated records, p.2.containerId = id := by
  rw [row?_ofRecords, ← mem_ids_legendOf, ofRecords_containers]
  split
  case isTrue hmem => exact iff_of_true rfl hmem
  case isFalse hmem => exact iff_of_false Bool.false_ne_true hmem

/-! ### Cells of counted days -/

variable {records}

theorem mem_dated {p : Day × CountRecord} :
    p ∈ dated records ↔ p.2 ∈ records ∧ p.2.crashedOn = some p.1 := by
  unfold dated
  simp only [List.mem_filterMap, Option.map_eq_some_iff]
  constructor
  · rintro ⟨c, hc, d, hd, rfl⟩
    exact ⟨hc, hd⟩
  · rintro ⟨hc, hd⟩
    exact ⟨p.2, hc, p.1, hd, rfl⟩

theorem firstCount?_ne_zero {points : List (Day × CountRecord)}
    (h : ∀ p ∈ points, p.2.crashCount ≠ 0) {p : Day × CountRecord} (hp : p ∈ points) :
    (firstCount? points p.1 p.2.containerId).getD 0 ≠ 0 := by
  unfold firstCount?
  cases hfind : points.find? fun q => decide (p.1 = q.1 ∧ p.2.containerId = q.2.containerId) with
  | none => exact absurd (List.find?_eq_none.1 hfind p hp) (by simp)
  | some q => exact h q (List.mem_of_find?_eq_some hfind)

/-- If no record counts 0, every container of the series has a day with crashes. -/
theorem exists_ne_zero_of_row? (h : ∀ c ∈ records, c.crashCount ≠ 0) {id : String}
    {row : List UInt32} (hrow : (ofRecords records).row? id = some row) : ∃ n ∈ row, n ≠ 0 := by
  have hpoints : ∀ p ∈ dated records, p.2.crashCount ≠ 0 := fun p hp => h _ (mem_dated.1 hp).1
  obtain ⟨p, hp, rfl⟩ := (isSome_row?_ofRecords records).1 (Option.isSome_of_eq_some hrow)
  have hid : p.2.containerId ∈ ids (ofRecords records).containers :=
    mem_ids_legendOf.2 ⟨p, hp, rfl⟩
  rw [row?_ofRecords, if_pos hid] at hrow
  obtain rfl := Option.some.inj hrow
  have hday : p.1 ∈ (ofRecords records).dates := (mem_dates records).2 ⟨p, hp, rfl⟩
  exact ⟨_, List.mem_map_of_mem hday, firstCount?_ne_zero hpoints hp⟩

/-- If no record counts 0, every day of the series has a container with crashes. -/
theorem exists_ne_zero_of_column (h : ∀ c ∈ records, c.crashCount ≠ 0) {column : Nat}
    (hcolumn : column < (ofRecords records).dates.length) :
    ∃ row ∈ (ofRecords records).counts, ∃ n, row[column]? = some n ∧ n ≠ 0 := by
  have hpoints : ∀ p ∈ dated records, p.2.crashCount ≠ 0 := fun p hp => h _ (mem_dated.1 hp).1
  obtain ⟨p, hp, hday⟩ := (mem_dates records).1 (List.getElem_mem hcolumn)
  obtain ⟨k, hk, hid⟩ : ∃ k ∈ (ofRecords records).containers, k.containerId = p.2.containerId :=
    List.mem_map.1 (mem_ids_legendOf.2 ⟨p, hp, rfl⟩)
  rw [ofRecords_counts]
  refine ⟨_, List.mem_map_of_mem hk, (firstCount? (dated records) p.1 p.2.containerId).getD 0, ?_,
    firstCount?_ne_zero hpoints hp⟩
  rw [List.getElem?_map, List.getElem?_eq_getElem hcolumn, hid, hday]
  rfl

end CrashReports.Series
