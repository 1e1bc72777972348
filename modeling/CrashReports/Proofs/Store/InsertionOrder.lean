import CrashReports.Proofs.Store.Fetch
import CrashReports.Proofs.Store.History
import CrashReports.Proofs.Store.StoredDay
import Mathlib.Tactic.Linarith

/-!
# The order of insertion

A row number says when its row was inserted, and the fetches look at it only to decide
between rows of the same time.  So if the times of a table differ, as texts, both fetches come
to the same for every table with the same crashes (`fetches_eq_of_perm`).

For the counts this needs more than the order of the events.  The name of a group is that of
its least time, where numbers are compared by value and not as texts; two different numbers
on a day are never level because the store keeps whole numbers as integers.  And groups of the
same day and name are ordered by their container.
-/

namespace CrashReports.Store

variable {now : Int}

/-- A row without its number. -/
def Row.unnumbered (row : Row) : Row :=
  { row with number := 0 }

/-! ### Numbers do not matter -/

/-- A group whose first row is without its number. -/
def Group.unnumbered (g : Group) : Group :=
  { g with first := g.first.unnumbered }

theorem selected_map_unnumbered (now : Int) (r : DayRange) (rows : List Row) :
    selected now r (rows.map Row.unnumbered) =
      (selected now r rows).map fun x => (x.1, x.2.unnumbered) := by
  induction rows with
  | nil => rfl
  | cons row rows ih =>
    have hday : selectedDay? now r row.unnumbered = selectedDay? now r row := rfl
    rw [List.map_cons, selected_cons, selected_cons, ih, List.map_append, hday]
    cases selectedDay? now r row <;> rfl

theorem addToGroups_map_unnumbered (gs : List Group) (x : Selected) :
    addToGroups (gs.map Group.unnumbered) (x.1, x.2.unnumbered) =
      (addToGroups gs x).map Group.unnumbered := by
  induction gs with
  | nil => rfl
  | cons g gs ih =>
    have hadd : g.unnumbered.add x.2.unnumbered = (g.add x.2).unnumbered := by
      unfold Group.add Group.unnumbered
      dsimp only
      rw [apply_ite Row.unnumbered]
      rfl
    rw [List.map_cons, addToGroups, addToGroups, ih, hadd]
    show (if g.day = x.1 ∧ g.containerId = x.2.containerId then _ else _) = _
    split <;> rfl

theorem groupsOf_map_unnumbered (xs : List Selected) :
    groupsOf (xs.map fun x => (x.1, x.2.unnumbered)) = (groupsOf xs).map Group.unnumbered := by
  induction xs using List.reverseRecOn with
  | nil => rfl
  | append_singleton xs x ih =>
    unfold groupsOf at ih ⊢
    rw [List.map_append, List.map_singleton, List.foldl_append, List.foldl_append, ih]
    exact addToGroups_map_unnumbered _ x

section Unnumbered

variable (now : Int) (t : Table) (r : DayRange)

/-- The events of a table are read from its rows without their numbers. -/
theorem events_eq_unnumbered :
    events ⟨some t, now⟩ r =
      (arrange eventBefore
        ((selected now r (t.rows.map Row.unnumbered)).map Prod.snd)).mapM readEvent := by
  have hrows : (eventRows now t r).map Row.unnumbered =
      arrange eventBefore ((selected now r (t.rows.map Row.unnumbered)).map Prod.snd) := by
    have horder : ∀ a b : Row, eventBefore a.unnumbered b.unnumbered = eventBefore a b :=
      fun _ _ => rfl
    unfold eventRows
    rw [map_arrange horder, selected_map_unnumbered, List.map_map, List.map_map]
    rfl
  rw [events_eq, ← hrows, List.mapM_map]
  rfl

/-- The counts of a table are read from the groups of its rows without their numbers. -/
theorem counts_eq_unnumbered :
    counts ⟨some t, now⟩ r =
      (arrange groupBefore
        (groupsOf (selected now r (t.rows.map Row.unnumbered)))).mapM readGroup := by
  have hgroups : (countGroups now t r).map Group.unnumbered =
      arrange groupBefore (groupsOf (selected now r (t.rows.map Row.unnumbered))) := by
    have horder : ∀ a b : Group, groupBefore a.unnumbered b.unnumbered = groupBefore a b :=
      fun _ _ => rfl
    unfold countGroups
    rw [map_arrange horder, selected_map_unnumbered, groupsOf_map_unnumbered]
  rw [counts_eq, ← hgroups, List.mapM_map]
  rfl

end Unnumbered

/-! ### Times that are never level -/

/-- A number that has a day lies far within the integers of the store. -/
theorem bounds_of_dayOfNumber {n : Number} {y : Ymd} (h : dayOfNumber n = some y) :
    -10 < n.value ∧ n.value < 10000000 := by
  have hbounds : 0 ≤ Decimal.double.round n.value ∧
      Decimal.double.round n.value < 10746969 / 2 := by
    unfold dayOfNumber at h
    dsimp only at h
    split at h
    case isTrue hbounds => exact hbounds
    case isFalse => cases h
  obtain ⟨hlow, hhigh⟩ := abs_le.1 (abs_double_round_sub_le n.value)
  rcases abs_cases n.value with ⟨habs, hsign⟩ | ⟨habs, hsign⟩
  · rw [habs] at hlow hhigh
    constructor <;> linarith
  · rw [habs] at hlow hhigh
    constructor <;> linarith

/-- A number that is kept as a real and has a day is not whole. -/
theorem real_ne_integer {x : Rat} (hx : (StampCell.number (.real x)).IsStored) {y : Ymd}
    (h : (StampCell.number (.real x)).day? now = some y) (i : Int) : x ≠ i := by
  rintro rfl
  obtain ⟨hlow, hhigh⟩ := bounds_of_dayOfNumber (n := .real (i : Rat)) h
  have hlow : -10 < i := by exact_mod_cast (show (-10 : Rat) < i from hlow)
  have hhigh : i < 10000000 := by exact_mod_cast (show (i : Rat) < 10000000 from hhigh)
  have hleast : leastInteger = -9223372036854775808 := rfl
  have hgreatest : greatestInteger = 9223372036854775807 := rfl
  have hnone := integerOfReal?_of_isStored hx
  unfold integerOfReal? at hnone
  rw [Rat.num_intCast, Rat.den_intCast, if_pos ⟨rfl, by omega, by omega⟩] at hnone
  cases hnone

/-- Times that are kept by the store, have a day and are level are the same: of two numbers
with one value none is kept as a real. -/
theorem eq_of_level {a b : StampCell} (ha : a.IsStored) (hb : b.IsStored) {y z : Ymd}
    (hay : a.day? now = some y) (hbz : b.day? now = some z) (hkind : a.kind = b.kind)
    (hvalue : a.value = b.value) (hcontent : a.content = b.content) : a = b := by
  cases a <;> cases b <;> try cases hkind
  case number.number m n =>
    have hvalue : m.value = n.value := hvalue
    cases m with
    | integer i =>
      cases n with
      | integer j => rw [Int.cast_injective hvalue]
      | real x => exact absurd hvalue.symm (real_ne_integer hb hbz i)
    | real x =>
      cases n with
      | integer j => exact absurd hvalue (real_ne_integer ha hay j)
      | real x' => exact congrArg (fun x => StampCell.number (.real x)) hvalue
  case text.text s t => exact congrArg StampCell.text (Text.utf8_inj.1 hcontent)
  case text.broken s t => exact absurd hcontent (utf8_ne_bytes s t)
  case broken.text t s => exact absurd hcontent.symm (utf8_ne_bytes s t)
  case broken.broken s t => exact congrArg StampCell.broken (Text.BrokenText.ext hcontent)
  case bytes.bytes s t => exact congrArg StampCell.bytes hcontent

/-- Different times that are kept by the store and have a day are not level. -/
theorem before_or_before {a b : StampCell} (ha : a.IsStored) (hb : b.IsStored) {y z : Ymd}
    (hay : a.day? now = some y) (hbz : b.day? now = some z) (hne : a ≠ b) :
    a.before b = true ∨ b.before a = true := by
  unfold StampCell.before
  by_cases hkind : a.kind = b.kind
  · rw [if_pos hkind, if_pos hkind.symm]
    by_cases hvalue : a.value = b.value
    · rw [if_pos hvalue, if_pos hvalue.symm]
      exact isTotalOrder_bytes.total fun hcontent =>
        hne (eq_of_level ha hb hay hbz hkind hvalue hcontent)
    · rw [if_neg hvalue, if_neg (Ne.symm hvalue)]
      exact isTotalOrder_rat.total hvalue
  · rw [if_neg hkind, if_neg (Ne.symm hkind)]
    exact isTotalOrder_nat.total hkind

/-- The rows of a list have different times, as texts, in the form in which the store keeps
them. -/
structure HasDistinctStamps (rows : List Row) : Prop where
  stored : ∀ row ∈ rows, row.crashedOn.IsStored
  nodup : (rows.map fun row => row.crashedOn.textBytes).Nodup

namespace HasDistinctStamps

variable {rows : List Row} (h : HasDistinctStamps rows) {r : DayRange}

include h

theorem textBytes_ne {a b : Row} (ha : a ∈ rows) (hb : b ∈ rows) (hne : a ≠ b) :
    a.crashedOn.textBytes ≠ b.crashedOn.textBytes :=
  fun heq => hne (List.inj_on_of_nodup_map h.nodup ha hb heq)

theorem of_perm {rows' : List Row} (hperm : rows.Perm rows') : HasDistinctStamps rows' :=
  ⟨fun row hrow => h.stored row (hperm.mem_iff.2 hrow), (hperm.map _).nodup_iff.1 h.nodup⟩

theorem before_or_before {x y : Selected} (hx : x ∈ selected now r rows)
    (hy : y ∈ selected now r rows) (hne : x.2 ≠ y.2) :
    x.2.crashedOn.before y.2.crashedOn = true ∨ y.2.crashedOn.before x.2.crashedOn = true := by
  obtain ⟨hx, hxday, -⟩ := mem_selected.1 hx
  obtain ⟨hy, hyday, -⟩ := mem_selected.1 hy
  refine Store.before_or_before (h.stored _ hx) (h.stored _ hy) hxday hyday fun heq => ?_
  exact h.textBytes_ne hx hy hne (congrArg StampCell.textBytes heq)

end HasDistinctStamps

/-! ### Permuted rows -/

section Perm

variable {rows rows' : List Row} (h : HasDistinctStamps rows) (hperm : rows.Perm rows')
  (now : Int) (r : DayRange)

include hperm

theorem selected_perm : (selected now r rows).Perm (selected now r rows') :=
  hperm.filterMap _

include h

theorem arrange_events_eq :
    arrange eventBefore ((selected now r rows).map Prod.snd) =
      arrange eventBefore ((selected now r rows').map Prod.snd) := by
  refine arrange_eq_of_perm isOrder_eventBefore ((selected_perm hperm now r).map _) ?_
  intro a ha b hb hne
  have ha := (mem_map_snd_selected.1 ha).1
  have hb := (mem_map_snd_selected.1 hb).1
  exact isTotalOrder_bytes.total (h.textBytes_ne ha hb hne)

/-- A group is the same whatever the order of its rows. -/
theorem mem_groupsOf_of_perm {g : Group} (hg : g ∈ groupsOf (selected now r rows)) :
    g ∈ groupsOf (selected now r rows') := by
  have hmembers : (members (selected now r rows) g.day g.containerId).Perm
      (members (selected now r rows') g.day g.containerId) :=
    (selected_perm hperm now r).filter _
  obtain ⟨g', hg', hday, hid⟩ : ∃ g' ∈ groupsOf (selected now r rows'),
      g'.day = g.day ∧ g'.containerId = g.containerId := by
    rw [exists_group_iff]
    intro hnil
    rw [hnil] at hmembers
    exact exists_group_iff.1 ⟨g, hg, rfl, rfl⟩ hmembers.eq_nil
  have hsize : g.size = g'.size := by
    rw [group_size hg, group_size hg', hday, hid, hmembers.length_eq]
  have hany : ∀ xs : List Selected, xs.Pairwise fun _ _ => True :=
    fun _ => List.pairwise_of_forall fun _ _ => trivial
  obtain ⟨hmem, hleast⟩ := group_first (P := fun _ _ => True) (hany _) hg
  obtain ⟨hmem', hleast'⟩ := group_first (P := fun _ _ => True) (hany _) hg'
  rw [hday, hid] at hmem' hleast'
  -- of two rows with the least time neither precedes the other
  have hfirst : g.first = g'.first := by
    by_contra hne
    have hlevel := (hleast _ (hmembers.mem_iff.2 hmem')).resolve_left (Ne.symm hne)
    have hlevel' := (hleast' _ (hmembers.mem_iff.1 hmem)).resolve_left hne
    have htotal := h.before_or_before (mem_members.1 hmem).1
      (mem_members.1 (hmembers.mem_iff.2 hmem')).1 hne
    rcases htotal with hbefore | hbefore
    · exact hlevel'.elim (isOrder_stampBefore.asymm hbefore) fun hnot => hnot.1 hbefore
    · exact hlevel.elim (isOrder_stampBefore.asymm hbefore) fun hnot => hnot.1 hbefore
  have heq : g = g' := by
    cases g
    cases g'
    simp only [Group.mk.injEq]
    exact ⟨hday.symm, hid.symm, hfirst, hsize⟩
  exact heq ▸ hg'

theorem arrange_groups_eq :
    arrange groupBefore (groupsOf (selected now r rows)) =
      arrange groupBefore (groupsOf (selected now r rows')) := by
  have hgroups : (groupsOf (selected now r rows)).Perm (groupsOf (selected now r rows')) := by
    apply (List.perm_ext_iff_of_nodup (nodup_keys_groupsOf _).of_map
      (nodup_keys_groupsOf _).of_map).2
    intro g
    exact ⟨mem_groupsOf_of_perm h hperm now r,
      mem_groupsOf_of_perm (h.of_perm hperm) hperm.symm now r⟩
  refine arrange_eq_of_perm isOrder_groupBefore hgroups fun a ha b hb hne => ?_
  unfold groupBefore
  dsimp only
  by_cases hday : toString a.day = toString b.day
  · rw [if_pos hday, if_pos hday.symm]
    by_cases hname : a.first.containerName = b.first.containerName
    · rw [if_pos hname, if_pos hname.symm]
      apply isTotalOrder_textCell.total
      exact fun hid => hne (group_unique ha hb (Ymd.toString_inj.1 hday) hid)
    · rw [if_neg hname, if_neg (Ne.symm hname)]
      exact isTotalOrder_textCell.total hname
  · rw [if_neg hday, if_neg (Ne.symm hday)]
    exact isTotalOrder_string.total hday

end Perm

/-! ### Tables with the same crashes -/

/-- Two tables hold the same crashes: the same rows, whatever their numbers. -/
def SameCrashes (t t' : Table) : Prop :=
  (t.rows.map Row.unnumbered).Perm (t'.rows.map Row.unnumbered)

instance (t t' : Table) : Decidable (SameCrashes t t') :=
  inferInstanceAs (Decidable (List.Perm _ _))

/-- The times of a table differ as texts. -/
def Table.HasDistinctTimes (t : Table) : Prop :=
  (t.rows.map fun row => row.crashedOn.textBytes).Nodup

instance (t : Table) : Decidable t.HasDistinctTimes :=
  inferInstanceAs (Decidable (List.Nodup _))

/-- Whatever was done to a store, tables with the same crashes give the same events, counts and
reports, if the times of the crashes differ as texts and the clocks show the same.  Where a fetch
fails, it fails alike. -/
theorem fetches_eq_of_perm {start : Int} {statements : List Statement} {t t' : Table}
    (ht : ((fresh start).afterAll statements).table = some t) (hcrashes : SameCrashes t t')
    (htimes : t.HasDistinctTimes) (now : Int) (r : DayRange) :
    events ⟨some t, now⟩ r = events ⟨some t', now⟩ r ∧
      counts ⟨some t, now⟩ r = counts ⟨some t', now⟩ r ∧
      (⟨some t, now⟩ : Store).source.query r = (⟨some t', now⟩ : Store).source.query r := by
  have hrows : HasDistinctStamps (t.rows.map Row.unnumbered) := by
    constructor
    · intro row hrow
      obtain ⟨row', hrow', rfl⟩ := List.mem_map.1 hrow
      exact holdsStored_afterAll start statements t ht row' hrow'
    · rw [List.map_map]
      exact htimes
  have hevents : events ⟨some t, now⟩ r = events ⟨some t', now⟩ r := by
    rw [events_eq_unnumbered, events_eq_unnumbered, arrange_events_eq hrows hcrashes]
  have hcounts : counts ⟨some t, now⟩ r = counts ⟨some t', now⟩ r := by
    rw [counts_eq_unnumbered, counts_eq_unnumbered, arrange_groups_eq hrows hcrashes]
  refine ⟨hevents, hcounts, ?_⟩
  rw [Source.query_eq, Source.query_eq]
  unfold source
  dsimp only
  rw [hevents, hcounts]

/-- A history with times of all three kinds, one of them changed later, and a row that is
refused. -/
def shuffledStatements : List Statement :=
  [.init,
    .insert ⟨.null, .text "web", .text "new", .null, .text "2024-05-01 10:00:00"⟩,
    .insert ⟨.integer 7, .null, .text "a", .text "x", .bytes (Text.utf8 "2024-05-01")⟩,
    .insert ⟨.integer 7, .text "web", .null, .null, .text "2024-05-01"⟩,
    .insert ⟨.null, .text "web", .text "old", .text "y", .text "yesterday"⟩,
    .updateTime (.integer 8) (.text " 2460431.75 ")]

/-- The table of that history. -/
def shuffledTable : Table :=
  ⟨[⟨1, .text "web", .text "new", .null, .text "2024-05-01 10:00:00"⟩,
    ⟨7, .null, .text "a", .text "x", .bytes (Text.utf8 "2024-05-01")⟩,
    ⟨8, .text "web", .text "old", .text "y", .number (.real (9841727 / 4))⟩], by simp⟩

/-- The same crashes in another order. -/
def reshuffledTable : Table :=
  ⟨[⟨-3, .null, .text "a", .text "x", .bytes (Text.utf8 "2024-05-01")⟩,
    ⟨1, .text "web", .text "old", .text "y", .number (.real (9841727 / 4))⟩,
    ⟨2, .text "web", .text "new", .null, .text "2024-05-01 10:00:00"⟩], by simp⟩

theorem fetches_eq_reshuffledTable :
    ((fresh noon).afterAll shuffledStatements).table = some shuffledTable ∧
      SameCrashes shuffledTable reshuffledTable ∧ shuffledTable.HasDistinctTimes ∧
      ∀ r, events ⟨some shuffledTable, noon⟩ r = events ⟨some reshuffledTable, noon⟩ r ∧
        counts ⟨some shuffledTable, noon⟩ r = counts ⟨some reshuffledTable, noon⟩ r ∧
        (⟨some shuffledTable, noon⟩ : Store).source.query r =
          (⟨some reshuffledTable, noon⟩ : Store).source.query r := by
  have ht : ((fresh noon).afterAll shuffledStatements).table = some shuffledTable := by
    decide +kernel
  have hcrashes : SameCrashes shuffledTable reshuffledTable := by decide +kernel
  have htimes : shuffledTable.HasDistinctTimes := by decide +kernel
  exact ⟨ht, hcrashes, htimes, fetches_eq_of_perm ht hcrashes htimes noon⟩

end CrashReports.Store
