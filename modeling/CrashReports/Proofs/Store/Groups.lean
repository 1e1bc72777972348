import CrashReports.Proofs.Gather
import CrashReports.Proofs.Store.Arrange
import Mathlib.Algebra.Order.Ring.Rat

/-!
# Groups of counted rows

The rows that are counted are collected by day and container, where a missing container
is one of its own.  A group knows how many rows it has and which of them has the least
time; of several rows with that time it is the one that comes first.
-/

namespace CrashReports.Store

/-- How selected rows are grouped. -/
def groupGather : Gather Selected Group (Ymd × TextCell) where
  itemKey x := (x.1, x.2.containerId)
  entryKey g := (g.day, g.containerId)
  start x := ⟨x.1, x.2.containerId, x.2, 1⟩
  extend g x := g.add x.2
  entryKey_start _ := rfl
  entryKey_extend _ _ := rfl

theorem addToGroups_eq_add (gs : List Group) (x : Selected) :
    addToGroups gs x = groupGather.add x gs := by
  induction gs with
  | nil => rfl
  | cons g gs ih =>
    have hcons : groupGather.add x (g :: gs) =
        if (g.day, g.containerId) = (x.1, x.2.containerId) then g.add x.2 :: gs
        else g :: groupGather.add x gs := rfl
    rw [addToGroups, hcons, ih]
    simp only [Prod.mk.injEq]

theorem groupsOf_eq_collect (xs : List Selected) : groupsOf xs = groupGather.collect xs := by
  unfold groupsOf Gather.collect
  congr 1
  funext gs x
  exact addToGroups_eq_add gs x

/-- The rows of one day and container. -/
def members (xs : List Selected) (y : Ymd) (c : TextCell) : List Selected :=
  xs.filter fun x => decide (x.1 = y) && decide (x.2.containerId = c)

@[simp]
theorem mem_members {xs : List Selected} {y : Ymd} {c : TextCell} {x : Selected} :
    x ∈ members xs y c ↔ x ∈ xs ∧ x.1 = y ∧ x.2.containerId = c := by
  simp [members, List.mem_filter]

theorem exists_group_iff {xs : List Selected} {y : Ymd} {c : TextCell} :
    (∃ g ∈ groupsOf xs, g.day = y ∧ g.containerId = c) ↔ members xs y c ≠ [] := by
  have hmem := @Gather.mem_map_entryKey_collect _ _ _ groupGather _ xs (y, c)
  rw [← groupsOf_eq_collect, List.mem_map] at hmem
  have hgroup : (∃ g ∈ groupsOf xs, groupGather.entryKey g = (y, c)) ↔
      ∃ g ∈ groupsOf xs, g.day = y ∧ g.containerId = c := by
    simp only [groupGather, Prod.mk.injEq]
  have hitem : (∃ x ∈ xs, groupGather.itemKey x = (y, c)) ↔ ∃ x, x ∈ members xs y c := by
    simp only [groupGather, Prod.mk.injEq, mem_members]
  rw [← hgroup, hmem, hitem]
  exact ⟨fun ⟨x, hx⟩ => List.ne_nil_of_mem hx, List.exists_mem_of_ne_nil _⟩

theorem nodup_keys_groupsOf (xs : List Selected) :
    ((groupsOf xs).map groupGather.entryKey).Nodup :=
  groupsOf_eq_collect xs ▸ groupGather.nodup_map_entryKey_collect xs

/-- There is one group for a day and a container at most. -/
theorem group_unique {xs : List Selected} {g g' : Group} (hg : g ∈ groupsOf xs)
    (hg' : g' ∈ groupsOf xs) (hday : g.day = g'.day) (hid : g.containerId = g'.containerId) :
    g = g' :=
  List.inj_on_of_nodup_map (nodup_keys_groupsOf xs) hg hg' (Prod.ext hday hid)

/-- A group is made of the rows of its day and container. -/
theorem entry_members {xs : List Selected} {g : Group} (hg : g ∈ groupsOf xs) :
    groupGather.entry (members xs g.day g.containerId) = some g := by
  rw [groupsOf_eq_collect] at hg
  have hentry := groupGather.entry_of_mem_collect hg
  have hfilter : (fun x => decide (groupGather.itemKey x = groupGather.entryKey g)) =
      fun x : Selected => decide (x.1 = g.day) && decide (x.2.containerId = g.containerId) := by
    funext x
    simp [groupGather]
  rwa [hfilter] at hentry

/-! ### Sizes -/

theorem size_of_entry {xs : List Selected} {g : Group} (h : groupGather.entry xs = some g) :
    g.size = xs.length := by
  induction xs using List.reverseRecOn generalizing g with
  | nil => cases h
  | append_singleton xs x ih =>
    rw [Gather.entry_append_singleton] at h
    obtain rfl := Option.some.inj h
    rw [List.length_append, List.length_singleton]
    cases hentry : groupGather.entry xs with
    | none =>
      cases xs with
      | nil => rfl
      | cons y ys => cases hentry
    | some g' =>
      rw [← ih hentry]
      rfl

theorem group_size {xs : List Selected} {g : Group} (hg : g ∈ groupsOf xs) :
    g.size = (members xs g.day g.containerId).length :=
  size_of_entry (entry_members hg)

theorem group_size_pos {xs : List Selected} {g : Group} (hg : g ∈ groupsOf xs) : 0 < g.size := by
  rw [group_size hg]
  exact List.length_pos_iff.2 (exists_group_iff.1 ⟨g, hg, rfl, rfl⟩)

/-! ### First rows -/

theorem isTotalOrder_rat : IsTotalOrder fun a b : Rat => decide (a < b) :=
  isTotalOrder_lt lt_asymm lt_trans lt_or_gt_of_ne

theorem isOrder_stampBefore : IsOrder StampCell.before := by
  have hcontent : IsOrder fun a b : StampCell => decide (a.content < b.content) :=
    ⟨isTotalOrder_bytes.asymm, fun b => isTotalOrder_bytes.between b.content⟩
  have hvalue := hcontent.lex isTotalOrder_rat StampCell.value
  exact hvalue.lex isTotalOrder_nat StampCell.kind

/-- A row comes before another one by its time, or if the times are level by `P`. -/
def StampFirst (P : Row → Row → Prop) (a b : Row) : Prop :=
  a.crashedOn.before b.crashedOn = true ∨ ¬ b.crashedOn.before a.crashedOn = true ∧ P a b

theorem first_of_entry {P : Row → Row → Prop} {xs : List Selected} {g : Group}
    (hxs : xs.Pairwise fun a b => P a.2 b.2) (h : groupGather.entry xs = some g) :
    g.first ∈ xs.map Prod.snd ∧ ∀ x ∈ xs, x.2 = g.first ∨ StampFirst P g.first x.2 := by
  induction xs using List.reverseRecOn generalizing g with
  | nil => cases h
  | append_singleton xs x ih =>
    obtain ⟨hxs, -, hx⟩ := List.pairwise_append.1 hxs
    rw [Gather.entry_append_singleton] at h
    obtain rfl := Option.some.inj h
    cases hentry : groupGather.entry xs with
    | none =>
      cases xs with
      | nil => simp [groupGather]
      | cons y ys => cases hentry
    | some e =>
      obtain ⟨hmem, hfirst⟩ := ih hxs hentry
      have hadd : (groupGather.extend e x).first =
          if x.2.crashedOn.before e.first.crashedOn then x.2 else e.first := rfl
      rw [Option.elim_some, hadd]
      by_cases hbefore : x.2.crashedOn.before e.first.crashedOn = true
      -- a new first row has a lesser time than the old one, and so than all others
      · rw [if_pos hbefore]
        refine ⟨by simp, fun z hz => ?_⟩
        rcases List.mem_append.1 hz with hz | hz
        · right
          obtain heq | hlt | ⟨hlevel, -⟩ := hfirst z hz
          · exact .inl (heq ▸ hbefore)
          · obtain hxz | hzx := isOrder_stampBefore.between z.2.crashedOn hbefore
            · exact .inl hxz
            · exact absurd hzx (isOrder_stampBefore.asymm hlt)
          · obtain hxz | hzx := isOrder_stampBefore.between z.2.crashedOn hbefore
            · exact .inl hxz
            · exact absurd hzx hlevel
        · exact .inl (by rw [List.mem_singleton.1 hz])
      -- a row that is level with the first one comes after it
      · rw [if_neg hbefore]
        refine ⟨by simp only [List.map_append, List.mem_append]; exact .inl hmem, fun z hz => ?_⟩
        rcases List.mem_append.1 hz with hz | hz
        · exact hfirst z hz
        · obtain ⟨y, hy, hfst⟩ := List.mem_map.1 hmem
          right
          rw [List.mem_singleton.1 hz]
          exact .inr ⟨hbefore, hfst ▸ hx y hy x (by simp)⟩

/-- The row of a group with the least time, and of those the first one. -/
theorem group_first {P : Row → Row → Prop} {xs : List Selected} {g : Group}
    (hxs : xs.Pairwise fun a b => P a.2 b.2) (hg : g ∈ groupsOf xs) :
    (g.day, g.first) ∈ members xs g.day g.containerId ∧
      ∀ x ∈ members xs g.day g.containerId, x.2 = g.first ∨ StampFirst P g.first x.2 := by
  obtain ⟨hmem, hfirst⟩ := first_of_entry (hxs.filter _) (entry_members hg)
  obtain ⟨x, hx, heq⟩ := List.mem_map.1 hmem
  have hday : x.1 = g.day := (mem_members.1 hx).2.1
  have hpair : x = (g.day, g.first) := Prod.ext hday heq
  exact ⟨hpair ▸ hx, hfirst⟩

end CrashReports.Store
