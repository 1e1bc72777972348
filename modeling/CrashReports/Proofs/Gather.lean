import Mathlib.Data.List.Induction
import Mathlib.Data.List.Nodup

/-!
# Collecting items by key

A list of items is read from left to right and kept as a list of entries, one for each
key.  An item whose key has an entry extends that entry; any other item starts an entry
at the end.  Transcripts, legends and groups of counted rows are all collected in this
way.

The keys of the entries are the keys of the items in the order in which they first
occur, and the entry of a key depends only on the items of that key.  So items of other
keys can be left out before or after.
-/

namespace CrashReports

/-- How items are collected: the key of an item and of an entry, the entry of a first
item, and an entry with one more item. -/
structure Gather (α β κ : Type) where
  itemKey : α → κ
  entryKey : β → κ
  start : α → β
  extend : β → α → β
  /-- The first item of an entry has its key. -/
  entryKey_start : ∀ x, entryKey (start x) = itemKey x
  /-- More items do not change the key of an entry. -/
  entryKey_extend : ∀ e x, entryKey (extend e x) = entryKey e

namespace Gather

variable {α β κ : Type} (g : Gather α β κ)

/-- The entry of the items of one key; there is none without items. -/
def entry : List α → Option β
  | [] => none
  | x :: xs => some (xs.foldl g.extend (g.start x))

theorem entry_append_singleton (xs : List α) (x : α) :
    g.entry (xs ++ [x]) = some ((g.entry xs).elim (g.start x) fun e => g.extend e x) := by
  cases xs with
  | nil => rfl
  | cons y ys => simp [entry]

variable [DecidableEq κ]

/-- Add an item to the entry of its key, or start one at the end. -/
def add (x : α) : List β → List β
  | [] => [g.start x]
  | e :: es => if g.entryKey e = g.itemKey x then g.extend e x :: es else e :: add x es

/-- The entries of a list of items. -/
def collect (xs : List α) : List β :=
  xs.foldl (fun es x => g.add x es) []

@[simp]
theorem collect_append_singleton (xs : List α) (x : α) :
    g.collect (xs ++ [x]) = g.add x (g.collect xs) := by
  simp [collect]

/-! ### Keys -/

theorem map_entryKey_add (x : α) (es : List β) :
    (g.add x es).map g.entryKey =
      if g.itemKey x ∈ es.map g.entryKey then es.map g.entryKey
      else es.map g.entryKey ++ [g.itemKey x] := by
  induction es with
  | nil => simp [add, g.entryKey_start]
  | cons e es ih =>
    unfold add
    by_cases h : g.entryKey e = g.itemKey x
    · simp [h, g.entryKey_extend]
    · rw [if_neg h, List.map_cons, ih, List.map_cons]
      have hne : ¬ g.itemKey x = g.entryKey e := fun h' => h h'.symm
      by_cases hmem : g.itemKey x ∈ es.map g.entryKey
      · rw [if_pos hmem, if_pos (List.mem_cons_of_mem _ hmem)]
      · have hmem' : g.itemKey x ∉ g.entryKey e :: es.map g.entryKey := by
          rw [List.mem_cons]
          rintro (heq | htail)
          · exact hne heq
          · exact hmem htail
        rw [if_neg hmem, if_neg hmem', List.cons_append]

/-- What occurred before leaves no trace at the end. -/
theorem eraseDups_append_of_subset {ks ls : List κ} (h : ls ⊆ ks) :
    (ks ++ ls).eraseDups = ks.eraseDups := by
  have hknown : ls.removeAll ks = [] :=
    List.filter_eq_nil_iff.2 fun l hl => by simpa using h hl
  rw [List.eraseDups_append, hknown, List.eraseDups_nil, List.append_nil]

theorem eraseDups_append_of_disjoint {ks ls : List κ} (h : ks.Disjoint ls) :
    (ks ++ ls).eraseDups = ks.eraseDups ++ ls.eraseDups := by
  have hnew : ls.removeAll ks = ls :=
    List.filter_eq_self.2 fun l hl => by simpa using fun hmem => h hmem hl
  rw [List.eraseDups_append, hnew]

theorem eraseDups_append_singleton (ks : List κ) (k : κ) :
    (ks ++ [k]).eraseDups = if k ∈ ks then ks.eraseDups else ks.eraseDups ++ [k] := by
  by_cases h : k ∈ ks
  · rw [if_pos h, eraseDups_append_of_subset (by simpa using h)]
  · rw [if_neg h, eraseDups_append_of_disjoint (List.disjoint_singleton.2 h)]
    rfl

theorem nodup_eraseDups (ks : List κ) : ks.eraseDups.Nodup := by
  induction ks using List.reverseRecOn with
  | nil => simp
  | append_singleton ks k ih =>
    rw [eraseDups_append_singleton]
    split
    case isTrue => exact ih
    case isFalse h => simpa only [List.concat_eq_append] using ih.concat (mt List.mem_eraseDups.1 h)

theorem eraseDups_of_nodup {ks : List κ} (h : ks.Nodup) : ks.eraseDups = ks := by
  induction ks using List.reverseRecOn with
  | nil => rfl
  | append_singleton ks k ih =>
    obtain ⟨hks, -, hk⟩ := List.nodup_append.1 h
    have hnew : k ∉ ks := fun hmem => hk k hmem k (List.mem_singleton_self k) rfl
    rw [eraseDups_append_singleton, if_neg hnew, ih hks]

/-- Repetitions at the end may be left out beforehand. -/
theorem eraseDups_append_eraseDups (ks ls : List κ) :
    (ks ++ ls.eraseDups).eraseDups = (ks ++ ls).eraseDups := by
  induction ls using List.reverseRecOn with
  | nil => rfl
  | append_singleton ls l ih =>
    rw [← List.append_assoc, eraseDups_append_singleton, eraseDups_append_singleton (ks ++ ls)]
    by_cases hl : l ∈ ls
    · rw [if_pos hl, if_pos (List.mem_append_right ks hl), ih]
    · rw [if_neg hl, ← List.append_assoc, eraseDups_append_singleton, ih]
      simp only [List.mem_append, List.mem_eraseDups]

/-- A list of distinct keys that is read again and again. -/
theorem eraseDups_flatMap_const {γ : Type} {xs : List γ} (hne : xs ≠ []) {ks : List κ}
    (h : ks.Nodup) : (xs.flatMap fun _ => ks).eraseDups = ks := by
  obtain ⟨x, xs, rfl⟩ := List.exists_cons_of_ne_nil hne
  have hknown : (xs.flatMap fun _ => ks) ⊆ ks := by
    intro k hk
    obtain ⟨-, -, hmem⟩ := List.mem_flatMap.1 hk
    exact hmem
  rw [List.flatMap_cons, eraseDups_append_of_subset hknown, eraseDups_of_nodup h]

/-- A list of distinct keys, each of which is read several times at once. -/
theorem eraseDups_flatMap_map_const {γ : Type} {xs : List γ} (hne : xs ≠ []) {ks : List κ}
    (h : ks.Nodup) : (ks.flatMap fun k => xs.map fun _ => k).eraseDups = ks := by
  induction ks with
  | nil => rfl
  | cons k ks ih =>
    obtain ⟨hk, hks⟩ := List.nodup_cons.1 h
    have hnew : (xs.map fun _ => k).Disjoint (ks.flatMap fun l => xs.map fun _ => l) := by
      intro l hl hl'
      obtain ⟨-, -, rfl⟩ := List.mem_map.1 hl
      obtain ⟨l', hmem, hl'⟩ := List.mem_flatMap.1 hl'
      obtain ⟨-, -, rfl⟩ := List.mem_map.1 hl'
      exact hk hmem
    have hone : (xs.map fun _ => k).eraseDups = [k] := by
      rw [List.map_eq_flatMap]
      exact eraseDups_flatMap_const hne (List.nodup_singleton k)
    rw [List.flatMap_cons, eraseDups_append_of_disjoint hnew, ih hks, hone, List.singleton_append]

omit [DecidableEq κ] in
/-- Among items of distinct keys, looking up a key finds its item. -/
theorem find?_eq_some_iff_of_nodup {f : α → κ} {xs : List α} (h : (xs.map f).Nodup)
    {p : α → Bool} {k : κ} (hp : ∀ x, p x = true ↔ f x = k) {x : α} :
    xs.find? p = some x ↔ x ∈ xs ∧ f x = k := by
  constructor
  · intro hfind
    exact ⟨List.mem_of_find?_eq_some hfind, (hp x).1 (List.find?_some hfind)⟩
  · rintro ⟨hmem, hx⟩
    obtain ⟨y, hfind⟩ : ∃ y, xs.find? p = some y := by
      rw [← Option.isSome_iff_exists, List.find?_isSome]
      exact ⟨x, hmem, (hp x).2 hx⟩
    have hy : f y = f x := ((hp y).1 (List.find?_some hfind)).trans hx.symm
    rw [hfind, List.inj_on_of_nodup_map h (List.mem_of_find?_eq_some hfind) hmem hy]

/-- The keys of a list stand in the order of their first items. -/
theorem pairwise_eraseDups_map {R : α → α → Prop} {f : α → κ} {xs : List α} (h : xs.Pairwise R) :
    (xs.map f).eraseDups.Pairwise fun k l =>
      ∀ x ∈ xs.find? (fun z => decide (f z = k)), ∀ y ∈ xs.find? (fun z => decide (f z = l)),
        R x y := by
  induction xs using List.reverseRecOn with
  | nil => simp
  | append_singleton xs z ih =>
    obtain ⟨hxs, -, hz⟩ := List.pairwise_append.1 h
    -- the first item of a key that has one is still the first when another item is added
    have hold {k : κ} (hk : k ∈ (xs.map f).eraseDups) :
        (xs ++ [z]).find? (fun y => decide (f y = k)) = xs.find? fun y => decide (f y = k) := by
      obtain ⟨x, hx, hfx⟩ := List.mem_map.1 (List.mem_eraseDups.1 hk)
      rw [List.find?_append, Option.or_of_isSome (List.find?_isSome.2 ⟨x, hx, decide_eq_true hfx⟩)]
    have hkept : (xs.map f).eraseDups.Pairwise fun k l =>
        ∀ x ∈ (xs ++ [z]).find? (fun y => decide (f y = k)),
          ∀ y ∈ (xs ++ [z]).find? (fun y => decide (f y = l)), R x y :=
      (ih hxs).imp_of_mem fun hk hl hkl => by rwa [hold hk, hold hl]
    rw [List.map_append, List.map_singleton, eraseDups_append_singleton]
    split
    case isTrue => exact hkept
    case isFalse hnew =>
      refine List.pairwise_append.2 ⟨hkept, List.pairwise_singleton _ _, fun k hk l hl x hx y hy => ?_⟩
      rw [hold hk] at hx
      have hkey : f y = f z := by
        rw [← List.mem_singleton.1 hl]
        simpa using List.find?_some hy
      have hy' : y ∈ [z] := by
        refine (List.mem_append.1 (List.mem_of_find?_eq_some hy)).resolve_left fun hmem => hnew ?_
        exact hkey ▸ List.mem_map_of_mem hmem
      exact hz x (List.mem_of_find?_eq_some hx) y hy'

theorem eraseDups_map {f : α → κ} (hf : Function.Injective f) [DecidableEq α] (xs : List α) :
    (xs.map f).eraseDups = xs.eraseDups.map f := by
  induction xs using List.reverseRecOn with
  | nil => rfl
  | append_singleton xs x ih =>
    have hmem : f x ∈ xs.map f ↔ x ∈ xs := List.mem_map_of_injective hf
    rw [List.map_append, List.map_singleton, eraseDups_append_singleton, ih,
      eraseDups_append_singleton]
    by_cases h : x ∈ xs
    · rw [if_pos h, if_pos (hmem.2 h)]
    · rw [if_neg h, if_neg (mt hmem.1 h), List.map_append, List.map_singleton]

/-- The keys of the entries are those of the items, in the order of their first items. -/
theorem map_entryKey_collect (xs : List α) :
    (g.collect xs).map g.entryKey = (xs.map g.itemKey).eraseDups := by
  -- items are added at the end, so the induction is on the last item
  induction xs using List.reverseRecOn with
  | nil => rfl
  | append_singleton xs x ih =>
    rw [collect_append_singleton, map_entryKey_add, ih, List.map_append, List.map_singleton,
      eraseDups_append_singleton]
    simp only [List.mem_eraseDups]

theorem nodup_map_entryKey_collect (xs : List α) : ((g.collect xs).map g.entryKey).Nodup := by
  rw [map_entryKey_collect]
  exact nodup_eraseDups _

theorem mem_map_entryKey_collect {xs : List α} {k : κ} :
    k ∈ (g.collect xs).map g.entryKey ↔ ∃ x ∈ xs, g.itemKey x = k := by
  rw [map_entryKey_collect, List.mem_eraseDups, List.mem_map]

/-! ### Entries -/

theorem find?_add (x : α) (es : List β) (k : κ) :
    (g.add x es).find? (fun e => decide (g.entryKey e = k)) =
      if g.itemKey x = k then
        some ((es.find? fun e => decide (g.entryKey e = k)).elim (g.start x) fun e => g.extend e x)
      else es.find? fun e => decide (g.entryKey e = k) := by
  induction es with
  | nil => by_cases h : g.itemKey x = k <;> simp [add, h, g.entryKey_start]
  | cons e es ih =>
    unfold add
    by_cases he : g.entryKey e = g.itemKey x
    · by_cases hk : g.itemKey x = k
      · simp [he, hk, g.entryKey_extend]
      · simp [he, hk, g.entryKey_extend]
    · rw [if_neg he, List.find?_cons, ih, List.find?_cons]
      by_cases hk : g.entryKey e = k
      · have hx : ¬ g.itemKey x = k := fun h => he (hk.trans h.symm)
        simp [hk, hx]
      · simp [hk]

/-- The entry of a key is made of the items of that key. -/
theorem find?_collect (xs : List α) (k : κ) :
    (g.collect xs).find? (fun e => decide (g.entryKey e = k)) =
      g.entry (xs.filter fun x => decide (g.itemKey x = k)) := by
  induction xs using List.reverseRecOn with
  | nil => rfl
  | append_singleton xs x ih =>
    rw [collect_append_singleton, find?_add, ih, List.filter_append]
    by_cases h : g.itemKey x = k
    · simp [h, entry_append_singleton]
    · simp [h]

theorem entry_of_mem_collect {xs : List α} {e : β} (h : e ∈ g.collect xs) :
    g.entry (xs.filter fun x => decide (g.itemKey x = g.entryKey e)) = some e := by
  have hnodup := g.nodup_map_entryKey_collect xs
  rw [← find?_collect, find?_eq_some_iff_of_nodup hnodup fun _ => decide_eq_true_iff]
  exact ⟨h, rfl⟩

/-- The entries stand in the order in which their keys first occur. -/
theorem collect_eq_filterMap (xs : List α) :
    g.collect xs = (xs.map g.itemKey).eraseDups.filterMap fun k =>
      g.entry (xs.filter fun x => decide (g.itemKey x = k)) := by
  rw [← map_entryKey_collect, List.filterMap_map]
  -- every entry is found again from its own key
  have hentries : ∀ es : List β, (∀ e ∈ es, e ∈ g.collect xs) →
      es.filterMap ((fun k => g.entry (xs.filter fun x => decide (g.itemKey x = k))) ∘ g.entryKey) =
        es := by
    intro es
    induction es with
    | nil => exact fun _ => rfl
    | cons e es ih =>
      intro hmem
      have hhead := g.entry_of_mem_collect (hmem e List.mem_cons_self)
      rw [List.filterMap_cons, Function.comp_apply, hhead]
      dsimp only
      rw [ih fun e he => hmem e (List.mem_cons_of_mem _ he)]
  exact (hentries _ fun _ he => he).symm

/-- Lists that have the same items of each key have the same entries, perhaps in another
order. -/
theorem collect_perm {xs ys : List α} (h : ∀ k, xs.filter (fun x => decide (g.itemKey x = k)) =
    ys.filter fun x => decide (g.itemKey x = k)) : (g.collect xs).Perm (g.collect ys) := by
  have hmem : ∀ (zs : List α) (k : κ), k ∈ (zs.map g.itemKey).eraseDups ↔
      zs.filter (fun x => decide (g.itemKey x = k)) ≠ [] := by
    intro zs k
    simp [List.filter_eq_nil_iff]
  have hkeys : (xs.map g.itemKey).eraseDups.Perm (ys.map g.itemKey).eraseDups :=
    (List.perm_ext_iff_of_nodup (nodup_eraseDups _) (nodup_eraseDups _)).2 fun k => by
      rw [hmem, hmem, h]
  rw [collect_eq_filterMap, collect_eq_filterMap]
  simp only [h]
  exact hkeys.filterMap _

/-! ### Items of some keys only -/

theorem add_cons (x : α) (e : β) (es : List β) :
    g.add x (e :: es) =
      if g.entryKey e = g.itemKey x then g.extend e x :: es else e :: g.add x es :=
  rfl

theorem filter_add (p : κ → Bool) (x : α) (es : List β) :
    (g.add x es).filter (fun e => p (g.entryKey e)) =
      if p (g.itemKey x) then g.add x (es.filter fun e => p (g.entryKey e))
      else es.filter fun e => p (g.entryKey e) := by
  induction es with
  | nil => cases hp : p (g.itemKey x) <;> simp [add, g.entryKey_start, hp]
  | cons e es ih =>
    rw [add_cons]
    by_cases hkey : g.entryKey e = g.itemKey x
    · rw [if_pos hkey, List.filter_cons, List.filter_cons, g.entryKey_extend, hkey]
      cases hp : p (g.itemKey x) <;> simp [add_cons, hkey]
    · rw [if_neg hkey, List.filter_cons, List.filter_cons, ih]
      cases hpe : p (g.entryKey e) <;> cases hp : p (g.itemKey x) <;> simp [add_cons, hkey]

/-- Items of other keys may be left out before or after collecting. -/
theorem filter_collect (p : κ → Bool) (xs : List α) :
    (g.collect xs).filter (fun e => p (g.entryKey e)) =
      g.collect (xs.filter fun x => p (g.itemKey x)) := by
  induction xs using List.reverseRecOn with
  | nil => rfl
  | append_singleton xs x ih =>
    rw [collect_append_singleton, filter_add, ih, List.filter_append]
    cases hp : p (g.itemKey x) <;> simp [hp]

end Gather

end CrashReports
