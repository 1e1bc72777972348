import CrashReports.Proofs.Text.Utf8
import CrashReports.Store.Fetch
import Mathlib.Data.List.Induction
import Mathlib.Data.List.Pairwise

/-!
# Arranged lists

Putting each item before the first one that it must precede sorts a list, and items of
which neither precedes the other keep their order.  This holds for every strict order in
which an item between two others is comparable with one of them.  Leaving out some of the
items changes nothing about the order of the others (`filter_arrange`), and if no two of them
are level it does not matter in which order they come (`arrange_eq_of_perm`).

The two orders of the store are of this kind: rows by the bytes of their time, and groups
by the text of the day, then the name, and then the container.
-/

namespace CrashReports.Store

/-- A strict order, in which no item precedes what precedes it and every item stands on
one side of two ordered ones. -/
structure IsOrder {α : Type} (before : α → α → Bool) : Prop where
  asymm : ∀ {a b}, before a b = true → ¬ before b a = true
  between : ∀ {a c} (b), before a c = true → before a b = true ∨ before b c = true

section Arrange

variable {α : Type} {before : α → α → Bool}

theorem place_perm (x : α) (ys : List α) : (place before x ys).Perm (x :: ys) := by
  induction ys with
  | nil => exact .refl _
  | cons y ys ih =>
    unfold place
    split
    · exact .refl _
    · exact (ih.cons y).trans (.swap x y ys)

theorem foldl_place_perm (xs acc : List α) :
    (xs.foldl (fun sorted x => place before x sorted) acc).Perm (xs ++ acc) := by
  induction xs generalizing acc with
  | nil => exact .refl _
  | cons x xs ih =>
    refine (ih _).trans ?_
    exact ((place_perm x acc).append_left xs).trans List.perm_middle

theorem arrange_perm (xs : List α) : (arrange before xs).Perm xs := by
  simpa [arrange] using @foldl_place_perm α before xs []

@[simp]
theorem mem_arrange {xs : List α} {x : α} : x ∈ arrange before xs ↔ x ∈ xs :=
  (arrange_perm xs).mem_iff

theorem arrange_append_singleton (xs : List α) (x : α) :
    arrange before (xs ++ [x]) = place before x (arrange before xs) := by
  simp [arrange]

variable {P : α → α → Prop}

/-- An item that comes after all others in `P` is placed after those it is level with. -/
theorem place_pairwise (ho : IsOrder before) {x : α} {ys : List α} (hx : ∀ y ∈ ys, P y x)
    (hys : ys.Pairwise fun a b => before a b = true ∨ ¬ before b a = true ∧ P a b) :
    (place before x ys).Pairwise fun a b => before a b = true ∨ ¬ before b a = true ∧ P a b := by
  induction ys with
  | nil => simp [place]
  | cons y ys ih =>
    obtain ⟨hy, hys⟩ := List.pairwise_cons.1 hys
    unfold place
    split
    case isTrue hxy =>
      -- what comes after `y` cannot precede it, so it does not stand between `x` and `y`
      refine List.pairwise_cons.2 ⟨fun z hz => ?_, List.pairwise_cons.2 ⟨hy, hys⟩⟩
      rcases List.mem_cons.1 hz with rfl | hz
      · exact .inl hxy
      · obtain hxz | hzy := ho.between z hxy
        · exact .inl hxz
        · obtain hyz | ⟨hzy', -⟩ := hy z hz
          · exact absurd hzy (ho.asymm hyz)
          · exact absurd hzy hzy'
    case isFalse hxy =>
      refine List.pairwise_cons.2 ⟨fun z hz => ?_, ih (fun z hz => hx z (by simp [hz])) hys⟩
      rcases List.mem_cons.1 ((place_perm x ys).mem_iff.1 hz) with rfl | hz
      · exact .inr ⟨hxy, hx y (by simp)⟩
      · exact hy z hz

/-- Arranging sorts, and keeps the order of items of which neither precedes the other. -/
theorem arrange_pairwise (ho : IsOrder before) {xs : List α} (hxs : xs.Pairwise P) :
    (arrange before xs).Pairwise fun a b => before a b = true ∨ ¬ before b a = true ∧ P a b := by
  induction xs using List.reverseRecOn with
  | nil => exact .nil
  | append_singleton xs x ih =>
    obtain ⟨hxs, -, hx⟩ := List.pairwise_append.1 hxs
    rw [arrange_append_singleton]
    exact place_pairwise ho (fun y hy => hx y (mem_arrange.1 hy) x (by simp)) (ih hxs)

theorem arrange_sorted (ho : IsOrder before) (xs : List α) :
    (arrange before xs).Pairwise fun a b => ¬ before b a = true := by
  have hxs : xs.Pairwise fun _ _ => True := List.pairwise_of_forall fun _ _ => trivial
  exact (arrange_pairwise ho hxs).imp fun h => h.elim ho.asymm And.left

/-- A relation between level items holds throughout a sorted list exactly if it holds wherever
the order decides. -/
theorem pairwise_iff_of_sorted (ho : IsOrder before) {R : α → α → Prop}
    (hlevel : ∀ a b, ¬ before a b = true → ¬ before b a = true → R a b)
    {xs : List α} (hxs : xs.Pairwise fun a b => ¬ before b a = true) :
    xs.Pairwise R ↔ ∀ a ∈ xs, ∀ b ∈ xs, before a b = true → R a b := by
  constructor
  · intro h
    -- whichever of the two comes first, it is the order that says so
    have hboth : xs.Pairwise fun a b =>
        (before a b = true → R a b) ∧ (before b a = true → R b a) :=
      (hxs.and h).imp fun h => ⟨fun _ => h.2, fun hba => absurd hba h.1⟩
    have hsymm : Std.Symm fun a b : α =>
        (before a b = true → R a b) ∧ (before b a = true → R b a) :=
      ⟨fun _ _ h => ⟨h.2, h.1⟩⟩
    have hself : ∀ a ∈ xs, (before a a = true → R a a) ∧ (before a a = true → R a a) :=
      fun a _ => ⟨fun haa => absurd haa (ho.asymm haa), fun haa => absurd haa (ho.asymm haa)⟩
    exact fun a ha b hb => (hboth.forall_of_forall hself ha hb).1
  · intro h
    refine hxs.imp_of_mem fun {a b} ha hb hnot => ?_
    by_cases hab : before a b = true
    · exact h a ha b hb hab
    · exact hlevel a b hab hnot

theorem place_cons (x y : α) (ys : List α) :
    place before x (y :: ys) = if before x y then x :: y :: ys else y :: place before x ys :=
  rfl

/-- Where an item is placed does not depend on the items of a sorted list that are left out. -/
theorem filter_place (ho : IsOrder before) (p : α → Bool) (x : α) {ys : List α}
    (hys : ys.Pairwise fun a b => ¬ before b a = true) :
    (place before x ys).filter p = if p x then place before x (ys.filter p) else ys.filter p := by
  induction ys with
  | nil => cases hp : p x <;> simp [place, hp]
  | cons y ys ih =>
    obtain ⟨hy, hys⟩ := List.pairwise_cons.1 hys
    rw [place_cons]
    by_cases hxy : before x y = true
    -- the item precedes all of a sorted list that it precedes the first item of
    · have hfirst : ∀ zs : List α, (∀ z ∈ zs, z ∈ y :: ys) → place before x zs = x :: zs := by
        intro zs hzs
        cases zs with
        | nil => rfl
        | cons z zs =>
          have hxz : before x z = true := by
            rcases List.mem_cons.1 (hzs z List.mem_cons_self) with rfl | hz
            · exact hxy
            · exact (ho.between z hxy).resolve_right (hy z hz)
          exact if_pos hxz
      rw [if_pos hxy, List.filter_cons, hfirst _ fun z hz => (List.mem_filter.1 hz).1]
    · rw [if_neg hxy, List.filter_cons, ih hys, List.filter_cons]
      cases hpy : p y <;> cases hpx : p x <;> simp [place_cons, hxy]

/-- Items may be left out before or after arranging. -/
theorem filter_arrange (ho : IsOrder before) (p : α → Bool) (xs : List α) :
    (arrange before xs).filter p = arrange before (xs.filter p) := by
  induction xs using List.reverseRecOn with
  | nil => rfl
  | append_singleton xs x ih =>
    rw [arrange_append_singleton, filter_place ho p x (arrange_sorted ho xs), ih,
      List.filter_append]
    cases hp : p x with
    | true => simp [hp, arrange_append_singleton]
    | false => simp [hp]

theorem map_place {β : Type} {before' : β → β → Bool} {f : α → β}
    (hf : ∀ a b, before' (f a) (f b) = before a b) (x : α) (ys : List α) :
    (place before x ys).map f = place before' (f x) (ys.map f) := by
  induction ys with
  | nil => rfl
  | cons y ys ih =>
    rw [List.map_cons, place_cons, place_cons, hf, ← List.map_cons, ← ih]
    split <;> rfl

/-- Items may be changed before or after arranging, if their order stays the same. -/
theorem map_arrange {β : Type} {before' : β → β → Bool} {f : α → β}
    (hf : ∀ a b, before' (f a) (f b) = before a b) (xs : List α) :
    (arrange before xs).map f = arrange before' (xs.map f) := by
  induction xs using List.reverseRecOn with
  | nil => rfl
  | append_singleton xs x ih =>
    rw [arrange_append_singleton, map_place hf, ih, List.map_append, List.map_singleton,
      arrange_append_singleton]

/-- Without items that are level, the order in which they come does not matter. -/
theorem arrange_eq_of_perm (ho : IsOrder before) {xs ys : List α} (h : xs.Perm ys)
    (htotal : ∀ a ∈ xs, ∀ b ∈ xs, a ≠ b → before a b = true ∨ before b a = true) :
    arrange before xs = arrange before ys := by
  have hperm : (arrange before xs).Perm (arrange before ys) :=
    (arrange_perm xs).trans (h.trans (arrange_perm ys).symm)
  refine hperm.eq_of_pairwise (fun a b ha hb hab hba => ?_) (arrange_sorted ho xs)
    (arrange_sorted ho ys)
  by_contra hne
  have ha := mem_arrange.1 ha
  have hb := h.mem_iff.2 (mem_arrange.1 hb)
  exact (htotal a ha b hb hne).elim hba hab

/-- The first item of its kind in a sorted list is the one that precedes the others. -/
theorem find?_eq_some_of_pairwise {R : α → α → Prop} {p : α → Bool} {xs : List α} {x : α}
    (hxs : xs.Pairwise R) (hx : x ∈ xs) (hp : p x = true)
    (hfirst : ∀ y ∈ xs, p y = true → y ≠ x → ¬ R y x) : xs.find? p = some x := by
  induction xs with
  | nil => cases hx
  | cons y ys ih =>
    obtain ⟨hy, hys⟩ := List.pairwise_cons.1 hxs
    rw [List.find?_cons]
    by_cases hxy : y = x
    · rw [hxy, hp]
    · have hmem : x ∈ ys := (List.mem_cons.1 hx).resolve_left fun h => hxy h.symm
      cases hpy : p y with
      | true => exact absurd (hy x hmem) (hfirst y (by simp) hpy hxy)
      | false => exact ih hys hmem fun z hz => hfirst z (by simp [hz])

end Arrange

/-! ### The orders of the store -/

section Orders

variable {α β : Type}

/-- An order in which different items are never level. -/
structure IsTotalOrder (before : α → α → Bool) : Prop extends IsOrder before where
  total : ∀ {a b}, a ≠ b → before a b = true ∨ before b a = true

theorem IsTotalOrder.eq_of_level {before : α → α → Bool} (ho : IsTotalOrder before) {a b : α}
    (hab : ¬ before a b = true) (hba : ¬ before b a = true) : a = b := by
  by_contra hne
  exact (ho.total hne).elim hab hba

/-- Items that are level are so in the part that is compared first, and in the rest. -/
theorem IsTotalOrder.level_of_lex {outer : β → β → Bool} (inner : α → α → Bool) [DecidableEq β]
    (ho : IsTotalOrder outer) (f : α → β) {a b : α}
    (hab : ¬ (if f a = f b then inner a b else outer (f a) (f b)) = true)
    (hba : ¬ (if f b = f a then inner b a else outer (f b) (f a)) = true) :
    f a = f b ∧ ¬ inner a b = true ∧ ¬ inner b a = true := by
  have hsame : f a = f b := by
    by_contra hne
    rw [if_neg hne] at hab
    rw [if_neg (Ne.symm hne)] at hba
    exact hne (ho.eq_of_level hab hba)
  rw [if_pos hsame] at hab
  rw [if_pos hsame.symm] at hba
  exact ⟨hsame, hab, hba⟩

/-- Items are compared by a part of them, and only where it is the same by the rest. -/
theorem IsOrder.lex {outer : β → β → Bool} {inner : α → α → Bool} [DecidableEq β]
    (ho : IsTotalOrder outer) (hi : IsOrder inner) (f : α → β) :
    IsOrder fun a b => if f a = f b then inner a b else outer (f a) (f b) where
  asymm := by
    intro a b hab hba
    by_cases h : f a = f b
    · rw [if_pos h] at hab
      rw [if_pos h.symm] at hba
      exact hi.asymm hab hba
    · rw [if_neg h] at hab
      rw [if_neg fun h' => h h'.symm] at hba
      exact ho.asymm hab hba
  between := by
    intro a c b hac
    -- the inner order decides only if all three parts are the same
    by_cases hab : f a = f b
    · by_cases hbc : f b = f c
      · rw [if_pos (hab.trans hbc)] at hac
        rw [if_pos hab, if_pos hbc]
        exact hi.between b hac
      · rw [if_neg fun h => hbc (hab.symm.trans h), hab] at hac
        exact .inr (by rwa [if_neg hbc])
    · by_cases hbc : f b = f c
      · rw [if_neg fun h => hab (h.trans hbc.symm), ← hbc] at hac
        exact .inl (by rwa [if_neg hab])
      · rw [if_neg hab, if_neg hbc]
        by_cases hac' : f a = f c
        · rw [hac'] at hab ⊢
          exact ho.total hab
        · rw [if_neg hac'] at hac
          exact ho.between (f b) hac

theorem isTotalOrder_lt [LT α] [DecidableLT α] (hasymm : ∀ {a b : α}, a < b → ¬ b < a)
    (htrans : ∀ {a b c : α}, a < b → b < c → a < c) (htotal : ∀ {a b : α}, a ≠ b → a < b ∨ b < a) :
    IsTotalOrder fun a b : α => decide (a < b) where
  asymm := by
    intro a b hab hba
    exact hasymm (of_decide_eq_true hab) (of_decide_eq_true hba)
  between := by
    intro a c b hac
    have hac := of_decide_eq_true hac
    by_cases hab : a = b
    · exact .inr (decide_eq_true (hab ▸ hac))
    · obtain hlt | hgt := htotal hab
      · exact .inl (decide_eq_true hlt)
      · exact .inr (decide_eq_true (htrans hgt hac))
  total := by
    intro a b h
    simpa using htotal h

end Orders

theorem isTotalOrder_string : IsTotalOrder fun a b : String => decide (a < b) :=
  isTotalOrder_lt String.lt_asymm String.lt_trans fun h =>
    (String.le_total _ _).imp (fun hle => String.not_le.1 fun hge => h (String.le_antisymm hle hge))
      fun hge => String.not_le.1 fun hle => h (String.le_antisymm hle hge)

theorem isTotalOrder_bytes : IsTotalOrder fun a b : List UInt8 => decide (a < b) :=
  isTotalOrder_lt List.lt_asymm List.lt_trans fun {a b} h =>
    (List.le_total a b).imp (fun hle => List.not_le.1 fun hge => h (List.le_antisymm hle hge))
      fun hge => List.not_le.1 fun hle => h (List.le_antisymm hle hge)

theorem isTotalOrder_nat : IsTotalOrder fun a b : Nat => decide (a < b) :=
  isTotalOrder_lt Nat.lt_asymm Nat.lt_trans Nat.lt_or_gt_of_ne

/-- A text that is no UTF-8 has not the bytes of any text that is. -/
theorem utf8_ne_bytes (s : String) (t : Text.BrokenText) : Text.utf8 s ≠ t.bytes := by
  intro h
  have hnone := Text.utf8Fault?_utf8 s.toList 0
  have hsome := t.isBroken
  rw [← h] at hsome
  rw [String.ofList_toList] at hnone
  simp [hnone] at hsome

/-- The bytes of a column and what kind of value they are leave nothing open. -/
theorem TextCell.ext_content {a b : TextCell} (hkind : a.kind = b.kind)
    (hcontent : a.content = b.content) : a = b := by
  cases a <;> cases b <;> try cases hkind
  case null.null => rfl
  case text.text s t => exact congrArg text (Text.utf8_inj.1 hcontent)
  case text.broken s t => exact absurd hcontent (utf8_ne_bytes s t)
  case broken.text t s => exact absurd hcontent.symm (utf8_ne_bytes s t)
  case broken.broken s t => exact congrArg broken (Text.BrokenText.ext hcontent)
  case bytes.bytes s t => exact congrArg bytes hcontent

/-- Level columns are the same. -/
theorem isTotalOrder_textCell : IsTotalOrder TextCell.before := by
  have hcontent : IsOrder fun a b : TextCell => decide (a.content < b.content) :=
    ⟨isTotalOrder_bytes.asymm, fun b => isTotalOrder_bytes.between b.content⟩
  refine ⟨hcontent.lex isTotalOrder_nat TextCell.kind, fun {a b} hne => ?_⟩
  unfold TextCell.before
  by_cases hkind : a.kind = b.kind
  · rw [if_pos hkind, if_pos hkind.symm]
    exact isTotalOrder_bytes.total fun hcontent => hne (TextCell.ext_content hkind hcontent)
  · rw [if_neg hkind, if_neg (Ne.symm hkind)]
    exact isTotalOrder_nat.total hkind

theorem isOrder_eventBefore : IsOrder eventBefore where
  asymm := isTotalOrder_bytes.asymm
  between b h := isTotalOrder_bytes.between b.crashedOn.textBytes h

/-- Groups of one day come before those of a day with a later text. -/
theorem groupBefore_of_day_lt {g g' : Group} (h : toString g.day < toString g'.day) :
    groupBefore g g' = true := by
  unfold groupBefore
  dsimp only
  rw [if_neg fun heq => String.lt_irrefl _ (heq ▸ h), decide_eq_true_iff]
  exact h

theorem isOrder_groupBefore : IsOrder groupBefore := by
  have hcontainer : IsOrder fun a b : Group => a.containerId.before b.containerId :=
    ⟨isTotalOrder_textCell.asymm, fun b => isTotalOrder_textCell.between b.containerId⟩
  have hname := hcontainer.lex isTotalOrder_textCell fun g : Group => g.first.containerName
  exact hname.lex isTotalOrder_string fun g : Group => toString g.day

end CrashReports.Store
