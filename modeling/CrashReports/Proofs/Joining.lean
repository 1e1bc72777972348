import CrashReports.Proofs.Outcome

/-!
# Lists that are read in two parts

A list can be put together from two others one after the other, or in turns, so that each of
the two keeps its order (`Interleaved`).  Reading the items of the list then comes to the same
as reading those of the two parts: it succeeds if both of them do, and what is read is put
together in the same way (`joins_append`, `Interleaved.joins`).
-/

namespace CrashReports

/-- A list is made of two others in turns. -/
inductive Interleaved {α : Type} : List α → List α → List α → Prop
  | nil : Interleaved [] [] []
  | left (x : α) {xs ys zs : List α} (h : Interleaved xs ys zs) : Interleaved (x :: xs) ys (x :: zs)
  | right (y : α) {xs ys zs : List α} (h : Interleaved xs ys zs) :
      Interleaved xs (y :: ys) (y :: zs)

/-- Two attempts at lists succeed. -/
def BothSucceed {α ε : Type} (first second : Except ε (List α)) : Prop :=
  (∃ xs, first = .ok xs) ∧ ∃ ys, second = .ok ys

/-- An attempt at a whole list is the same as attempts at two parts of it: it succeeds if both
of them do, and then its items are related to theirs. -/
structure Joins {α ε : Type} (R : List α → List α → List α → Prop)
    (first second whole : Except ε (List α)) : Prop where
  ok_iff : (∃ zs, whole = .ok zs) ↔ BothSucceed first second
  items : ∀ {xs ys zs}, first = .ok xs → second = .ok ys → whole = .ok zs → R xs ys zs

variable {α β ε : Type}

namespace Interleaved

variable {xs ys zs : List α}

theorem sublist_left (h : Interleaved xs ys zs) : xs.Sublist zs := by
  induction h with
  | nil => exact .slnil
  | left x _ ih => exact ih.cons_cons x
  | right y _ ih => exact ih.cons y

theorem sublist_right (h : Interleaved xs ys zs) : ys.Sublist zs := by
  induction h with
  | nil => exact .slnil
  | left x _ ih => exact ih.cons x
  | right y _ ih => exact ih.cons_cons y

theorem length_eq (h : Interleaved xs ys zs) : zs.length = xs.length + ys.length := by
  induction h with
  | nil => rfl
  | left x _ ih => simp [ih, Nat.add_right_comm]
  | right y _ ih => simp [ih, Nat.add_assoc]

/-- The items that pass a test stand in turns with those that do not. -/
theorem filter (p : α → Bool) (xs : List α) :
    Interleaved (xs.filter p) (xs.filter fun x => !p x) xs := by
  induction xs with
  | nil => exact .nil
  | cons x xs ih =>
    cases hp : p x with
    | true => simpa [hp] using ih.left x
    | false => simpa [hp] using ih.right x

theorem mem_iff (h : Interleaved xs ys zs) {z : α} : z ∈ zs ↔ z ∈ xs ∨ z ∈ ys := by
  induction h with
  | nil => simp
  | left x _ ih => simp [ih, or_assoc]
  | right y _ ih => simp [ih, or_left_comm]

/-- What is read from the items stands in turns as they do. -/
theorem mapM (h : Interleaved xs ys zs) {f : α → Except ε β} {xs' ys' zs' : List β}
    (hx : xs.mapM f = .ok xs') (hy : ys.mapM f = .ok ys') (hz : zs.mapM f = .ok zs') :
    Interleaved xs' ys' zs' := by
  rw [mapM_eq_ok_iff] at hx hy hz
  induction h generalizing xs' ys' zs' with
  | nil =>
    cases hx
    cases hy
    cases hz
    exact .nil
  | left x _ ih =>
    obtain ⟨x', _, hxx, htail, rfl⟩ := List.forall₂_cons_left_iff.1 hx
    obtain ⟨z', _, hxz, hwhole, rfl⟩ := List.forall₂_cons_left_iff.1 hz
    obtain rfl := Except.ok.inj (hxx.symm.trans hxz)
    exact (ih htail hy hwhole).left x'
  | right y _ ih =>
    obtain ⟨y', _, hyy, htail, rfl⟩ := List.forall₂_cons_left_iff.1 hy
    obtain ⟨z', _, hyz, hwhole, rfl⟩ := List.forall₂_cons_left_iff.1 hz
    obtain rfl := Except.ok.inj (hyy.symm.trans hyz)
    exact (ih hx htail hwhole).right y'

end Interleaved

/-- A list in two parts can be read if both parts can. -/
theorem exists_mapM_iff_of_mem {f : α → Except ε β} {xs ys zs : List α}
    (h : ∀ z, z ∈ zs ↔ z ∈ xs ∨ z ∈ ys) :
    (∃ zs', zs.mapM f = .ok zs') ↔ BothSucceed (xs.mapM f) (ys.mapM f) := by
  simp only [BothSucceed, exists_mapM_eq_ok_iff, h]
  constructor
  · intro hread
    exact ⟨fun x hx => hread x (.inl hx), fun y hy => hread y (.inr hy)⟩
  · rintro ⟨hleft, hright⟩ z (hz | hz)
    · exact hleft z hz
    · exact hright z hz

theorem joins_append (f : α → Except ε β) (xs ys : List α) :
    Joins (fun xs' ys' zs' => zs' = xs' ++ ys') (xs.mapM f) (ys.mapM f) ((xs ++ ys).mapM f) where
  ok_iff := exists_mapM_iff_of_mem fun _ => List.mem_append
  items := by
    intro xs' ys' zs' hx hy hz
    rw [List.mapM_append, hx, hy] at hz
    exact (Except.ok.inj hz).symm

theorem Interleaved.joins (f : α → Except ε β) {xs ys zs : List α} (h : Interleaved xs ys zs) :
    Joins (fun xs' ys' zs' => xs'.Sublist zs' ∧ ys'.Sublist zs' ∧ Interleaved xs' ys' zs')
      (xs.mapM f) (ys.mapM f) (zs.mapM f) where
  ok_iff := exists_mapM_iff_of_mem fun _ => h.mem_iff
  items := by
    intro xs' ys' zs' hx hy hz
    have hread := h.mapM hx hy hz
    exact ⟨hread.sublist_left, hread.sublist_right, hread⟩

/-- A list is cut where a test fails for the first time, if it fails from there on. -/
theorem filter_append_filter_not {p : α → Bool} {xs : List α}
    (h : xs.Pairwise fun a b => p b = true → p a = true) :
    xs.filter p ++ xs.filter (fun x => !p x) = xs := by
  induction xs with
  | nil => rfl
  | cons x xs ih =>
    obtain ⟨hx, hxs⟩ := List.pairwise_cons.1 h
    cases hp : p x with
    | true => simp [hp, ih hxs]
    | false =>
      -- nothing after a failed test passes it
      have hnone : ∀ y ∈ xs, ¬ p y = true := by
        intro y hy hpy
        rw [hx y hy hpy] at hp
        cases hp
      have hnil : xs.filter p = [] := List.filter_eq_nil_iff.2 hnone
      have hall := ih hxs
      rw [hnil, List.nil_append] at hall
      simp [hp, hnil, hall]

/-- Two tests that no item passes both leave out an item that passes neither. -/
theorem length_filter_add_lt {p q : α → Bool} {xs : List α}
    (hpq : ∀ x ∈ xs, p x = true → ¬ q x = true) {x : α} (hx : x ∈ xs) (hp : ¬ p x = true)
    (hq : ¬ q x = true) : (xs.filter p).length + (xs.filter q).length < xs.length := by
  have hfilter : xs.filter q = (xs.filter fun x => !p x).filter q := by
    rw [List.filter_filter]
    refine List.filter_congr fun y hy => ?_
    cases hpy : p y with
    | false => simp
    | true => simpa using hpq y hy hpy
  have hmem : x ∈ xs.filter fun x => !p x := List.mem_filter.2 ⟨hx, by simpa using hp⟩
  have hlt := List.length_filter_lt_length_iff_exists.2 ⟨x, hmem, hq⟩
  rw [hfilter, (Interleaved.filter p xs).length_eq]
  omega

end CrashReports
