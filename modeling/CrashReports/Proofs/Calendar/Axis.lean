import CrashReports.Calendar.Axis
import CrashReports.Proofs.Calendar.Day
import Mathlib.Data.List.Induction
import Mathlib.Data.List.Nodup

/-!
# Axes are ascending, and halving finds their days

An axis holds the days of a list in strictly ascending order.  On such a list the search
by halving gives the index of a day exactly if the day is there: `Axis.search_eq_some_iff`.
-/

namespace CrashReports

namespace Day

theorem lt_irrefl (d : Day) : ¬ d < d := by
  rw [lt_def]
  omega

theorem lt_trans {a b c : Day} (h : a < b) (h' : b < c) : a < c := by
  rw [lt_def] at *
  omega

theorem lt_asymm {a b : Day} (h : a < b) : ¬ b < a := by
  rw [lt_def] at *
  omega

theorem lt_or_lt_of_ne {a b : Day} (h : a ≠ b) : a < b ∨ b < a := by
  have hne := mt rank_inj.1 h
  rw [lt_def, lt_def]
  omega

end Day

namespace Axis

/-- Days in strictly ascending order. -/
def Ascending (axis : List Day) : Prop :=
  axis.Pairwise fun a b => a < b

theorem Ascending.insert {d : Day} {axis : List Day} (h : Ascending axis) :
    Ascending (Axis.insert d axis) := by
  induction axis with
  | nil => exact List.pairwise_singleton _ _
  | cons a rest ih =>
    obtain ⟨ha, hrest⟩ := List.pairwise_cons.1 h
    unfold Axis.insert
    split
    case isTrue => exact h
    case isFalse hne =>
      split
      case isTrue hlt =>
        refine List.pairwise_cons.2 ⟨fun b hb => ?_, h⟩
        rcases List.mem_cons.1 hb with rfl | hb
        · exact hlt
        · exact Day.lt_trans hlt (ha b hb)
      case isFalse hge =>
        refine List.pairwise_cons.2 ⟨fun b hb => ?_, ih hrest⟩
        rcases mem_insert.1 hb with rfl | hb
        · exact (Day.lt_or_lt_of_ne hne).resolve_left hge
        · exact ha b hb

@[simp]
theorem ofDays_append_singleton (days : List Day) (d : Day) :
    ofDays (days ++ [d]) = insert d (ofDays days) := by
  simp [ofDays]

theorem ascending_ofDays (days : List Day) : Ascending (ofDays days) := by
  induction days using List.reverseRecOn with
  | nil => exact .nil
  | append_singleton days d ih => exact ofDays_append_singleton days d ▸ ih.insert

@[simp]
theorem mem_ofDays {days : List Day} {d : Day} : d ∈ ofDays days ↔ d ∈ days := by
  induction days using List.reverseRecOn with
  | nil => rfl
  | append_singleton days e ih =>
    rw [ofDays_append_singleton, mem_insert, ih, List.mem_append, List.mem_singleton]
    exact or_comm

theorem Ascending.nodup {axis : List Day} (h : Ascending axis) : axis.Nodup := by
  refine List.Pairwise.imp ?_ h
  rintro a b hlt rfl
  exact Day.lt_irrefl a hlt

/-- An axis is known by its days. -/
theorem Ascending.ext {xs ys : List Day} (hx : Ascending xs) (hy : Ascending ys)
    (h : ∀ d, d ∈ xs ↔ d ∈ ys) : xs = ys := by
  have hperm : xs.Perm ys := (List.perm_ext_iff_of_nodup hx.nodup hy.nodup).2 h
  exact hperm.eq_of_pairwise (fun _ _ _ _ hab hba => absurd hba (Day.lt_asymm hab)) hx hy

/-! ### Searching by halving -/

theorem Ascending.lt_iff {axis : List Day} (h : Ascending axis) {i j : Nat} {a b : Day}
    (hi : axis[i]? = some a) (hj : axis[j]? = some b) : a < b ↔ i < j := by
  obtain ⟨hi', rfl⟩ := List.getElem?_eq_some_iff.1 hi
  obtain ⟨hj', rfl⟩ := List.getElem?_eq_some_iff.1 hj
  have hlt := List.pairwise_iff_getElem.1 h
  constructor
  · intro hab
    by_contra hge
    obtain rfl | hji := Nat.eq_or_lt_of_not_lt hge
    · exact Day.lt_irrefl _ hab
    · exact Day.lt_asymm hab (hlt j i hj' hi' hji)
  · exact fun hij => hlt i j hi' hj' hij

/-- The search between two indices finds a day that stands between them.  With as many
steps as there are indices between them it does not run out of steps. -/
theorem searchBetween_eq_some {axis : List Day} (h : Ascending axis) {d : Day} {i : Nat}
    (hi : axis[i]? = some d) (steps low high : Nat) (hlow : low ≤ i) (hhigh : i < high)
    (hlen : high ≤ axis.length) (hsteps : high - low ≤ steps) :
    searchBetween axis d steps low high = some i := by
  induction steps generalizing low high with
  | zero => omega
  | succ steps ih =>
    obtain ⟨e, hget⟩ : ∃ e, axis[(low + high) / 2]? = some e :=
      ⟨_, List.getElem?_eq_getElem (by omega)⟩
    unfold searchBetween
    rw [if_pos (by omega)]
    simp only [hget]
    split
    case isTrue heq =>
      -- the day stands once on an ascending axis, so the middle is its index
      rw [heq] at hget
      have hle := mt (h.lt_iff hget hi).2 (Day.lt_irrefl d)
      have hge := mt (h.lt_iff hi hget).2 (Day.lt_irrefl d)
      congr 1
      omega
    case isFalse hne =>
      -- the half that is kept holds the index of the day
      split
      case isTrue hlt =>
        have := (h.lt_iff hget hi).1 hlt
        exact ih _ _ (by omega) hhigh hlen (by omega)
      case isFalse hge =>
        have := mt (h.lt_iff hget hi).2 hge
        have hne' : (low + high) / 2 ≠ i := by
          intro heq
          rw [heq, hi] at hget
          exact hne (Option.some.inj hget).symm
        exact ih _ _ hlow (by omega) (by omega) (by omega)

/-- What the search finds is there. -/
theorem getElem?_of_searchBetween {axis : List Day} {d : Day} {i : Nat} (steps low high : Nat)
    (h : searchBetween axis d steps low high = some i) : axis[i]? = some d := by
  induction steps generalizing low high with
  | zero => cases h
  | succ steps ih =>
    unfold searchBetween at h
    split at h
    case isTrue hlt =>
      dsimp only at h
      split at h
      case h_1 => cases h
      case h_2 e he =>
        split at h
        case isTrue heq =>
          obtain rfl := Option.some.inj h
          rw [he, heq]
        case isFalse hne =>
          split at h
          · exact ih _ _ h
          · exact ih _ _ h
    case isFalse => cases h

theorem search_eq_some_iff {axis : List Day} (h : Ascending axis) {d : Day} {i : Nat} :
    search axis d = some i ↔ axis[i]? = some d := by
  constructor
  · exact getElem?_of_searchBetween _ _ _
  · intro hi
    obtain ⟨hlt, -⟩ := List.getElem?_eq_some_iff.1 hi
    exact searchBetween_eq_some h hi _ _ _ (Nat.zero_le _) hlt (Nat.le_refl _) (Nat.le_refl _)

theorem search_eq_none_iff {axis : List Day} (h : Ascending axis) {d : Day} :
    search axis d = none ↔ d ∉ axis := by
  rw [List.mem_iff_getElem?, Option.eq_none_iff_forall_ne_some]
  simp only [ne_eq, search_eq_some_iff h, not_exists]

/-- On an ascending list, halving finds what going through the list from its beginning
finds. -/
theorem search_eq_idxOf? {axis : List Day} (h : Ascending axis) (d : Day) :
    search axis d = axis.idxOf? d := by
  apply Option.ext
  intro i
  rw [search_eq_some_iff h, List.idxOf?_eq_some_iff, List.getElem?_eq_some_iff]
  constructor
  · rintro ⟨hi, hd⟩
    refine ⟨hi, hd, fun j hj hjd => ?_⟩
    exact Nat.ne_of_lt hj ((h.nodup.getElem_inj_iff).1 (hjd.trans hd.symm))
  · rintro ⟨hi, hd, -⟩
    exact ⟨hi, hd⟩

/-! ### Where the search looks -/

/-- What a search must not do. -/
inductive SearchFault where
  /-- It looks at an index at which the list has nothing. -/
  | outside (index : Nat)
  /-- It has no steps left and is not at its end. -/
  | unfinished
deriving DecidableEq

/-- The search between two indices, with an error for a fault. -/
def watchBetween (axis : List Day) (d : Day) :
    Nat → Nat → Nat → Except SearchFault (Option Nat)
  | 0, low, high => if low < high then .error .unfinished else .ok none
  | steps + 1, low, high =>
    if low < high then
      match axis[(low + high) / 2]? with
      | none => .error (.outside ((low + high) / 2))
      | some e =>
        if e = d then .ok (some ((low + high) / 2))
        else if e < d then watchBetween axis d steps ((low + high) / 2 + 1) high
        else watchBetween axis d steps low ((low + high) / 2)
    else .ok none

/-- The search for a day, with an error for a fault. -/
def watch (axis : List Day) (d : Day) : Except SearchFault (Option Nat) :=
  watchBetween axis d axis.length 0 axis.length

theorem watchBetween_eq_ok (axis : List Day) (d : Day) (steps low high : Nat)
    (hhigh : high ≤ axis.length) (hsteps : high - low ≤ steps) :
    watchBetween axis d steps low high = .ok (searchBetween axis d steps low high) := by
  induction steps generalizing low high with
  | zero =>
    unfold watchBetween searchBetween
    rw [if_neg (by omega)]
  | succ steps ih =>
    unfold watchBetween searchBetween
    by_cases hlt : low < high
    · have hget : axis[(low + high) / 2]? = some axis[(low + high) / 2] :=
        List.getElem?_eq_getElem (by omega)
      rw [if_pos hlt, if_pos hlt]
      simp only [hget]
      split
      case isTrue => rfl
      case isFalse =>
        split
        · exact ih _ _ hhigh (by omega)
        · exact ih _ _ (by omega) (by omega)
    · rw [if_neg hlt, if_neg hlt]

/-- The search looks nowhere outside of the list, ascending or not, and comes to its end. -/
theorem watch_eq_ok (axis : List Day) (d : Day) : watch axis d = .ok (search axis d) :=
  watchBetween_eq_ok axis d _ _ _ (Nat.le_refl _) (Nat.le_refl _)

end Axis

end CrashReports
