import CrashReports.Proofs.Crash.Binning
import CrashReports.Proofs.Store.Fetch

/-!
# Groups and the records made of them

A fetch of counts reads each group as one record, which always has a day.  So the dated
records that a series is made of stand beside the groups, one for one and in the same
order; what is found first among the records belongs to what is found first among the
groups.
-/

namespace CrashReports.Store

/-- A group is read as a record, and its day as a day of the calendar. -/
def ReadsAs (g : Group) (p : Day × CountRecord) : Prop :=
  readGroup g = .ok p.2 ∧ p.2.crashedOn = some p.1

section ReadsAs

variable {g : Group} {p : Day × CountRecord}

theorem ReadsAs.day (h : ReadsAs g p) : g.day = .ofDay p.1 := by
  obtain ⟨-, -, ⟨d, hday, hcrashed⟩, -⟩ := readGroup_eq_ok_iff.1 h.1
  rw [h.2] at hcrashed
  rw [hday, Option.some.inj hcrashed]

theorem ReadsAs.containerId (h : ReadsAs g p) :
    readColumn "container_id" g.containerId = .ok p.2.containerId :=
  (readGroup_eq_ok_iff.1 h.1).1

theorem ReadsAs.containerName (h : ReadsAs g p) :
    readColumn "container_name" g.first.containerName = .ok p.2.containerName :=
  (readGroup_eq_ok_iff.1 h.1).2.1

theorem ReadsAs.toNat_crashCount (h : ReadsAs g p) : p.2.crashCount.toNat = g.size :=
  toNat_crashCount_of_readGroup h.1

end ReadsAs

/-! ### Lists side by side -/

section Forall₂

variable {α β : Type} {R : α → β → Prop} {xs : List α} {ys : List β}

/-- What is found first on either side belongs together. -/
theorem rel_find? {p : α → Bool} {q : β → Bool} (h : List.Forall₂ R xs ys)
    (hpq : ∀ x y, R x y → p x = q y) : Option.Rel R (xs.find? p) (ys.find? q) := by
  induction h with
  | nil => exact .none
  | @cons x y xs ys hxy _ ih =>
    rw [List.find?_cons, List.find?_cons, hpq x y hxy]
    cases q y with
    | true => exact .some hxy
    | false => exact ih

end Forall₂

theorem dated_of_readGroup {gs : List Group} {records : List CountRecord}
    (h : List.Forall₂ (fun g c => readGroup g = .ok c) gs records) :
    List.Forall₂ ReadsAs gs (Series.dated records) := by
  induction h with
  | nil => exact .nil
  | @cons g c gs records hgc _ ih =>
    obtain ⟨-, -, ⟨d, -, hcrashed⟩, -⟩ := readGroup_eq_ok_iff.1 hgc
    have hdated : Series.dated (c :: records) = (d, c) :: Series.dated records := by
      simp [Series.dated, hcrashed]
    rw [hdated]
    exact .cons ⟨hgc, hcrashed⟩ ih

variable {now : Int} {t : Table} {r : DayRange}

theorem dated_of_counts {records : List CountRecord}
    (h : (⟨some t, now⟩ : Store).counts r = .ok records) :
    List.Forall₂ ReadsAs (countGroups now t r) (Series.dated records) :=
  dated_of_readGroup (readGroup_of_counts h)

/-! ### Cells -/

/-- Whether a group belongs to a cell of the series. -/
def Fills (d : Day) (id : String) (g : Group) : Prop :=
  g.day = .ofDay d ∧ readColumn "container_id" g.containerId = .ok id

instance (d : Day) (id : String) (g : Group) : Decidable (Fills d id g) :=
  inferInstanceAs (Decidable (_ ∧ _))

/-- A cell of the chart holds the size of the first group that belongs to it. -/
theorem toNat_count {records : List CountRecord}
    (h : (⟨some t, now⟩ : Store).counts r = .ok records) (d : Day) (id : String) :
    ((Series.ofRecords records).count d id).toNat =
      ((countGroups now t r).find? fun g => decide (Fills d id g)).elim 0 Group.size := by
  have hfills : ∀ g p, ReadsAs g p →
      decide (Fills d id g) = decide (d = p.1 ∧ id = p.2.containerId) := by
    intro g p hgp
    have hiff : Fills d id g ↔ d = p.1 ∧ id = p.2.containerId := by
      unfold Fills
      rw [hgp.day, hgp.containerId, Ymd.ofDay_inj, Except.ok.injEq, @eq_comm _ d, @eq_comm _ id]
    exact decide_eq_decide.2 hiff
  -- the first record of the cell was read from the first group that fills it
  have hfind := rel_find? (dated_of_counts h) hfills
  rw [Series.count_ofRecords, Series.firstCount?]
  revert hfind
  generalize (countGroups now t r).find? (fun g => decide (Fills d id g)) = found
  generalize (Series.dated records).find?
    (fun p => decide (d = p.1 ∧ id = p.2.containerId)) = found'
  intro hfind
  cases hfind with
  | none => rfl
  | some hgp => exact hgp.toNat_crashCount

end CrashReports.Store
