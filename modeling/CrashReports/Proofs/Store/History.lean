import CrashReports.Proofs.Outcome
import CrashReports.Store.Table

/-!
# What a store can hold

The store changes by statements only, and a statement that is refused changes nothing.  So
the times in a table are in the form in which the store keeps times: a time was handed over
when its row was inserted or changed, and no other statement touches it
(`holdsStored_afterAll`).

This matters for numbers.  A number that is whole is kept as an integer, so two stored times
of the same value are the same time, unless they lie beyond the integers of the store
(`integerOfReal?_of_isStored`).
-/

namespace CrashReports.Store

/-- A statement that changes a store. -/
inductive Statement where
  | init
  | insert (row : NewRow)
  | updateTime (row time : Value)
  | delete (row : Value)
  | drop

/-- The store after a statement. -/
def after (s : Store) : Statement → Store
  | .init => s.init
  | .insert row => (s.insert row).toOption.getD s
  | .updateTime row time => ((s.updateTime row time).map Prod.snd).toOption.getD s
  | .delete row => ((s.delete row).map Prod.snd).toOption.getD s
  | .drop => s.drop.toOption.getD s

/-- The store after several statements. -/
def afterAll (s : Store) (statements : List Statement) : Store :=
  statements.foldl after s

/-- A time in the form in which the store keeps it. -/
def StampCell.IsStored (c : StampCell) : Prop :=
  ∃ v, ofValue? v = some c

/-- All times of a store are in the form in which it keeps them. -/
def HoldsStored (s : Store) : Prop :=
  ∀ t, s.table = some t → ∀ row ∈ t.rows, row.crashedOn.IsStored

theorem Table.eq_of_rows_eq {t t' : Table} (h : t.rows = t'.rows) : t = t' := by
  cases t
  cases t'
  congr

instance : DecidableEq Table := fun _ _ =>
  decidable_of_iff _ ⟨Table.eq_of_rows_eq, congrArg Table.rows⟩

/-! ### Statements -/

theorem holdsStored_some {t : Table} {now : Int}
    (h : ∀ row ∈ t.rows, row.crashedOn.IsStored) : HoldsStored ⟨some t, now⟩ := by
  rintro t' ht'
  obtain rfl := Option.some.inj ht'
  exact h

theorem holdsStored_getD {s : Store} (hs : s.HoldsStored) {x : Except StatementError Store}
    (h : ∀ s', x = .ok s' → s'.HoldsStored) : (x.toOption.getD s).HoldsStored := by
  cases x with
  | error e => exact hs
  | ok s' => exact h s' rfl

theorem exists_of_map_snd {α β ε : Type} {x : Except ε (α × β)} {b : β}
    (h : x.map Prod.snd = .ok b) : ∃ a, x = .ok (a, b) := by
  cases x with
  | error e => cases h
  | ok p => exact ⟨p.1, congrArg Except.ok (Prod.ext rfl (Except.ok.inj h))⟩

theorem opened_eq_ok_iff {s : Store} {t : Table} : s.opened = .ok t ↔ s.table = some t := by
  unfold opened
  cases s.table <;> simp

theorem rows_of_insert? {t t' : Table} {row : Row} (h : t.insert? row = some t') :
    Table.insertRow? row t.rows = some t'.rows := by
  unfold Table.insert? at h
  split at h
  case h_1 rows hrows =>
    obtain rfl := Option.some.inj h
    exact hrows
  case h_2 => cases h

variable {s : Store}

theorem HoldsStored.insert (hs : s.HoldsStored) {r : NewRow} {s' : Store}
    (h : s.insert r = .ok s') : s'.HoldsStored := by
  obtain ⟨t, ht, hnumber⟩ := bind_eq_ok_iff.1 h
  have hold := hs t (opened_eq_ok_iff.1 ht)
  extract_lets put at hnumber
  -- whatever number the row gets, its time is the one that was handed over
  have hput : ∀ number, put number = .ok s' → s'.HoldsStored := by
    intro number hrest
    dsimp only [put] at hrest
    split at hrest
    case h_1 => cases hrest
    case h_2 stamp hstamp =>
      split at hrest
      case h_1 t' ht' =>
        obtain rfl := Except.ok.inj hrest
        refine holdsStored_some fun row hrow => ?_
        rcases Table.mem_of_insertRow? (rows_of_insert? ht') hrow with rfl | hrow
        · exact ⟨r.crashedOn, hstamp⟩
        · exact hold row hrow
      case h_2 => cases hrest
  split at hnumber
  case h_1 => exact hput _ hnumber
  case h_2 =>
    split at hnumber
    case h_1 number hnumberOf => exact hput number hnumber
    case h_2 => cases hnumber

theorem HoldsStored.updateTime (hs : s.HoldsStored) {row time : Value} {n : Nat} {s' : Store}
    (h : s.updateTime row time = .ok (n, s')) : s'.HoldsStored := by
  obtain ⟨t, ht, hrest⟩ := bind_eq_ok_iff.1 h
  have hold := hs t (opened_eq_ok_iff.1 ht)
  split at hrest
  case h_1 =>
    obtain ⟨-, rfl⟩ := Prod.mk.inj (Except.ok.inj hrest)
    exact hs
  case h_2 number hnumber =>
    split at hrest
    case isTrue =>
      split at hrest
      case h_1 stamp hstamp =>
        obtain ⟨-, rfl⟩ := Prod.mk.inj (Except.ok.inj hrest)
        refine holdsStored_some fun row' hrow' => ?_
        obtain ⟨old, hmem, rfl⟩ := List.mem_map.1 hrow'
        split
        · exact ⟨time, hstamp⟩
        · exact hold old hmem
      case h_2 => cases hrest
    case isFalse =>
      obtain ⟨-, rfl⟩ := Prod.mk.inj (Except.ok.inj hrest)
      exact hs

theorem HoldsStored.delete (hs : s.HoldsStored) {row : Value} {n : Nat} {s' : Store}
    (h : s.delete row = .ok (n, s')) : s'.HoldsStored := by
  obtain ⟨t, ht, hrest⟩ := bind_eq_ok_iff.1 h
  split at hrest
  case h_1 =>
    obtain ⟨-, rfl⟩ := Prod.mk.inj (Except.ok.inj hrest)
    exact hs
  case h_2 number hnumber =>
    obtain ⟨-, rfl⟩ := Prod.mk.inj (Except.ok.inj hrest)
    exact holdsStored_some fun row' hrow' =>
      hs t (opened_eq_ok_iff.1 ht) row' (List.mem_filter.1 hrow').1

theorem HoldsStored.init (hs : s.HoldsStored) : s.init.HoldsStored := by
  refine holdsStored_some fun row hrow => ?_
  cases htable : s.table with
  | none =>
    rw [htable] at hrow
    cases hrow
  | some t =>
    rw [htable] at hrow
    exact hs t htable row hrow

theorem holdsStored_fresh (now : Int) : (fresh now).HoldsStored := by
  intro t ht
  cases ht

/-- A statement keeps the times of a store in their form. -/
theorem HoldsStored.after (hs : s.HoldsStored) (statement : Statement) :
    (s.after statement).HoldsStored := by
  cases statement with
  | init => exact hs.init
  | insert row => exact holdsStored_getD hs fun s' h => hs.insert h
  | updateTime row time =>
    refine holdsStored_getD hs fun s' h => ?_
    obtain ⟨n, hupdate⟩ := exists_of_map_snd h
    exact hs.updateTime hupdate
  | delete row =>
    refine holdsStored_getD hs fun s' h => ?_
    obtain ⟨n, hdelete⟩ := exists_of_map_snd h
    exact hs.delete hdelete
  | drop =>
    refine holdsStored_getD hs fun s' h => ?_
    obtain ⟨t, -, hfresh⟩ := bind_eq_ok_iff.1 h
    obtain rfl := Except.ok.inj hfresh
    exact holdsStored_fresh s.now

/-- Whatever statements are run, the times of the store are in the form in which it keeps
them. -/
theorem holdsStored_afterAll (now : Int) (statements : List Statement) :
    ((fresh now).afterAll statements).HoldsStored := by
  have hrun : ∀ s : Store, s.HoldsStored → (s.afterAll statements).HoldsStored := by
    induction statements with
    | nil => exact fun s hs => hs
    | cons statement statements ih => exact fun s hs => ih _ (hs.after statement)
  exact hrun _ (holdsStored_fresh now)

/-! ### Stored numbers -/

theorem integerOfReal?_of_ofReal {x y : Rat} (h : Number.ofReal x = .real y) :
    integerOfReal? y = none := by
  unfold Number.ofReal at h
  split at h
  case h_1 => cases h
  case h_2 hnone =>
    obtain rfl := Number.real.inj h
    exact hnone

theorem integerOfReal?_of_readNumber {cs : List Char} {x : Rat}
    (h : readNumber cs = some (.real x)) : integerOfReal? x = none := by
  unfold readNumber at h
  dsimp only at h
  split at h
  case isTrue => cases h
  case isFalse =>
    obtain ⟨⟨scale, rest⟩, -, hrest⟩ := Option.bind_eq_some_iff.1 h
    dsimp only at hrest
    split at hrest
    case isTrue => cases hrest
    case isFalse =>
      -- the integers are whole, and all other numbers are kept as integers if they can be
      generalize (if (readSign (skipStoreBlanks cs)).1 = true then
        -(Text.digitsValue (Text.spanDigits (readSign (skipStoreBlanks cs)).2).1 : Int)
        else Text.digitsValue (Text.spanDigits (readSign (skipStoreBlanks cs)).2).1) =
          magnitude at hrest
      split at hrest
      case isTrue => cases hrest
      case isFalse => exact integerOfReal?_of_ofReal (Option.some.inj hrest)

/-- A number that is kept as a real is not a whole number that fits an integer. -/
theorem integerOfReal?_of_isStored {x : Rat} (h : (StampCell.number (.real x)).IsStored) :
    integerOfReal? x = none := by
  obtain ⟨v, hv⟩ := h
  cases v with
  | null => cases hv
  | integer i => cases hv
  | real y => exact integerOfReal?_of_ofReal (StampCell.number.inj (Option.some.inj hv))
  | text s =>
    dsimp only [StampCell.ofValue?] at hv
    split at hv
    case h_1 n hreads =>
      obtain rfl := StampCell.number.inj (Option.some.inj hv)
      exact integerOfReal?_of_readNumber hreads
    case h_2 => cases hv
  | broken t => cases hv
  | bytes bs => cases hv

end CrashReports.Store
