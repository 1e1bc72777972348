import CrashReports.Files.Tree
import CrashReports.Proofs.Outcome
import CrashReports.Proofs.Text.Form
import Mathlib.Data.List.Induction

/-!
# Places and the directories above them

A place can be written as a path, each of its names with a slash before it.  If its names are
ordinary ones the path leads back to it, and takes as many bytes as are counted for it.

Making a directory together with those above it makes exactly what was missing of them and
changes nothing else (`hasMade_makeAll`).
-/

namespace CrashReports.Files

/-- A name that a file or directory can have. -/
structure IsOrdinary (name : Name) : Prop where
  ne_nil : name ≠ []
  no_slash : '/' ∉ name
  no_nul : '\x00' ∉ name
  ne_dot : name ≠ ['.']
  ne_above : name ≠ above

instance (name : Name) : Decidable (IsOrdinary name) :=
  decidable_of_iff
    (name ≠ [] ∧ '/' ∉ name ∧ '\x00' ∉ name ∧ name ≠ ['.'] ∧ name ≠ above)
    ⟨fun h => ⟨h.1, h.2.1, h.2.2.1, h.2.2.2.1, h.2.2.2.2⟩,
      fun h => ⟨h.ne_nil, h.no_slash, h.no_nul, h.ne_dot, h.ne_above⟩⟩

deriving instance DecidableEq for Tree

/-- The path of a place. -/
def pathOf (place : Place) : List Char :=
  place.flatMap fun name => '/' :: name

/-! ### Paths -/

section Path

variable {place : Place} {name : Name}

theorem pathOf_cons (name : Name) (place : Place) :
    pathOf (name :: place) = '/' :: (name ++ pathOf place) := by
  simp [pathOf]

theorem splitAt_append_pathOf (hname : '/' ∉ name) (h : ∀ n ∈ place, IsOrdinary n) :
    Text.splitAt '/' (name ++ pathOf place) = name :: place := by
  induction place generalizing name with
  | nil => rw [pathOf, List.flatMap_nil, List.append_nil, Text.splitAt_of_not_mem hname]
  | cons next place ih =>
    have hnext := h next List.mem_cons_self
    rw [pathOf_cons, Text.splitAt_append hname,
      ih hnext.no_slash fun n hn => h n (List.mem_cons_of_mem _ hn)]

/-- The names of the path of a place are those of the place. -/
theorem namesOf_pathOf (h : ∀ n ∈ place, IsOrdinary n) : namesOf (pathOf place) = place := by
  have hkept : place.filter (fun name => name != [] && name != ['.']) = place := by
    refine List.filter_eq_self.2 fun n hn => ?_
    simp [(h n hn).ne_nil, (h n hn).ne_dot]
  cases place with
  | nil => rfl
  | cons name place =>
    have hsplit := @splitAt_append_pathOf (name :: place) [] (by simp) h
    rw [List.nil_append] at hsplit
    rw [namesOf, hsplit, List.filter_cons_of_neg (by simp), hkept]

/-! ### How many bytes a path takes -/

@[simp]
theorem pathSize_nil : pathSize [] = 0 := rfl

@[simp]
theorem pathSize_cons (name : Name) (place : Place) :
    pathSize (name :: place) = nameSize name + 1 + pathSize place :=
  rfl

theorem pathSize_append (place place' : Place) :
    pathSize (place ++ place') = pathSize place + pathSize place' := by
  induction place with
  | nil => simp
  | cons name place ih => simp [ih, Nat.add_assoc]

theorem pathSize_dropLast_le (place : Place) : pathSize place.dropLast ≤ pathSize place := by
  induction place using List.reverseRecOn with
  | nil => exact Nat.le_refl 0
  | append_singleton place name _ =>
    rw [List.dropLast_concat, pathSize_append]
    omega

theorem pathSize_filter_le (p : Name → Bool) (place : Place) :
    pathSize (place.filter p) ≤ pathSize place := by
  induction place with
  | nil => exact Nat.le_refl 0
  | cons name place ih =>
    rw [List.filter_cons, pathSize_cons]
    split
    · rw [pathSize_cons]
      omega
    · omega

theorem nameSize_eq (cs : List Char) : nameSize cs = (Text.utf8 (String.ofList cs)).length := by
  rw [nameSize, Text.utf8, String.toList_ofList]

theorem nameSize_cons (c : Char) (cs : List Char) :
    nameSize (c :: cs) = c.utf8Size + nameSize cs := by
  rw [nameSize_eq, nameSize_eq, Text.length_utf8_cons]

theorem nameSize_append (cs cs' : List Char) :
    nameSize (cs ++ cs') = nameSize cs + nameSize cs' := by
  rw [nameSize, List.flatMap_append, List.length_append]
  rfl

theorem nameSize_takeWhile_le (p : Char → Bool) (cs : List Char) :
    nameSize (cs.takeWhile p) ≤ nameSize cs := by
  have hsplit := congrArg nameSize (@List.takeWhile_append_dropWhile _ p cs)
  rw [nameSize_append] at hsplit
  omega

theorem nameSize_takeWhile_lt {c : Char} {cs : List Char} (h : c ∈ cs) :
    nameSize (cs.takeWhile (· != c)) < nameSize cs := by
  have hsplit := congrArg nameSize (@List.takeWhile_append_dropWhile _ (· != c) cs)
  rw [nameSize_append] at hsplit
  cases hdrop : cs.dropWhile (· != c) with
  | nil =>
    have hall := List.dropWhile_eq_nil_iff.1 hdrop c h
    simp at hall
  | cons d rest =>
    have hpos := d.utf8Size_pos
    rw [hdrop, nameSize_cons] at hsplit
    omega

theorem nameSize_slash (cs : List Char) : nameSize ('/' :: cs) = nameSize cs + 1 := by
  have hslash : ('/' : Char).utf8Size = 1 := by decide
  rw [nameSize_cons, hslash, Nat.add_comm]

theorem nameSize_pathOf (place : Place) : nameSize (pathOf place) = pathSize place := by
  induction place with
  | nil => rfl
  | cons name place ih =>
    rw [pathOf_cons, nameSize_slash, nameSize_append, ih, pathSize_cons]
    omega

theorem pathSize_splitAt (cs : List Char) :
    pathSize (Text.splitAt '/' cs) = nameSize cs + 1 := by
  induction cs with
  | nil => rfl
  | cons c cs ih =>
    rw [Text.splitAt]
    split
    case isTrue hc =>
      rw [pathSize_cons, ih, hc, nameSize_slash]
      exact Nat.add_comm 1 _
    case isFalse =>
      -- the character goes to the first of the parts
      cases hparts : Text.splitAt '/' cs with
      | nil => simp [hparts] at ih
      | cons part parts =>
        rw [hparts, pathSize_cons] at ih
        rw [nameSize_cons, pathSize_cons, nameSize_cons]
        omega

/-- The names of a path that begins with a slash take no more bytes than the path. -/
theorem pathSize_namesOf_le (cs : List Char) :
    pathSize (namesOf ('/' :: cs)) ≤ nameSize ('/' :: cs) := by
  have hsplit : Text.splitAt '/' ('/' :: cs) = [] :: Text.splitAt '/' cs := if_pos rfl
  rw [namesOf, hsplit, List.filter_cons_of_neg (by simp), nameSize_slash, ← pathSize_splitAt]
  exact pathSize_filter_le _ _

end Path

/-! ### Making directories -/

namespace Tree

theorem at?_add {t : Tree} {place : Place} (h : t.at? place = none) (entry : Entry) (p : Place) :
    (t.add place entry).at? p = if p = place then some entry else t.at? p := by
  by_cases hp : p = place
  · subst hp
    have hne : p ≠ [] := by
      rintro rfl
      cases h
    rw [at?, if_neg hne] at h
    rw [if_pos rfl, at?, if_neg hne, add, List.find?_append, Option.map_or, h]
    simp
  · rw [if_neg hp, at?, at?, add, List.find?_append]
    simp [Ne.symm hp]

/-- The missing directories down to a place have been made, and nothing else has changed. -/
structure HasMade (t t' : Tree) (place : Place) : Prop where
  at? : ∀ p, t'.at? p =
    if p <+: place ∧ t.at? p = none then some .directory else t.at? p
  directory : ∀ p, p <+: place → t'.at? p = some .directory

section HasMade

variable {t t₁ t' : Tree} {place place' : Place} {names : List Name} {name : Name}

theorem HasMade.trans (h : HasMade t t₁ place) (h' : HasMade t₁ t' place') (hp : place <+: place') :
    HasMade t t' place' := by
  refine ⟨fun p => ?_, h'.directory⟩
  rw [h'.at? p, h.at? p]
  by_cases hnone : t.at? p = none
  · by_cases hplace : p <+: place
    · simp [hnone, hplace, hplace.trans hp]
    · simp [hnone, hplace]
  · simp [hnone]

/-- Databases are where they were. -/
theorem HasMade.at?_eq_database_iff (h : HasMade t t' place) {p : Place} :
    t'.at? p = some .database ↔ t.at? p = some .database := by
  rw [h.at? p]
  split
  case isTrue hp => simp [hp.2]
  case isFalse => rfl

/-- Where directories lead to a place already, nothing is to be made. -/
theorem hasMade_self (h : ∀ p, p <+: place → t.at? p = some .directory) : HasMade t t place := by
  refine ⟨fun p => ?_, h⟩
  split
  case isTrue hp =>
    have hdir := h p hp.1
    rw [hp.2] at hdir
    cases hdir
  case isFalse => rfl

theorem hasMade_add (h : ∀ p, p <+: names → t.at? p = some .directory)
    (hnone : t.at? (names ++ [name]) = none) :
    HasMade t (t.add (names ++ [name]) .directory) (names ++ [name]) := by
  refine ⟨fun p => ?_, fun p hp => ?_⟩
  · rw [at?_add hnone]
    by_cases hp : p = names ++ [name]
    · subst hp
      simp [hnone]
    · by_cases hprefix : p <+: names
      · simp [hp, h p hprefix]
      · have hno : ¬ p <+: names ++ [name] := fun hpre =>
          (List.prefix_concat_iff.1 hpre).elim hp hprefix
        simp [hp, hno]
  · rw [at?_add hnone]
    rcases List.prefix_concat_iff.1 hp with rfl | hprefix
    · exact if_pos rfl
    · split
      · rfl
      · exact h p hprefix

theorem of_step_eq_ok (hname : name ≠ above) (h : t.step place name = .ok place') :
    t.at? place = some .directory ∧ place' = place ++ [name] := by
  unfold step at h
  rw [if_neg hname] at h
  split at h
  case isTrue hdir =>
    split at h
    case isTrue => cases h
    case isFalse =>
      split at h
      case isTrue => exact ⟨eq_of_beq hdir, (Except.ok.inj h).symm⟩
      case isFalse => cases h
  case isFalse => cases h

theorem of_step_eq_missing (h : t.step place name = .error .missing) :
    t.at? place = some .directory ∧ t.at? (place ++ [name]) = none := by
  unfold step at h
  split at h
  case isTrue hdir =>
    split at h
    case isTrue => cases h
    case isFalse =>
      split at h
      case isTrue => cases h
      case isFalse =>
        split at h
        case isTrue => cases h
        case isFalse hnone => exact ⟨eq_of_beq hdir, by simpa using hnone⟩
  case isFalse => cases h

/-- Names that can be followed are those of the place, and all but the last lead to
directories. -/
theorem of_walk_eq_ok (hnames : ∀ n ∈ names, IsOrdinary n) (h : t.walk names = .ok place) :
    place = names ∧ ∀ p, p <+: names → p ≠ names → t.at? p = some .directory := by
  induction names using List.reverseRecOn generalizing place with
  | nil =>
    obtain rfl := Except.ok.inj h
    exact ⟨rfl, fun p hp hne => absurd (List.prefix_nil.1 hp) hne⟩
  | append_singleton names name ih =>
    have hname := hnames name (by simp)
    rw [walk, List.foldlM_append] at h
    obtain ⟨place₁, hwalk, hstep⟩ := bind_eq_ok_iff.1 h
    obtain ⟨rfl, hdirs⟩ := ih (fun n hn => hnames n (by simp [hn])) hwalk
    rw [List.foldlM_cons] at hstep
    obtain ⟨place₂, hstep, hlast⟩ := bind_eq_ok_iff.1 hstep
    obtain ⟨hdir, rfl⟩ := of_step_eq_ok hname.ne_above hstep
    obtain rfl := Except.ok.inj hlast
    refine ⟨rfl, fun p hp hne => ?_⟩
    have hp := (List.prefix_concat_iff.1 hp).resolve_left hne
    by_cases heq : p = place₁
    · rw [heq]
      exact hdir
    · exact hdirs p hp heq

theorem directories_of_leadsToDirectory (hnames : ∀ n ∈ names, IsOrdinary n)
    (h : t.leadsToDirectory names = true) : ∀ p, p <+: names → t.at? p = some .directory := by
  intro p hp
  unfold leadsToDirectory at h
  split at h
  case h_1 place hwalk =>
    obtain ⟨rfl, hdirs⟩ := of_walk_eq_ok hnames hwalk
    by_cases heq : p = place
    · rw [heq]
      exact eq_of_beq h
    · exact hdirs p hp heq
  case h_2 => cases h

/-- A directory that is made is missing, and the place it is made in is a directory with all
those above it. -/
theorem of_make_eq_ok (hnames : ∀ n ∈ names, IsOrdinary n) (h : t.make names name = .ok t') :
    t' = t.add (names ++ [name]) .directory ∧ t.at? (names ++ [name]) = none ∧
      ∀ p, p <+: names → t.at? p = some .directory := by
  unfold make at h
  split at h
  case h_1 => cases h
  case h_2 place hwalk =>
    obtain ⟨rfl, hdirs⟩ := of_walk_eq_ok hnames hwalk
    split at h
    case h_1 => cases h
    case h_2 hstep =>
      obtain ⟨hdir, hnone⟩ := of_step_eq_missing hstep
      refine ⟨(Except.ok.inj h).symm, hnone, fun p hp => ?_⟩
      by_cases heq : p = place
      · rw [heq]
        exact hdir
      · exact hdirs p hp heq
    case h_3 => cases h

theorem hasMade_ensure (hnames : ∀ n ∈ names ++ [name], IsOrdinary n)
    (h : t.ensure names name = (t', none)) : HasMade t t' (names ++ [name]) := by
  unfold ensure at h
  split at h
  case h_1 t₁ hmake =>
    obtain ⟨rfl, -⟩ := Prod.mk.inj h
    obtain ⟨rfl, hnone, hdirs⟩ := of_make_eq_ok (fun n hn => hnames n (by simp [hn])) hmake
    exact hasMade_add hdirs hnone
  case h_2 =>
    obtain ⟨rfl, hfault⟩ := Prod.mk.inj h
    split at hfault
    case isTrue hleads => exact hasMade_self (directories_of_leadsToDirectory hnames hleads)
    case isFalse => cases hfault

/-- Making a directory and those above it makes the missing ones of them. -/
theorem hasMade_makeAll (hnames : ∀ n ∈ names, IsOrdinary n)
    (h : t.makeAll names = (t', none)) : HasMade t t' names.reverse := by
  induction names generalizing t t' with
  | nil =>
    obtain ⟨rfl, -⟩ := Prod.mk.inj h
    refine hasMade_self fun p hp => ?_
    rw [List.prefix_nil.1 hp]
    rfl
  | cons name rest ih =>
    have hrest : ∀ n ∈ rest, IsOrdinary n := fun n hn => hnames n (by simp [hn])
    have hall : ∀ n ∈ rest.reverse ++ [name], IsOrdinary n := fun n hn =>
      hnames n (by simpa [or_comm] using hn)
    rw [List.reverse_cons]
    unfold makeAll at h
    split at h
    -- the directory above is missing, so it is made first
    case h_1 =>
      split at h
      case h_1 => cases h
      case h_2 t₁ habove =>
        exact (ih hrest habove).trans (hasMade_ensure hall h) (List.prefix_append _ _)
    case h_2 => exact hasMade_ensure hall h

end HasMade

end Tree

end CrashReports.Files
