import CrashReports.Proofs.Files.Tree
import CrashReports.Store.Opening

/-!
# Which file is opened

The path of a store is read as it stands where the directories above the file are made, and as a
location where the file itself is opened.  The two readings are the same for a path without a
question mark and without percent escapes (`IsLiteral`): such a path is opened where it says, and
below the directory it is taken from nothing else changes.

Every other path is cut or has escapes that take more bytes than they write.  The file that is
opened then has a shorter path, so it is never the one that was meant; below the directory all is
as it should be only where both files were there before (`opensOnly_iff`).
-/

namespace CrashReports.Store

open Files

/-- Below a directory all is as before, but for a database at a place and for the directories
above it that were missing. -/
def OpensOnly (base : Place) (t t' : Tree) (place : Place) : Prop :=
  ∀ p, base <+: p → t'.at? p =
    if p = place then some .database
    else if p <+: place ∧ t.at? p = none then some .directory
    else t.at? p

/-- A path is the same when it is read as a location. -/
def IsLiteral (path : List Char) : Prop :=
  '?' ∉ path ∧ ¬ Text.HasEscape path

/-! ### Resolving names -/

section Resolve

variable {t t' : Tree} {place q : Place} {names : List Name} {name : Name}

theorem of_resolveStep (h : resolveStep t place name = some q) :
    name = above ∧ q = place.dropLast ∨ name ≠ above ∧ q = place ++ [name] := by
  unfold resolveStep at h
  split at h
  case isTrue hname => exact .inl ⟨hname, (Option.some.inj h).symm⟩
  case isFalse hname =>
    split at h
    case isTrue => cases h
    case isFalse =>
      split at h
      case h_1 | h_2 => cases h
      case h_3 | h_4 => exact .inr ⟨hname, (Option.some.inj h).symm⟩

theorem of_foldlM_resolveStep (hnames : ∀ n ∈ names, IsOrdinary n)
    (h : names.foldlM (resolveStep t) place = some q) : q = place ++ names := by
  induction names generalizing place with
  | nil => rw [List.append_nil, Option.some.inj h]
  | cons name names ih =>
    rw [List.foldlM_cons] at h
    obtain ⟨next, hstep, h⟩ := Option.bind_eq_some_iff.1 h
    have hname := hnames name List.mem_cons_self
    obtain ⟨habove, -⟩ | ⟨-, rfl⟩ := of_resolveStep hstep
    · exact absurd habove hname.ne_above
    · rw [ih (fun n hn => hnames n (List.mem_cons_of_mem _ hn)) h]
      simp

/-- The path of a place leads to that place, if it leads anywhere. -/
theorem resolve_pathOf (hplace : ∀ n ∈ place, IsOrdinary n)
    (h : resolve t (pathOf place) = some q) : q = place := by
  obtain ⟨place', hfold, hsize⟩ := Option.bind_eq_some_iff.1 h
  rw [namesOf_pathOf hplace] at hfold
  have hplace' := of_foldlM_resolveStep hplace hfold
  split at hsize
  case isTrue => rw [← Option.some.inj hsize, hplace', List.nil_append]
  case isFalse => cases hsize

theorem pathSize_le_of_foldlM (h : names.foldlM (resolveStep t) place = some q) :
    pathSize q ≤ pathSize place + pathSize names := by
  induction names generalizing place with
  | nil =>
    rw [Option.some.inj h]
    exact Nat.le_add_right _ _
  | cons name names ih =>
    rw [List.foldlM_cons] at h
    obtain ⟨next, hstep, h⟩ := Option.bind_eq_some_iff.1 h
    have hrest := ih h
    rw [pathSize_cons]
    obtain ⟨-, rfl⟩ | ⟨-, rfl⟩ := of_resolveStep hstep
    · have hdrop := pathSize_dropLast_le place
      omega
    · rw [pathSize_append, pathSize_cons, pathSize_nil] at hrest
      omega

/-- The place that a path leads to takes no more bytes than the path. -/
theorem pathSize_le_of_resolve {cs : List Char} (h : resolve t ('/' :: cs) = some q) :
    pathSize q ≤ nameSize ('/' :: cs) := by
  obtain ⟨place', hfold, hsize⟩ := Option.bind_eq_some_iff.1 h
  have hle := pathSize_le_of_foldlM hfold
  have hnames := pathSize_namesOf_le cs
  rw [pathSize_nil] at hle
  split at hsize
  case isTrue =>
    rw [← Option.some.inj hsize]
    omega
  case isFalse => cases hsize

/-- New directories do not change where a path leads. -/
theorem resolve_of_hasMade (h : Tree.HasMade t t' place) (file : List Char) :
    resolve t' file = resolve t file := by
  have hstep : resolveStep t' = resolveStep t := by
    funext p name
    unfold resolveStep
    rw [h.at? p]
    by_cases hnone : t.at? p = none
    · by_cases hp : p <+: place <;> simp [hnone, hp]
    · simp [hnone]
  unfold resolve
  rw [hstep]

end Resolve

/-! ### The file that is opened -/

/-- A database stands at a place; it stood there before or nothing did, and nothing else has
changed. -/
structure IsOpened (t t' : Tree) (q : Place) : Prop where
  database : t'.at? q = some .database
  before : t.at? q = none ∨ t.at? q = some .database
  others : ∀ p, p ≠ q → t'.at? p = t.at? p

section Connect

variable {t t' t₁ : Tree} {q : Place} {m : OpenMode} {l : Location} {h : Handle}
  {connections busySecs : Nat}

theorem of_openFile (ho : openFile t q m = (t', none)) (huse : firstUse? t' q m = none) :
    IsOpened t t' q := by
  have hdatabase : t'.at? q ≠ some .otherFile := by
    intro hother
    rw [firstUse?, if_pos hother] at huse
    cases huse
  unfold openFile at ho
  split at ho
  case isTrue =>
    split at ho
    case h_1 => cases ho
    case h_2 hbefore =>
      obtain ⟨rfl, -⟩ := Prod.mk.inj ho
      exact ⟨hbefore, .inr hbefore, fun _ _ => rfl⟩
    case h_3 hbefore =>
      obtain ⟨rfl, -⟩ := Prod.mk.inj ho
      exact absurd hbefore hdatabase
    case h_4 hbefore =>
      split at ho
      case isTrue => cases ho
      case isFalse =>
        obtain ⟨rfl, -⟩ := Prod.mk.inj ho
        refine ⟨?_, .inl hbefore, fun p hp => ?_⟩
        · rw [Tree.at?_add hbefore, if_pos rfl]
        · rw [Tree.at?_add hbefore, if_neg hp]
  case isFalse => cases ho

theorem of_openNamed {name : List Char} (ho : m.openNamed t name busySecs = (t', none)) :
    ∃ q, resolve t name = some q ∧ IsOpened t t' q := by
  unfold OpenMode.openNamed at ho
  split at ho
  case h_1 => cases ho
  case h_2 place hresolve =>
    split at ho
    case h_1 => cases ho
    case h_2 t₁ hopen =>
      split at ho
      case isTrue => cases ho
      case isFalse =>
        obtain ⟨rfl, huse⟩ := Prod.mk.inj ho
        exact ⟨place, hresolve, of_openFile hopen (Option.map_eq_none_iff.1 huse)⟩

/-- A location that is connected to has its file opened, if it has one. -/
theorem of_locationConnect (ho : l.connect t connections busySecs = (t', .ok h)) :
    l.fileName = .ok h.name ∧ h.mode = l.mode ∧
      (h.mode.usesFile = true ∧ (∃ q, resolve t h.name = some q ∧ IsOpened t t' q) ∨
        h.mode.usesFile = false ∧ t' = t) := by
  unfold Location.connect at ho
  split at ho
  case h_1 => cases ho
  case h_2 name hname =>
    split at ho
    case h_1 => cases ho
    case h_2 =>
      split at ho
      case isTrue huses =>
        split at ho
        case h_1 => cases ho
        case h_2 t₁ hopen =>
          obtain ⟨rfl, hh⟩ := Prod.mk.inj ho
          obtain rfl := Except.ok.inj hh
          exact ⟨hname, rfl, .inl ⟨huses, of_openNamed hopen⟩⟩
      case isFalse huses =>
        split at ho
        case isTrue => cases ho
        case isFalse =>
          obtain ⟨rfl, hh⟩ := Prod.mk.inj ho
          obtain rfl := Except.ok.inj hh
          exact ⟨hname, rfl, .inr ⟨by simpa using huses, rfl⟩⟩

theorem of_connect {path : String} (ho : connect t path connections busySecs = (t', .ok h)) :
    ∃ t₁ l, makeParent t path.toList = (t₁, none) ∧ Location.parse path = .ok l ∧
      l.connect t₁ connections busySecs = (t', .ok h) := by
  unfold connect at ho
  split at ho
  case h_1 => cases ho
  case h_2 t₁ hparent =>
    split at ho
    case h_1 => cases ho
    case h_2 l hparse =>
      split at ho
      case isTrue => cases ho
      case isFalse => exact ⟨t₁, l, hparent, hparse, ho⟩

/-- The directories above a place are made. -/
theorem hasMade_makeParent {place : Place} (hplace : ∀ n ∈ place, IsOrdinary n) (hne : place ≠ [])
    (hm : makeParent t (pathOf place) = (t₁, none)) : Tree.HasMade t t₁ place.dropLast := by
  obtain ⟨parents, name, rfl⟩ := (List.eq_nil_or_concat place).resolve_left hne
  rw [List.concat_eq_append] at hplace hm ⊢
  unfold makeParent at hm
  rw [namesOf_pathOf hplace, List.reverse_append, List.reverse_singleton,
    List.singleton_append] at hm
  dsimp only at hm
  split at hm
  case isTrue => cases hm
  case isFalse =>
    split at hm
    case isTrue => cases hm
    case isFalse =>
      have hparents : ∀ n ∈ parents.reverse, IsOrdinary n := fun n hn =>
        hplace n (List.mem_append_left _ (List.mem_reverse.1 hn))
      rw [List.dropLast_concat]
      have hmade := Tree.hasMade_makeAll hparents hm
      rwa [List.reverse_reverse] at hmade

end Connect

/-! ### The two readings of a path -/

section Reading

variable {path : List Char} {l : Location} {name : List Char}

/-- A location is read from what stands before the first question mark and from the parameters
after it. -/
theorem Location.parse_eq_ok_iff :
    Location.parse (String.ofList path) = .ok l ↔
      Text.percentBytes (path.takeWhile (· != '?')) = Text.utf8 l.file ∧
        (Text.formPairs ((Text.splitFirst '?' path).2.getD [])).foldlM
          (fun m p => m.take p.1 p.2) OpenMode.usual = .ok l.mode := by
  have hparse : Location.parse (String.ofList path) =
      (Text.readUtf8
          (Text.percentBytes (Text.splitFirst '?' (String.ofList path).toList).1)).mapError
          .notUtf8 >>= fun file =>
        (Text.formPairs ((Text.splitFirst '?' (String.ofList path).toList).2.getD [])).foldlM
          (fun m p => m.take p.1 p.2) OpenMode.usual >>= fun mode => pure ⟨file, mode⟩ := rfl
  rw [hparse, String.toList_ofList, Text.fst_splitFirst, bind_eq_ok_iff]
  simp only [bind_eq_ok_iff, mapError_eq_ok_iff, Text.readUtf8_eq_ok_iff]
  constructor
  · rintro ⟨file, hfile, mode, hmode, h⟩
    obtain rfl := Except.ok.inj h
    exact ⟨hfile, hmode⟩
  · rintro ⟨hfile, hmode⟩
    exact ⟨l.file, hfile, l.mode, hmode, rfl⟩

/-- The name of a file is that of its location, up to a NUL at most. -/
theorem name_of_fileName (hname : l.fileName = .ok name) :
    name = l.file.toList ∨
      l.mode.hasParameters = true ∧ name = l.file.toList.takeWhile (· != '\x00') := by
  unfold Location.fileName at hname
  split at hname
  case isTrue hparameters => exact .inr ⟨hparameters, (Except.ok.inj hname).symm⟩
  case isFalse =>
    dsimp only at hname
    split at hname
    case isTrue => cases hname
    case isFalse => exact .inl (Except.ok.inj hname).symm

/-- A path that is read as it stands names the file with that path. -/
theorem name_of_isLiteral (hpath : IsLiteral path)
    (h : Location.parse (String.ofList path) = .ok l) (hname : l.fileName = .ok name) :
    name = path ∧ l.mode = .usual := by
  obtain ⟨hbytes, hmode⟩ := Location.parse_eq_ok_iff.1 h
  rw [Text.takeWhile_of_not_mem hpath.1, Text.percentBytes_of_not_hasEscape hpath.2,
    Text.utf8_inj] at hbytes
  rw [Text.splitFirst_of_not_mem hpath.1] at hmode
  have husual : l.mode = .usual := (Except.ok.inj hmode).symm
  refine ⟨?_, husual⟩
  obtain rfl | ⟨hparameters, -⟩ := name_of_fileName hname
  · rw [← hbytes, String.toList_ofList]
  · rw [husual] at hparameters
    cases hparameters

/-- Any other path is read as fewer bytes than it has. -/
theorem nameSize_file_lt (hpath : ¬ IsLiteral path)
    (h : Location.parse (String.ofList path) = .ok l) : nameSize l.file.toList < nameSize path := by
  obtain ⟨hbytes, -⟩ := Location.parse_eq_ok_iff.1 h
  have hsize : nameSize l.file.toList =
      (Text.percentBytes (path.takeWhile (· != '?'))).length := by
    rw [hbytes, nameSize_eq, String.ofList_toList]
  rw [hsize]
  by_cases hmark : '?' ∈ path
  · calc (Text.percentBytes (path.takeWhile (· != '?'))).length
        ≤ (Text.utf8 (String.ofList (path.takeWhile (· != '?')))).length :=
          Text.length_percentBytes_le _
      _ = nameSize (path.takeWhile (· != '?')) := (nameSize_eq _).symm
      _ < nameSize path := nameSize_takeWhile_lt hmark
  · have hescape : Text.HasEscape path := by
      by_contra hnone
      exact hpath ⟨hmark, hnone⟩
    rw [Text.takeWhile_of_not_mem hmark, nameSize_eq]
    exact Text.length_percentBytes_lt hescape

/-- A path that begins with a slash is read as a name that begins with one. -/
theorem exists_file_cons (h : Location.parse (String.ofList ('/' :: path)) = .ok l) :
    ∃ cs, l.file.toList = '/' :: cs := by
  obtain ⟨hbytes, -⟩ := Location.parse_eq_ok_iff.1 h
  have hslash : ('/' :: path).takeWhile (· != '?') = '/' :: path.takeWhile (· != '?') :=
    List.takeWhile_cons_of_pos (by decide)
  rw [hslash, Text.percentBytes_cons_of_ne (by decide)] at hbytes
  exact Text.exists_cons_of_utf8_eq hbytes.symm

theorem nameSize_lt_of_not_isLiteral (hpath : ¬ IsLiteral ('/' :: path))
    (h : Location.parse (String.ofList ('/' :: path)) = .ok l) (hname : l.fileName = .ok name) :
    ∃ cs, name = '/' :: cs ∧ nameSize name < nameSize ('/' :: path) := by
  have hlt := nameSize_file_lt hpath h
  obtain ⟨cs, hcs⟩ := exists_file_cons h
  obtain rfl | ⟨-, rfl⟩ := name_of_fileName hname
  · exact ⟨cs, hcs, hlt⟩
  · refine ⟨cs.takeWhile (· != '\x00'), ?_, Nat.lt_of_le_of_lt (nameSize_takeWhile_le _ _) hlt⟩
    rw [hcs]
    exact List.takeWhile_cons_of_pos (by decide)

/-- Such a file is never the one that was meant. -/
theorem ne_of_resolve {t : Tree} {place q : Place} (hne : place ≠ [])
    (hpath : ¬ IsLiteral (pathOf place))
    (h : Location.parse (String.ofList (pathOf place)) = .ok l) (hname : l.fileName = .ok name)
    (hq : resolve t name = some q) : q ≠ place := by
  obtain ⟨first, rest, hplace⟩ := List.exists_cons_of_ne_nil hne
  have hslash : pathOf place = '/' :: (first ++ pathOf rest) := by
    rw [hplace, pathOf_cons]
  rw [hslash] at hpath h
  obtain ⟨cs, rfl, hlt⟩ := nameSize_lt_of_not_isLiteral hpath h hname
  have hle := pathSize_le_of_resolve hq
  rw [← hslash, nameSize_pathOf] at hlt
  rintro rfl
  omega

end Reading

/-! ### What has been opened -/

section Opens

variable {t t₁ t' : Tree} {base place q : Place}

theorem prefix_dropLast_iff {p : Place} (hne : p ≠ place) :
    p <+: place.dropLast ↔ p <+: place := by
  induction place using List.reverseRecOn with
  | nil => rfl
  | append_singleton place name _ =>
    rw [List.dropLast_concat, List.prefix_concat_iff]
    exact (or_iff_right hne).symm

/-- Where the file that was meant is opened, all is as it should be. -/
theorem opensOnly_of_isOpened (hmade : Tree.HasMade t t₁ place.dropLast)
    (ho : IsOpened t₁ t' place) : OpensOnly base t t' place := by
  intro p _
  by_cases hp : p = place
  · rw [hp, ho.database, if_pos rfl]
  · rw [ho.others p hp, hmade.at? p, if_neg hp]
    simp only [prefix_dropLast_iff hp]

/-- With nothing but new directories, all is as it should be if the file was there before. -/
theorem opensOnly_iff_of_hasMade (hmade : Tree.HasMade t t' place.dropLast)
    (hbase : base <+: place) : OpensOnly base t t' place ↔ t.at? place = some .database := by
  constructor
  · intro h
    have hplace := h place hbase
    rw [if_pos rfl] at hplace
    exact hmade.at?_eq_database_iff.1 hplace
  · intro h p _
    by_cases hp : p = place
    · rw [hp, if_pos rfl]
      exact hmade.at?_eq_database_iff.2 h
    · rw [hmade.at? p, if_neg hp]
      simp only [prefix_dropLast_iff hp]

/-- Where another file is opened, all is as it should be only if both were there before. -/
theorem opensOnly_iff_of_ne (hmade : Tree.HasMade t t₁ place.dropLast) (hbase : base <+: place)
    (ho : IsOpened t₁ t' q) (hne : q ≠ place) :
    OpensOnly base t t' place ↔
      t.at? place = some .database ∧ (base <+: q → t.at? q = some .database) := by
  constructor
  · intro h
    constructor
    · have hplace := h place hbase
      rw [if_pos rfl, ho.others place hne.symm] at hplace
      exact hmade.at?_eq_database_iff.1 hplace
    · intro hq
      have hopened := h q hq
      rw [ho.database, if_neg hne] at hopened
      split at hopened
      case isTrue => cases hopened
      case isFalse => exact hopened.symm
  · rintro ⟨hplace, hq⟩ p hp
    have hsame : t'.at? p = t₁.at? p := by
      by_cases hpq : p = q
      · subst hpq
        rw [ho.database, hmade.at?_eq_database_iff.2 (hq hp)]
      · exact ho.others p hpq
    rw [hsame]
    exact (opensOnly_iff_of_hasMade hmade hbase).2 hplace p hp

end Opens

/-- A store whose path is taken from a directory is opened where the path says, with the missing
directories above it and with no other change below that directory, exactly if its path is
read as it stands; or else the file was there before, and so was the one that is opened in its
place.  Making the table afterwards changes no place. -/
theorem opensOnly_iff {t : Tree} {base names : Place} {connections busySecs : Nat} {h : Handle}
    (hnames : ∀ name ∈ base ++ names, IsOrdinary name) (hne : names ≠ [])
    (hopen : (connect t (String.ofList (pathOf (base ++ names))) connections busySecs).2 = .ok h) :
    OpensOnly base t
        (connect t (String.ofList (pathOf (base ++ names))) connections busySecs).1
        (base ++ names) ↔
      IsLiteral (pathOf (base ++ names)) ∨
        t.at? (base ++ names) = some .database ∧
          ∀ q, h.mode.usesFile = true → resolve t h.name = some q → base <+: q →
            t.at? q = some .database := by
  have hbase : base <+: base ++ names := List.prefix_append base names
  have hplace : base ++ names ≠ [] := by simp [hne]
  obtain ⟨t', hopened⟩ : ∃ t', connect t (String.ofList (pathOf (base ++ names))) connections
      busySecs = (t', .ok h) := ⟨_, Prod.ext rfl hopen⟩
  rw [hopened]
  obtain ⟨t₁, l, hparent, hparse, hconnect⟩ := of_connect hopened
  rw [String.toList_ofList] at hparent
  have hmade := hasMade_makeParent hnames hplace hparent
  obtain ⟨hname, hmode, hfile⟩ := of_locationConnect hconnect
  by_cases hliteral : IsLiteral (pathOf (base ++ names))
  · refine iff_of_true ?_ (.inl hliteral)
    obtain ⟨hsame, husual⟩ := name_of_isLiteral hliteral hparse hname
    obtain ⟨-, q, hq, ho⟩ | ⟨hunused, -⟩ := hfile
    · rw [hsame] at hq
      obtain rfl := resolve_pathOf hnames hq
      exact opensOnly_of_isOpened hmade ho
    · rw [hmode, husual] at hunused
      cases hunused
  · rw [or_iff_right hliteral]
    obtain ⟨huses, q, hq, ho⟩ | ⟨hunused, rfl⟩ := hfile
    · have hother := ne_of_resolve hplace hliteral hparse hname hq
      rw [opensOnly_iff_of_ne hmade hbase ho hother]
      refine and_congr_right fun _ => ⟨fun hbefore q' _ hq' => ?_, fun hbefore => ?_⟩
      · rw [resolve_of_hasMade hmade, hq'] at hq
        obtain rfl := Option.some.inj hq
        exact hbefore
      · rw [resolve_of_hasMade hmade] at hq
        exact hbefore q huses hq
    · rw [opensOnly_iff_of_hasMade hmade hbase]
      simp [hunused]

/-- A directory that holds one text file. -/
def uploads : Place := ["uploads".toList]

/-- The tree of that directory. -/
def uploadTree : Tree :=
  ⟨[(uploads, .directory), (uploads ++ ["plain".toList], .otherFile)]⟩

/-- The text of a place below that directory. -/
def uploadPath (names : Place) : String :=
  String.ofList (pathOf (uploads ++ names))

theorem connect_crashes :
    connect uploadTree (uploadPath ["data".toList, "crashes.db".toList]) 1 5 =
      (⟨uploadTree.entries ++ [(uploads ++ ["data".toList], .directory),
          (uploads ++ ["data".toList, "crashes.db".toList], .database)]⟩,
        .ok ⟨"/uploads/data/crashes.db".toList, .usual, 1⟩) := by
  have hparse : Location.parse (uploadPath ["data".toList, "crashes.db".toList]) =
      .ok ⟨"/uploads/data/crashes.db", .usual⟩ := Location.parse_eq_ok_iff.2 (by decide +kernel)
  rw [connect, hparse]
  decide +kernel

theorem opensOnly_iff_crashes :
    (∀ name ∈ uploads ++ ["data".toList, "crashes.db".toList], IsOrdinary name) ∧
      ["data".toList, "crashes.db".toList] ≠ [] ∧
      (connect uploadTree (uploadPath ["data".toList, "crashes.db".toList]) 1 5).2 =
        .ok ⟨"/uploads/data/crashes.db".toList, .usual, 1⟩ ∧
      (OpensOnly uploads uploadTree
          (connect uploadTree (uploadPath ["data".toList, "crashes.db".toList]) 1 5).1
          (uploads ++ ["data".toList, "crashes.db".toList]) ↔
        IsLiteral (pathOf (uploads ++ ["data".toList, "crashes.db".toList])) ∨
          uploadTree.at? (uploads ++ ["data".toList, "crashes.db".toList]) = some .database ∧
            ∀ q, OpenMode.usual.usesFile = true →
              resolve uploadTree "/uploads/data/crashes.db".toList = some q → uploads <+: q →
                uploadTree.at? q = some .database) := by
  have hnames : ∀ name ∈ uploads ++ ["data".toList, "crashes.db".toList], IsOrdinary name := by
    decide +kernel
  have hne : ["data".toList, "crashes.db".toList] ≠ [] := by decide
  have hopen := congrArg Prod.snd connect_crashes
  exact ⟨hnames, hne, hopen, opensOnly_iff hnames hne hopen⟩

theorem connect_backup :
    connect uploadTree (uploadPath ["back%20up.db".toList]) 1 5 =
      (⟨uploadTree.entries ++ [(uploads ++ ["back up.db".toList], .database)]⟩,
        .ok ⟨"/uploads/back up.db".toList, .usual, 1⟩) := by
  have hparse : Location.parse (uploadPath ["back%20up.db".toList]) =
      .ok ⟨"/uploads/back up.db", .usual⟩ := Location.parse_eq_ok_iff.2 (by decide +kernel)
  rw [connect, hparse]
  decide +kernel

/-- A name with an escaped blank is opened, and its table made, under another name. -/
theorem backup_opened_elsewhere :
    (∀ name ∈ uploads ++ ["back%20up.db".toList], IsOrdinary name) ∧
      connect uploadTree (uploadPath ["back%20up.db".toList]) 1 5 =
        (⟨uploadTree.entries ++ [(uploads ++ ["back up.db".toList], .database)]⟩,
          .ok ⟨"/uploads/back up.db".toList, .usual, 1⟩) ∧
      Handle.init ⟨"/uploads/back up.db".toList, .usual, 1⟩
        ⟨uploadTree.entries ++ [(uploads ++ ["back up.db".toList], .database)]⟩ 0 =
          .ok (fresh 0).init ∧
      ¬ OpensOnly uploads uploadTree
        ⟨uploadTree.entries ++ [(uploads ++ ["back up.db".toList], .database)]⟩
        (uploads ++ ["back%20up.db".toList]) := by
  refine ⟨by decide +kernel, connect_backup, rfl, fun h => ?_⟩
  have hmissing := h (uploads ++ ["back%20up.db".toList]) (List.prefix_append _ _)
  exact absurd hmissing (by decide +kernel)

end CrashReports.Store
