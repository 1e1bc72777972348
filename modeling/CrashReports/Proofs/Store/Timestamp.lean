import CrashReports.Proofs.Store.NumberText
import CrashReports.Proofs.Text.Blank
import CrashReports.Store.Timestamp

/-!
# Texts that are shown as a time

Every layout of a shown time begins with a day, and its other parts leave that day as it
is.  So a text that is shown as a time begins with a year and a hyphen, holds no NUL, and
if it has the written form of the store, then both readers see the same day in it.
-/

namespace CrashReports.Timestamp

open Text Store

/-! ### The layouts -/

theorem toDay_of_toDateTime {p : DateParts} {time : DateTime} (h : p.toDateTime = .ok time) :
    p.toDay = .ok time.day := by
  obtain ⟨day, hday, hafter⟩ := bind_eq_ok_iff.1 h
  split at hafter
  case h_1 =>
    obtain rfl := Except.ok.inj hafter
    exact hday
  case h_2 => cases hafter

theorem exists_of_readLocal {layout : Layout} {cs : List Char} {time : DateTime}
    (h : readLocal layout cs = some time) :
    ∃ p, layout.read cs = .ok p ∧ p.toDateTime = .ok time := by
  unfold readLocal at h
  split at h
  case h_1 p hp =>
    refine ⟨p, hp, ?_⟩
    cases htime : p.toDateTime with
    | error e =>
      rw [htime] at h
      cases h
    | ok time' =>
      rw [htime] at h
      obtain rfl := Option.some.inj h
      rfl
  case h_2 => cases h

theorem exists_of_readOffset {layout : Layout} {cs : List Char} {time : DateTime}
    (h : readOffset layout cs = some time) :
    ∃ p, (layout ++ [LayoutItem.offset]).read cs = .ok p ∧ p.toDateTime = .ok time := by
  unfold readOffset at h
  split at h
  case h_1 p hp =>
    split at h
    case h_1 time' htime =>
      split at h
      case isTrue =>
        obtain rfl := Option.some.inj h
        exact ⟨p, hp, htime⟩
      case isFalse => cases h
    case h_2 => cases h
  case h_2 => cases h

theorem exists_of_readMidnight {cs : List Char} {time : DateTime}
    (h : readMidnight cs = some time) :
    ∃ p, Layout.plainDay.read cs = .ok p ∧ p.toDay = .ok time.day := by
  obtain ⟨day, hday, rfl⟩ := Option.map_eq_some_iff.1 h
  cases hparse : Day.parsePlain cs with
  | error e =>
    rw [hparse] at hday
    cases hday
  | ok day' =>
    rw [hparse] at hday
    obtain rfl := Option.some.inj hday
    exact bind_eq_ok_iff.1 hparse

/-- The layouts of a shown time. -/
def layouts : List Layout :=
  [spaced, lettered, spaced ++ [.offset], lettered ++ [.offset], Layout.plainDay]

/-- The parts of a layout after its day. -/
structure IsTail (tail : Layout) : Prop where
  isDate : ∀ item ∈ tail, item.isDate = false
  nul : .mark '\x00' ∉ tail

theorem exists_isTail {layout : Layout} (h : layout ∈ layouts) :
    ∃ tail, IsTail tail ∧ layout = Layout.plainDay ++ tail := by
  have htails : ∀ layout ∈ layouts, layout = Layout.plainDay ++ layout.drop 5 ∧
      (∀ item ∈ layout.drop 5, item.isDate = false) ∧ .mark '\x00' ∉ layout.drop 5 := by
    decide
  obtain ⟨heq, hdate, hnul⟩ := htails layout h
  exact ⟨layout.drop 5, ⟨hdate, hnul⟩, heq⟩

/-- A shown time is what a layout reads, or the layout has a day alone. -/
theorem exists_mem_layouts_of_parse {text : String} {time : DateTime} (h : parse text = some time) :
    ∃ layout ∈ layouts, ∃ p, layout.read (trimBlanks text.toList) = .ok p ∧
      p.toDay = .ok time.day ∧ (layout = Layout.plainDay ∨ p.toDateTime = .ok time) := by
  obtain ⟨read, hmem, hread⟩ := List.exists_of_findSome?_eq_some h
  have hwhole : ∀ layout ∈ layouts, (∃ p, layout.read (trimBlanks text.toList) = .ok p ∧
      p.toDateTime = .ok time) → ∃ layout ∈ layouts, ∃ p,
        layout.read (trimBlanks text.toList) = .ok p ∧ p.toDay = .ok time.day ∧
          (layout = Layout.plainDay ∨ p.toDateTime = .ok time) :=
    fun layout hlayout ⟨p, hp, htime⟩ =>
      ⟨layout, hlayout, p, hp, toDay_of_toDateTime htime, .inr htime⟩
  simp only [readers, List.mem_cons, List.not_mem_nil, or_false] at hmem
  rcases hmem with rfl | rfl | rfl | rfl | rfl
  · exact hwhole _ (by decide) (exists_of_readLocal hread)
  · exact hwhole _ (by decide) (exists_of_readLocal hread)
  · exact hwhole _ (by decide) (exists_of_readOffset hread)
  · exact hwhole _ (by decide) (exists_of_readOffset hread)
  · obtain ⟨p, hp, hday⟩ := exists_of_readMidnight hread
    exact ⟨_, by decide, p, hp, hday, .inl rfl⟩

/-- A shown time is read by a layout that begins with a day. -/
theorem exists_layout_of_parse {text : String} {time : DateTime} (h : parse text = some time) :
    ∃ tail p, IsTail tail ∧
      (Layout.plainDay ++ tail).readFrom {} (trimBlanks text.toList) = .ok p ∧
      p.toDay = .ok time.day := by
  obtain ⟨layout, hlayout, p, hp, hday, -⟩ := exists_mem_layouts_of_parse h
  obtain ⟨tail, htail, rfl⟩ := exists_isTail hlayout
  exact ⟨tail, p, htail, hp, hday⟩

/-! ### What is shown -/

variable {text : String} {time : DateTime}

/-- A text that is shown as a time holds no NUL. -/
theorem not_mem_of_parse (h : parse text = some time) : '\x00' ∉ text.toList := by
  obtain ⟨tail, p, htail, hread, -⟩ := exists_layout_of_parse h
  obtain ⟨before, after, hsplit, hbefore, hafter⟩ := exists_trimBlanks text.toList
  have hnul : .mark '\x00' ∉ Layout.plainDay ++ tail := by
    rw [List.mem_append]
    exact fun hmem => hmem.elim (by decide) htail.nul
  rw [hsplit, List.mem_append, List.mem_append]
  rintro (hmem | hmem | hmem)
  · exact absurd (hbefore _ hmem) (by decide)
  · exact not_mem_of_readFrom hnul hread hmem
  · exact absurd (hafter _ hmem) (by decide)

/-- A text that is shown as a time begins with a year and a hyphen. -/
theorem beginsWithNumber_of_parse (h : parse text = some time) :
    ∃ rest, BeginsWithNumber text.toList ('-' :: rest) := by
  obtain ⟨tail, p, -, hread, -⟩ := exists_layout_of_parse h
  obtain ⟨before, after, hsplit, hbefore, -⟩ := exists_trimBlanks text.toList
  -- the first two parts of every layout are the year and the hyphen
  obtain ⟨⟨q, cs⟩, hyear, hrest⟩ := bind_eq_ok_iff.1 hread
  obtain ⟨⟨q', cs'⟩, hmark, -⟩ := bind_eq_ok_iff.1 hrest
  obtain ⟨⟨year, cs''⟩, hread, hpair⟩ := bind_eq_ok_iff.1 hyear
  obtain ⟨-, rfl⟩ := Prod.mk.inj (Except.ok.inj hpair)
  obtain ⟨-, rfl⟩ := of_read_mark hmark
  obtain ⟨yearText, hyearText, hskip⟩ := exists_of_readYear hread
  obtain ⟨sign, digits, rfl, hsign, hdigits⟩ := hyearText.exists_digits
  have htrim := @List.takeWhile_append_dropWhile _ isBlank (trimBlanks text.toList)
  have hleading : ∀ c ∈ before ++ (trimBlanks text.toList).takeWhile isBlank,
      isBlank c = true := by
    intro c hc
    exact (List.mem_append.1 hc).elim (hbefore c) fun hc => List.mem_takeWhile_imp hc
  have hbegins := @BeginsWithNumber.mk _ sign digits ('-' :: (cs' ++ after)) hleading hsign
    hdigits.isDigit (fun c hc => by rw [← Option.some.inj hc]; decide)
    fun hnil => absurd hnil hdigits.ne_nil
  refine ⟨cs' ++ after, ?_⟩
  rw [hsplit, ← htrim, show (trimBlanks text.toList).dropWhile isBlank = _ from hskip]
  simpa only [List.append_assoc, List.cons_append] using hbegins

theorem exists_dayDigits_concat (year month day : Nat) :
    ∃ cs c, dayDigits year month day = cs ++ [c] ∧ c.isDigit = true := by
  have hne : padded 2 day ≠ [] := by simp [padded, decimal_ne_nil]
  have hlast := (List.dropLast_append_getLast hne).symm
  refine ⟨padded 4 year ++ '-' :: (padded 2 month ++ '-' :: (padded 2 day).dropLast),
    (padded 2 day).getLast hne, ?_, isDigit_of_mem_padded (List.getLast_mem hne)⟩
  rw [List.append_assoc, List.cons_append, List.append_assoc, List.cons_append, ← hlast]
  rfl

theorem exists_stated_of_isDayAndTime {cs : List Char} {y : Ymd} {t : StatedTime}
    (h : IsDayAndTime cs y t) : ∃ day rest, IsStatedDay day y ∧ cs = day ++ rest := by
  cases h with
  | day hd hs => exact ⟨_, _, hd, rfl⟩
  | time hd hs ht => exact ⟨_, _, hd, rfl⟩

/-- A day in exact widths at the start of a text is not trimmed. -/
theorem trimBlanks_of_isStatedDay {day : List Char} {y : Ymd} (h : IsStatedDay day y)
    (rest : List Char) : trimBlanks (day ++ rest) = day ++ trimEnd rest := by
  cases h with
  | @unsigned year month day hy hm hd =>
    obtain ⟨c, cs, hfirst, hc⟩ := exists_dayDigits_cons year month day
    obtain ⟨ds, d, hlast, hd⟩ := exists_dayDigits_concat year month day
    exact trimBlanks_append (isBlank_of_isDigit hc) (isBlank_of_isDigit hd) hfirst hlast rest
  | @negative year month day hy hm hd =>
    obtain ⟨ds, d, hlast, hd⟩ := exists_dayDigits_concat year month day
    have hlast' : '-' :: dayDigits year month day = ('-' :: ds) ++ [d] :=
      congrArg (List.cons '-') hlast
    exact trimBlanks_append (by decide) (isBlank_of_isDigit hd) rfl hlast' rest

/-- After a day in exact widths the other parts of a layout read on from its numbers. -/
theorem readFrom_of_isStatedDay (tail : Layout) {day : List Char} {y : Ymd}
    (h : IsStatedDay day y) (rest : List Char) (p : DateParts) :
    (Layout.plainDay ++ tail).readFrom p (day ++ rest) =
      tail.readFrom { p with year := y.year, month := y.month, day := y.day } rest := by
  cases h with
  | @unsigned year month day hy hm hd =>
    rw [dayDigits_append]
    exact readFrom_plainDay tail (fun after => readYear_padded hy _) hm hd p
  | @negative year month day hy hm hd =>
    rw [List.cons_append, dayDigits_append]
    have hyear : ∀ after,
        readYear (('-' :: padded 4 year) ++ '-' :: after) = .ok (-(year : Int), '-' :: after) :=
      fun after => readYear_minus (by omega) fun c hc => by rw [← Option.some.inj hc]; decide
    exact readFrom_plainDay tail hyear hm hd p

/-- A text in the written form of the store is shown with the day that it states. -/
theorem eq_ofDay_of_parse (h : parse text = some time) {y : Ymd} {t : StatedTime}
    (hstated : IsDayAndTime text.toList y t) : y = .ofDay time.day := by
  obtain ⟨tail, p, htail, hread, hday⟩ := exists_layout_of_parse h
  obtain ⟨day, rest, hstated, hsplit⟩ := exists_stated_of_isDayAndTime hstated
  have htrim := trimBlanks_of_isStatedDay hstated rest
  -- the stated numbers are in the parts when the tail begins, and the tail leaves them
  rw [hsplit, htrim, readFrom_of_isStatedDay tail hstated] at hread
  have hdate := date_of_readFrom htail.isDate hread
  rw [toDay_eq_ok_iff.1 hday] at hdate
  obtain ⟨hyear, hrest⟩ := Prod.mk.inj hdate
  obtain ⟨hmonth, hday⟩ := Prod.mk.inj hrest
  dsimp only at hyear hmonth hday
  cases y with
  | mk year month day => rw [Ymd.ofDay, hyear, hmonth, hday]

end CrashReports.Timestamp
