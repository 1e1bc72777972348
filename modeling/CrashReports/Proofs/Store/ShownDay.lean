import CrashReports.Proofs.Store.Fetch
import CrashReports.Proofs.Store.Timestamp

/-!
# The day that an event shows

An event shows the time that its text is read as; the fetches find its row on the day that
the store reads from the same text.  The two days agree exactly if the text is in the
written form of the store and its time keeps the stated day (`fetched_on_shown_day_iff`).
A zone that moves the time to another day of universal time is what sets them apart.
-/

namespace CrashReports.Store

open Text

/-! ### The day of a shown text -/

section Shown

variable {now : Int} {text : String} {time : DateTime}

/-- A text with a day is ASCII. -/
theorem isPlainText_of_dayOfText {cs : List Char} {y : Ymd} (h : dayOfText now cs = some y) :
    IsPlainText cs := by
  cases hasDay_of_dayOfText h with
  | stated hstated hday => exact hstated.isPlainText
  | time htime => exact htime.isPlainText
  | word hword hday => exact isPlainText_of_asksForNow hword
  | number hnumber hday => exact (beginsWithNumber_of_readNumber hnumber).1

/-- What is shown begins with a number and a hyphen, and nothing else. -/
theorem false_of_parse (hparse : Timestamp.parse text = some time) {tail : List Char}
    (h : BeginsWithNumber text.toList tail) (hhead : tail.head? ≠ some '-') : False := by
  obtain ⟨rest, hbegins⟩ := Timestamp.beginsWithNumber_of_parse hparse
  rw [h.unique hbegins] at hhead
  exact hhead rfl

/-- What is shown has a hyphen, and a word for the current time has none. -/
theorem not_asksForNow_of_parse (hparse : Timestamp.parse text = some time) :
    ¬ asksForNow text.toList = true := by
  intro hword
  obtain ⟨rest, hbegins⟩ := Timestamp.beginsWithNumber_of_parse hparse
  have hhyphen : '-' ∈ text.toList := by
    generalize text.toList = cs at hbegins ⊢
    cases hbegins
    simp
  exact (ne_marks_of_asksForNow hword hhyphen).1 rfl

/-- A shown text that has a day is in the written form of the store, and states the day that it
shows. -/
theorem exists_isDayAndTime_of_dayOfText (hparse : Timestamp.parse text = some time) {y : Ymd}
    (h : dayOfText now text.toList = some y) :
    ∃ st, IsDayAndTime text.toList (.ofDay time.day) st ∧
      dayOfStated (.ofDay time.day) st = some y := by
  cases hasDay_of_dayOfText h with
  | stated hstated hday =>
    obtain rfl := Timestamp.eq_ofDay_of_parse hparse hstated
    exact ⟨_, hstated, hday⟩
  -- a time alone and a number do not go on with a hyphen, as a shown time does
  | time htime =>
    obtain ⟨rest, hbegins⟩ := htime.beginsWithNumber
    exact (false_of_parse hparse hbegins (by simp)).elim
  | word hword hday => exact absurd hword (not_asksForNow_of_parse hparse)
  | number hnumber hday =>
    obtain ⟨-, tail, hbegins, hhead⟩ := beginsWithNumber_of_readNumber hnumber
    exact (false_of_parse hparse hbegins hhead).elim

theorem dayOfText_eq_ofDay_iff (hparse : Timestamp.parse text = some time)
    (hplain : time.day.IsPlain) :
    dayOfText now text.toList = some (.ofDay time.day) ↔
      ∃ st, IsDayAndTime text.toList (.ofDay time.day) st ∧ st.KeepsDay time.day := by
  constructor
  · intro h
    obtain ⟨st, hstated, hday⟩ := exists_isDayAndTime_of_dayOfText hparse h
    exact ⟨st, hstated, (dayOfStated_eq_some_iff hplain hstated.isBounded).1 hday⟩
  · rintro ⟨st, hstated, hkeeps⟩
    rw [dayOfText_of_isDayAndTime hstated]
    exact (dayOfStated_eq_some_iff hplain hstated.isBounded).2 hkeeps

theorem mem_map_ofNat {bs : List UInt8} {c : Char}
    (h : c ∈ bs.map fun b => Char.ofNat b.toNat) :
    ∃ b ∈ bs, c = Char.ofNat b.toNat ∧ c.toNat = b.toNat := by
  obtain ⟨b, hb, rfl⟩ := List.mem_map.1 h
  have hbyte := b.toNat_lt
  exact ⟨b, hb, rfl, toNat_ofNat_of_valid (by omega)⟩

/-- The store reads the day of bytes as it reads that of their text. -/
theorem day?_bytes_utf8 (hparse : Timestamp.parse text = some time) {y : Ymd} :
    (StampCell.bytes (utf8 text)).day? now = some y ↔ dayOfText now text.toList = some y := by
  have hday : (StampCell.bytes (utf8 text)).day? now =
      dayOfText now (untilNul ((utf8 text).map fun b => Char.ofNat b.toNat)) := rfl
  have hnul : '\x00' ∉ (utf8 text).map fun b => Char.ofNat b.toNat := by
    intro hmem
    obtain ⟨b, hb, heq, hvalue⟩ := mem_map_ofNat hmem
    have hzero : b.toNat = 0 := hvalue.symm
    have htext := mem_of_mem_utf8 hb (by omega)
    rw [← heq] at htext
    exact Timestamp.not_mem_of_parse hparse htext
  rw [hday, untilNul_eq_self hnul]
  -- a text that is not ASCII has no day, neither as it is nor byte by byte
  by_cases hascii : ∀ c ∈ text.toList, c.toNat < 128
  · rw [map_utf8_of_ascii hascii]
  · refine iff_of_false (fun h => hascii (ascii_of_utf8 fun b hb => ?_)) fun h => hascii ?_
    · have hmem : Char.ofNat b.toNat ∈ (utf8 text).map fun b => Char.ofNat b.toNat :=
        List.mem_map_of_mem hb
      have hbyte := b.toNat_lt
      have hplain := (isPlainText_of_dayOfText h _ hmem).2
      rw [toNat_ofNat_of_valid (by omega)] at hplain
      exact hplain
    · exact fun c hc => (isPlainText_of_dayOfText h c hc).2

/-- The store reads the day of a shown time from its text, in whatever form it is stored. -/
theorem day?_eq_some_iff_dayOfText {c : StampCell} (hread : readStamp c = .ok text)
    (hparse : Timestamp.parse text = some time) {y : Ymd} :
    c.day? now = some y ↔ dayOfText now text.toList = some y := by
  have hbytes := readStamp_eq_ok_iff.1 hread
  cases c with
  | number n =>
    -- a number is shown only if its text is a time, and that it never is
    obtain rfl : text = n.render := (utf8_inj.1 hbytes).symm
    obtain ⟨tail, hbegins, hhead⟩ := beginsWithNumber_render n
    exact (false_of_parse hparse hbegins hhead).elim
  | text s =>
    obtain rfl : s = text := utf8_inj.1 hbytes
    have hday : (StampCell.text s).day? now = dayOfText now (untilNul s.toList) := rfl
    rw [hday, untilNul_eq_self (Timestamp.not_mem_of_parse hparse)]
  | broken t => exact absurd hbytes.symm (utf8_ne_bytes text t)
  | bytes bs =>
    obtain rfl : bs = utf8 text := hbytes
    exact day?_bytes_utf8 hparse

/-- The store finds a shown time on the day it shows exactly if its text is in the written
form of the store and its time keeps the day. -/
theorem day?_eq_ofDay_iff {c : StampCell} (hread : readStamp c = .ok text)
    (hparse : Timestamp.parse text = some time) (hplain : time.day.IsPlain) :
    c.day? now = some (.ofDay time.day) ↔
      ∃ st, IsDayAndTime text.toList (.ofDay time.day) st ∧ st.KeepsDay time.day := by
  rw [day?_eq_some_iff_dayOfText hread hparse, dayOfText_eq_ofDay_iff hparse hplain]

end Shown

/-! ### The days on which a row is fetched -/

/-- Both fetches take a row for exactly the ranges that contain a day, and count it on that
day alone, exactly if the store finds it on that day. -/
theorem fetched_on_day_iff {now : Int} {t : Table} {row : Row} (hrow : row ∈ t.rows) {d : Day}
    (hd : d.IsPlain) :
    (∀ r : DayRange, r.IsPlain → (row ∈ eventRows now t r ↔ r.Contains d) ∧
        ∀ y, IsCountedOn now t r row y ↔ y = .ofDay d ∧ r.Contains d) ↔
      row.crashedOn.day? now = some (.ofDay d) := by
  constructor
  · intro h
    -- the range of that day alone is enough
    have hrange : DayRange.IsPlain ⟨d, d, Int.le_refl _⟩ := ⟨hd, hd⟩
    have hcontains : DayRange.Contains ⟨d, d, Int.le_refl _⟩ d := ⟨Int.le_refl _, Int.le_refl _⟩
    have hcounted := ((h _ hrange).2 (.ofDay d)).2 ⟨rfl, hcontains⟩
    exact ((isCountedOn_iff _ _ _).1 hcounted).2.1
  · intro hday r hr
    have hwithin := withinText_iff_contains hr hd
    constructor
    · rw [mem_eventRows_of_day now t r hrow hday, hwithin]
    · intro y
      rw [isCountedOn_of_day now t r hrow hday, hwithin]

/-- Both fetches take a row for the ranges that contain the day it shows, and count it on
that day, exactly if its text is in the written form of the store and its time keeps the
day. -/
theorem fetched_on_shown_day_iff {now : Int} {t : Table} {row : Row} (hrow : row ∈ t.rows)
    {text : String} {time : DateTime} (hread : readStamp row.crashedOn = .ok text)
    (hparse : Timestamp.parse text = some time) (hplain : time.day.IsPlain) :
    (∀ r : DayRange, r.IsPlain → (row ∈ eventRows now t r ↔ r.Contains time.day) ∧
        ∀ y, IsCountedOn now t r row y ↔ y = .ofDay time.day ∧ r.Contains time.day) ↔
      ∃ st, IsDayAndTime text.toList (.ofDay time.day) st ∧ st.KeepsDay time.day := by
  rw [fetched_on_day_iff hrow hplain]
  exact day?_eq_ofDay_iff hread hparse hplain

/-- A crash at half past midnight, two hours ahead of universal time. -/
def nightRow : Row :=
  ⟨1, .text "web", .text "web", .text "x", .text "2024-07-03 00:30:00+02:00"⟩

/-- A crash later on that day. -/
def morningRow : Row :=
  ⟨2, .text "web", .null, .text "y", .text "2024-07-03T08:30:00.250+02:00"⟩

/-- The table of both crashes. -/
def zonedTable : Table := ⟨[nightRow, morningRow], by simp [nightRow, morningRow]⟩

/-- The day that both crashes show. -/
def zonedDay : Day := ⟨2024, 7, 3, by decide⟩

/-- The range of that day alone. -/
def zonedRange : DayRange := ⟨zonedDay, zonedDay, by decide⟩

/-- What the later crash shows. -/
def morningTime : DateTime :=
  ⟨zonedDay, (TimeOfDay.ofParts? 8 30 0 250000000).get (by decide)⟩

/-- What the crash at night shows. -/
def nightTime : DateTime :=
  ⟨zonedDay, (TimeOfDay.ofParts? 0 30 0 0).get (by decide)⟩

theorem fetched_on_shown_day_morningRow :
    morningRow ∈ zonedTable.rows ∧
      readStamp morningRow.crashedOn = .ok "2024-07-03T08:30:00.250+02:00" ∧
      Timestamp.parse "2024-07-03T08:30:00.250+02:00" = some morningTime ∧
      morningTime.day.IsPlain ∧
      ((∀ r : DayRange, r.IsPlain →
          (morningRow ∈ eventRows noon zonedTable r ↔ r.Contains morningTime.day) ∧
          ∀ y, IsCountedOn noon zonedTable r morningRow y ↔
            y = .ofDay morningTime.day ∧ r.Contains morningTime.day) ↔
        ∃ st, IsDayAndTime "2024-07-03T08:30:00.250+02:00".toList (.ofDay morningTime.day) st ∧
          st.KeepsDay morningTime.day) := by
  have hrow : morningRow ∈ zonedTable.rows := List.mem_cons_of_mem _ (List.mem_singleton_self _)
  have hread : readStamp morningRow.crashedOn = .ok "2024-07-03T08:30:00.250+02:00" :=
    readStamp_eq_ok_iff.2 rfl
  have hparse : Timestamp.parse "2024-07-03T08:30:00.250+02:00" = some morningTime := by
    decide +kernel
  have hplain : morningTime.day.IsPlain := by decide
  exact ⟨hrow, hread, hparse, hplain, fetched_on_shown_day_iff hrow hread hparse hplain⟩

/-- The crash at night is neither returned for the day it shows nor counted on it. -/
theorem nightRow_not_fetched :
    nightRow ∈ zonedTable.rows ∧
      readStamp nightRow.crashedOn = .ok "2024-07-03 00:30:00+02:00" ∧
      Timestamp.parse "2024-07-03 00:30:00+02:00" = some nightTime ∧
      zonedRange.IsPlain ∧ zonedRange.Contains nightTime.day ∧
      (⟨some zonedTable, noon⟩ : Store).events zonedRange =
        .ok [⟨"web", "", some morningTime, "y"⟩] ∧
      (⟨some zonedTable, noon⟩ : Store).counts zonedRange =
        .ok [⟨"web", "", some zonedDay, 1⟩] := by
  have hrows : eventRows noon zonedTable zonedRange = [morningRow] := by decide +kernel
  have hshown : some morningTime = Timestamp.parse "2024-07-03T08:30:00.250+02:00" := by
    decide +kernel
  have hevent : readEvent morningRow = .ok ⟨"web", "", some morningTime, "y"⟩ :=
    readEvent_eq_ok_iff.2 ⟨rfl, rfl, rfl, _, readStamp_eq_ok_iff.2 rfl, hshown⟩
  refine ⟨List.mem_cons_self, readStamp_eq_ok_iff.2 rfl, by decide +kernel, by decide, by decide,
    ?_, by decide +kernel⟩
  rw [events_eq, hrows, mapM_eq_ok_iff]
  exact .cons hevent .nil

end CrashReports.Store
