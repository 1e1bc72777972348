import CrashReports.Proofs.Store.Fetch
import CrashReports.Proofs.Store.WrittenStamp
import CrashReports.Proofs.Text.Utf8

/-!
# Rows as the monitor writes them

A plain crash has a container, a time of whole seconds between the years 0 and 9999, and
perhaps a name and a log.  Its row keeps the time as text, `YYYY-MM-DD HH:MM:SS`.  The
store finds such a row on the day of the crash, orders such rows by time, and reads each
of them.
-/

namespace CrashReports.Store

open Text

/-- A crash as the monitor records it. -/
structure PlainCrash where
  number : Int
  containerId : String
  containerName : Option String
  logs : Option String
  time : DateTime
  isPlain : time.day.IsPlain
  nano_eq : time.time.nano = 0

namespace PlainCrash

/-- The day of a crash. -/
def day (c : PlainCrash) : Day :=
  c.time.day

/-- The name that is shown for a crash. -/
def name (c : PlainCrash) : String :=
  c.containerName.getD ""

/-- The log that is shown for a crash. -/
def log (c : PlainCrash) : String :=
  c.logs.getD ""

/-- The time of a crash as it is stored. -/
def stamp (c : PlainCrash) : List Char :=
  c.time.renderWith ' '

/-- A column that may be missing. -/
def cell : Option String → TextCell
  | none => .null
  | some s => .text s

/-- The row of a crash. -/
def row (c : PlainCrash) : Row :=
  ⟨c.number, .text c.containerId, cell c.containerName, cell c.logs,
    .text (String.ofList c.stamp)⟩

/-- The seconds up to a crash, in a calendar whose months all have 31 days. -/
def moment (c : PlainCrash) : Int :=
  c.time.day.rank * 86400 + c.time.time.seconds

theorem seconds_lt (c : PlainCrash) : c.time.time.seconds < 86400 := by
  have := c.time.time.hour_lt
  have := c.time.time.minute_lt
  have := c.time.time.second_lt
  unfold TimeOfDay.seconds
  omega

/-! ### The stored time -/

theorem time_render (c : PlainCrash) :
    c.time.time.render =
      padded 2 c.time.time.hour ++ ':' :: (padded 2 c.time.time.minute ++
        ':' :: padded 2 c.time.time.second) := by
  rw [TimeOfDay.render, TimeOfDay.renderFraction, TimeOfDay.shownSecond, TimeOfDay.shownNano,
    c.nano_eq, if_pos rfl]
  simp

/-- The stored time is a day and a time in written form, without a zone. -/
theorem isDayAndTime_stamp (c : PlainCrash) :
    IsDayAndTime c.stamp (.ofDay c.day) ⟨c.time.time.seconds * 1000, 0⟩ := by
  have hhour := c.time.time.hour_lt
  have hminute := c.time.time.minute_lt
  have hsecond := c.time.time.second_lt
  have htime := IsTime.mk (show c.time.time.hour ≤ 24 by omega)
    (show c.time.time.minute ≤ 59 by omega)
    (IsSeconds.whole (show c.time.time.second ≤ 59 by omega))
    (IsZone.missing fun _ h => absurd h List.not_mem_nil)
  rw [List.append_nil, ← time_render] at htime
  have hmillis : c.time.time.hour * 3600000 + c.time.time.minute * 60000 +
      c.time.time.second * 1000 = c.time.time.seconds * 1000 := by
    unfold TimeOfDay.seconds
    omega
  rw [hmillis] at htime
  have hblank : IsSeparatorText [' '] := by
    intro d hd
    rw [List.mem_singleton.1 hd]
    rfl
  exact .time (isStatedDay_render c.isPlain) hblank htime

/-- The store finds the row of a crash on the day of the crash. -/
@[simp]
theorem day?_row (c : PlainCrash) (now : Int) : c.row.crashedOn.day? now = some (.ofDay c.day) := by
  have hstamp : IsDayAndTime (String.ofList c.stamp).toList (.ofDay c.day)
      ⟨c.time.time.seconds * 1000, 0⟩ := by
    rw [String.toList_ofList]
    exact c.isDayAndTime_stamp
  apply (day?_text_eq_some_iff c.isPlain hstamp).2
  have hseconds := c.seconds_lt
  -- the one day that is lost is the first of a month, and those are taken as they are
  by_cases hday : c.day.day ≤ 28
  · exact .inl ⟨rfl, hday⟩
  · refine .inr ⟨?_, ?_, fun hmarch => hday ?_⟩
    · dsimp only
      omega
    · unfold dayMillis
      dsimp only
      omega
    · have hfirst : (Ymd.ofDay c.time.day).day = 1 := by rw [hmarch]
      exact Nat.le_trans (Nat.le_of_eq hfirst) (by decide)

theorem readStamp_row (c : PlainCrash) : readStamp c.row.crashedOn = .ok (String.ofList c.stamp) :=
  readStamp_eq_ok_iff.2 rfl

/-! ### The order of stored times -/

theorem length_render {d : Day} (hd : d.IsPlain) : d.render.length = 10 := by
  obtain ⟨hlow, hhigh⟩ := hd
  have hmonth := d.isDay.month_le
  have hday := d.day_le_thirtyOne
  rw [Day.render, renderYmd, renderYear_of_plain ⟨hlow, hhigh⟩]
  simp only [List.length_append, List.length_cons]
  rw [length_padded (by decide) (by omega), length_padded (by decide) (by omega),
    length_padded (by decide) (by omega)]

theorem time_render_lt_iff (a b : PlainCrash) :
    a.time.time.render < b.time.time.render ↔ a.time.time.seconds < b.time.time.seconds := by
  have := a.time.time.hour_lt
  have := a.time.time.minute_lt
  have := a.time.time.second_lt
  have := b.time.time.hour_lt
  have := b.time.time.minute_lt
  have := b.time.time.second_lt
  have hlen : ∀ m n : Nat, m < 60 → n < 60 → (padded 2 m).length = (padded 2 n).length := by
    intro m n hm hn
    rw [length_padded (by decide) (by omega), length_padded (by decide) (by omega)]
  rw [time_render, time_render, append_lt_append_iff (hlen _ _ (by omega) (by omega)),
    padded_lt_padded_iff (by decide) (by omega) (by omega), padded_inj, List.cons_lt_cons_self,
    append_lt_append_iff (hlen _ _ (by omega) (by omega)),
    padded_lt_padded_iff (by decide) (by omega) (by omega), padded_inj, List.cons_lt_cons_self,
    padded_lt_padded_iff (by decide) (by omega) (by omega)]
  unfold TimeOfDay.seconds
  omega

/-- Stored times are ordered as times are. -/
theorem stamp_lt_iff (a b : PlainCrash) : a.stamp < b.stamp ↔ a.moment < b.moment := by
  have hlen : a.time.day.render.length = b.time.day.render.length := by
    rw [length_render a.isPlain, length_render b.isPlain]
  have hequal : a.time.day.render = b.time.day.render ↔ a.time.day.rank = b.time.day.rank := by
    rw [Day.rank_inj]
    constructor
    · intro h
      obtain ⟨hyear, hmonth, hday⟩ := renderYmd_inj.1 h
      exact Day.ext hyear hmonth hday
    · rintro h
      rw [h]
  have ha := a.seconds_lt
  have hb := b.seconds_lt
  -- the texts of days are of the same length, so the times decide only on the same day
  unfold stamp DateTime.renderWith moment
  rw [append_lt_append_iff hlen, hequal, Day.render_lt_of_plain a.isPlain b.isPlain, Day.lt_def,
    List.cons_lt_cons_self, time_render_lt_iff]
  omega

theorem isAscii_stamp (c : PlainCrash) : ∀ d ∈ c.stamp, d.toNat < 128 :=
  fun d hd => (c.isDayAndTime_stamp.isPlainText d hd).2

theorem eventBefore_row (a b : PlainCrash) :
    eventBefore a.row b.row = true ↔ a.moment < b.moment := by
  have hbytes : ∀ c : PlainCrash, c.row.crashedOn.textBytes = utf8 (String.ofList c.stamp) :=
    fun _ => rfl
  rw [eventBefore, decide_eq_true_iff, hbytes, hbytes,
    utf8_lt_iff a.isAscii_stamp b.isAscii_stamp, stamp_lt_iff]

theorem before_row (a b : PlainCrash) :
    a.row.crashedOn.before b.row.crashedOn = true ↔ a.moment < b.moment := by
  have hkind : a.row.crashedOn.kind = b.row.crashedOn.kind := rfl
  have hvalue : a.row.crashedOn.value = b.row.crashedOn.value := rfl
  rw [StampCell.before, if_pos hkind, if_pos hvalue]
  exact eventBefore_row a b

/-! ### Columns and events -/

@[simp]
theorem readColumn_cell (column : String) (s : Option String) :
    readColumn column (cell s) = .ok (s.getD "") := by
  cases s <;> rfl

/-- The event of a crash. -/
def event (c : PlainCrash) : Event :=
  ⟨c.containerId, c.name, Timestamp.parse (String.ofList c.stamp), c.log⟩

theorem readEvent_row (c : PlainCrash) : readEvent c.row = .ok c.event := by
  have hid : readColumn "container_id" c.row.containerId = .ok c.containerId := rfl
  have hname : readColumn "container_name" c.row.containerName = .ok c.name :=
    readColumn_cell _ _
  have hlogs : readColumn "logs" c.row.logs = .ok c.log := readColumn_cell _ _
  have hshown : c.event.crashedOn = Timestamp.parse (String.ofList c.stamp) := by
    simp only [event]
  exact readEvent_eq_ok_iff.2 ⟨hid, hname, hlogs, String.ofList c.stamp, c.readStamp_row, hshown⟩

end PlainCrash

end CrashReports.Store
