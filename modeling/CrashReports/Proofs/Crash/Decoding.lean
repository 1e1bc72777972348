import CrashReports.Crash.Json
import CrashReports.Proofs.Calendar.RoundTrip
import CrashReports.Proofs.Json.RoundTrip
import CrashReports.Proofs.Outcome

/-!
# Crash data survives its JSON text

Each decoder is the inverse of its writer: what is written as JSON text is read from it again
as the same value (`decode_render_toJson`).  The one exception is the time of a crash in a second
that was inserted in the course of a minute, which has no text of its own
(`earlySecond_read_as_next`).

This is said first for a decoder and a writer of any type (`Reads`), and follows the way in which
the types are made up: texts, numbers, days and date-times, then lists and fields that may be
`null`, and at last the records, whose members are taken one by one.
-/

namespace CrashReports

open Json (Decoder parsed parsedItems)

namespace Json.Decoder

variable {α : Type} {f : Decoder α} {g : α → Json}

/-- A decoder reads what a writer has written. -/
def Reads (f : Decoder α) (g : α → Json) : Prop :=
  ∀ x, f (parsed (g x)) = .ok x

/-! ### Members -/

@[simp]
theorem once_none (field : String) (v : Parsed) : once field none f v = (f v).map some :=
  rfl

@[simp]
theorem required_some (field : String) (x : α) : required field (some x) = .ok x :=
  rfl

section Members

variable {σ : Type} (step : String → Parsed → σ → Except DecodeError σ)

@[simp]
theorem members_nil (s : σ) : members step true [] s = .ok s :=
  rfl

@[simp]
theorem members_cons (key : String) (v : Parsed) (ms : List (Option String × Parsed)) (s : σ) :
    members step true ((some key, v) :: ms) s = step key v s >>= members step true ms :=
  rfl

end Members

/-! ### Parts of records -/

@[simp]
theorem string_string (s : String) : Decoder.string (.string s) = .ok s :=
  rfl

theorem value_integerNumeral {n : Nat} (h : n < UInt64.size) :
    (integerNumeral n).value = .integer n := by
  simp [Numeral.value, integerNumeral, Numeral.isPlain, Text.digitsValue_decimal, h]

theorem reads_word : Reads word fun n => .integer n.toNat := by
  intro n
  have hlt : n.toNat < UInt32.size := n.toNat_lt
  have hvalue := value_integerNumeral (Nat.lt_trans hlt (by decide : UInt32.size < UInt64.size))
  have hbounds : 0 ≤ (n.toNat : Int) ∧ (n.toNat : Int) < UInt32.size :=
    ⟨Int.natCast_nonneg _, Int.ofNat_lt.2 hlt⟩
  simp only [parsed, word, hvalue, if_pos hbounds, Int.natAbs_natCast, UInt32.ofNat_toNat]

theorem reads_day : Reads day Day.toJson := by
  intro d
  simp [Day.toJson, parsed, day, toString, Day.parseLoose_render, Except.mapError]

theorem dateTime_toJson (t : DateTime) : dateTime (parsed t.toJson) = .ok t.asWritten := by
  simp [DateTime.toJson, parsed, dateTime, toString, DateTime.parseLoose_render, Except.mapError]

/-- A field that may be `null` is read as its value is. -/
theorem nullable_ofOption {r : α → α} (h : ∀ x, f (parsed (g x)) = .ok (r x))
    (hnull : ∀ x, parsed (g x) ≠ .null) (x : Option α) :
    nullable f (parsed (Json.ofOption g x)) = .ok (x.map r) := by
  cases x with
  | none => rfl
  | some x =>
    have hx := h x
    have hne := hnull x
    change nullable f (parsed (g x)) = .ok (some (r x))
    generalize parsed (g x) = v at hx hne ⊢
    unfold Decoder.nullable
    split
    case h_1 => exact absurd rfl hne
    case h_2 =>
      rw [hx]
      rfl

theorem reads_nullable (h : Reads f g) (hnull : ∀ x, parsed (g x) ≠ .null) :
    Reads (nullable f) (Json.ofOption g) := by
  intro x
  rw [nullable_ofOption h hnull, Option.map_id']

theorem reads_list (h : Reads f g) : Reads (list f) (Json.ofList g) := by
  intro xs
  change items f true (parsedItems (xs.map g)) = .ok xs
  induction xs with
  | nil => rfl
  | cons x xs ih =>
    simp [parsedItems, items, h x, ih]

end Json.Decoder

open Json Json.Decoder

/-! ### Records -/

/-- The event that the written form of an event names. -/
def Event.asWritten (e : Event) : Event :=
  { e with crashedOn := e.crashedOn.map DateTime.asWritten }

theorem Event.asWritten_eq_iff {e : Event} :
    e.asWritten = e ↔ ∀ t ∈ e.crashedOn, t.time.IsWritable := by
  obtain ⟨id, name, crashedOn, logs⟩ := e
  cases crashedOn with
  | none => simp [asWritten]
  | some t => simp [asWritten, DateTime.asWritten_eq_iff]

theorem Event.decoder_toJson (e : Event) :
    Event.decoder (parsed e.toJson) = .ok e.asWritten := by
  have htime := nullable_ofOption dateTime_toJson (fun _ => nofun) e.crashedOn
  simp [Event.toJson, parsed, parsedMembers, Event.decoder, Event.Draft.take, htime,
    Event.asWritten]

theorem CountRecord.reads : Reads CountRecord.decoder CountRecord.toJson := by
  intro r
  have hday := reads_nullable reads_day (fun _ => nofun) r.crashedOn
  have hcount := reads_word r.crashCount
  simp only [parsed] at hcount
  simp [CountRecord.toJson, parsed, parsedMembers, CountRecord.decoder,
    CountRecord.Draft.take, hday, hcount]

theorem Transcript.reads : Reads Transcript.decoder Transcript.toJson := by
  intro t
  simp [Transcript.toJson, parsed, parsedMembers, Transcript.decoder,
    Transcript.Draft.take]

theorem ContainerKey.reads : Reads ContainerKey.decoder ContainerKey.toJson := by
  intro k
  simp [ContainerKey.toJson, parsed, parsedMembers, ContainerKey.decoder,
    ContainerKey.Draft.take]

theorem Series.reads_counts : Reads Series.countsDecoder (Json.ofList Series.rowToJson) :=
  reads_list (reads_list reads_word)

theorem Series.reads : Reads Series.decoder Series.toJson := by
  intro s
  have hdates := reads_list reads_day s.dates
  have hcontainers := reads_list ContainerKey.reads s.containers
  have hcounts := Series.reads_counts s.counts
  simp [Series.toJson, parsed, parsedMembers, Series.decoder, Series.Draft.take, hdates,
    hcontainers, hcounts]

theorem Report.reads : Reads Report.decoder Report.toJson := by
  intro r
  have htranscripts := reads_list Transcript.reads r.transcripts
  have hseries := Series.reads r.series
  simp [Report.toJson, parsed, parsedMembers, Report.decoder, Report.Draft.take, htranscripts,
    hseries]

/-- An event is read as what it is written as, which is that event if its time is writable. -/
theorem decode_event (e : Event) : decode Event.decoder e.toJson.render = .ok e.asWritten ∧
    (decode Event.decoder e.toJson.render = .ok e ↔ ∀ t ∈ e.crashedOn, t.time.IsWritable) := by
  have hread := decode_render e.decoder_toJson
  refine ⟨hread, ?_⟩
  rw [hread, Except.ok.injEq, Event.asWritten_eq_iff]

/-- Events, daily counts, transcripts, series and reports are read from their JSON text as what
they were: with any text in their strings, any count, rows of any length, days of any year, and
date-times with any fraction and with inserted seconds.  Only a second that was inserted after
any but second 59 is read as the regular second after it. -/
theorem decode_render_toJson :
    (∀ e : Event, decode Event.decoder e.toJson.render = .ok e.asWritten ∧
      (decode Event.decoder e.toJson.render = .ok e ↔
        ∀ t ∈ e.crashedOn, t.time.IsWritable)) ∧
    (∀ r : CountRecord, decode CountRecord.decoder r.toJson.render = .ok r) ∧
    (∀ t : Transcript, decode Transcript.decoder t.toJson.render = .ok t) ∧
    (∀ s : Series, decode Series.decoder s.toJson.render = .ok s) ∧
    ∀ r : Report, decode Report.decoder r.toJson.render = .ok r :=
  ⟨fun e => decode_event e, fun r => decode_render (CountRecord.reads r),
    fun t => decode_render (Transcript.reads t), fun s => decode_render (Series.reads s),
    fun r => decode_render (Report.reads r)⟩

/-- A crash in a second that was inserted after 23:56:04. -/
def earlySecond : Event :=
  ⟨"web", "web", some ⟨⟨2024, 6, 30, by decide⟩, ⟨23, 56, 4, 1333333333, by decide, by decide,
    by decide, by decide⟩⟩, "x"⟩

/-- A crash at the same place of the second after that. -/
def nextSecond : Event :=
  ⟨"web", "web", some ⟨⟨2024, 6, 30, by decide⟩, ⟨23, 56, 5, 333333333, by decide, by decide,
    by decide, by decide⟩⟩, "x"⟩

/-- The two crashes have one text, which is read as the second one. -/
theorem earlySecond_read_as_next :
    earlySecond.toJson = nextSecond.toJson ∧
      decode Event.decoder earlySecond.toJson.render = .ok nextSecond ∧
      nextSecond ≠ earlySecond :=
  ⟨by rfl, (decode_event earlySecond).1, by decide⟩

end CrashReports
