import CrashReports.DayRange
import CrashReports.Proofs.Calendar.DayGrammar
import CrashReports.Proofs.Text.Blank

/-!
# What two texts mean as a range

An endpoint is missing, or it names a day, or it is malformed.  Which of the three it is
depends on what stands in its text between the blanks at the ends: on whether there is anything
at all, and on whether that follows the grammar of days.

For every result of reading two endpoints as a range it is said exactly when it comes about
(`DayRange.parse_outcome_iff`).  The four cases state the order in which faults are reported: a
malformed start, a malformed end, a missing end, ends in the wrong order.

The texts of two days make the same range as the days themselves and as two times on them
(`DayRange.constructors_agree`).
-/

namespace CrashReports.DayRange

open Text

/-- There is no text, or nothing but blanks. -/
def IsMissing (endpoint : Option String) : Prop :=
  ∀ text ∈ endpoint, ∀ c ∈ text.toList, isBlank c = true

/-- There is a text of a day between blanks. -/
def Names (endpoint : Option String) (d : Day) : Prop :=
  ∃ text ∈ endpoint, ∃ cs, Trims text.toList cs ∧ IsDayText cs d

/-- There is something else than a text of a day between blanks. -/
def IsMalformed (endpoint : Option String) (found : String) : Prop :=
  ∃ text ∈ endpoint, Trims text.toList found.toList ∧ found.toList ≠ [] ∧
    ∀ d, ¬ IsDayText found.toList d

/-! ### Endpoints -/

section Endpoint

variable {text : String} {d : Day}

theorem isMissing_some_iff : IsMissing (some text) ↔ trimBlanks text.toList = [] := by
  rw [trimBlanks_eq_nil_iff]
  simp [IsMissing]

theorem names_some_iff : Names (some text) d ↔ IsDayText (trimBlanks text.toList) d := by
  constructor
  · rintro ⟨_, hmem, cs, htrims, htext⟩
    obtain rfl := Option.some.inj hmem
    rwa [trimBlanks_eq_iff.2 htrims]
  · exact fun h => ⟨text, rfl, _, trims_trimBlanks _, h⟩

theorem isMalformed_some_iff {found : String} :
    IsMalformed (some text) found ↔ found = String.ofList (trimBlanks text.toList) ∧
      trimBlanks text.toList ≠ [] ∧ ∀ d, ¬ IsDayText (trimBlanks text.toList) d := by
  constructor
  · rintro ⟨_, hmem, htrims, hne, hnone⟩
    obtain rfl := Option.some.inj hmem
    rw [trimBlanks_eq_iff.2 htrims, String.ofList_toList]
    exact ⟨rfl, hne, hnone⟩
  · rintro ⟨rfl, hne, hnone⟩
    refine ⟨text, rfl, ?_⟩
    rw [String.toList_ofList]
    exact ⟨trims_trimBlanks _, hne, hnone⟩

/-- What stands between blanks has no blanks at its start that could be passed over. -/
theorem parsePlain_trimBlanks :
    Day.parsePlain (trimBlanks text.toList) = .ok d ↔ IsDayText (trimBlanks text.toList) d := by
  have hskip : skipBlanks (trimBlanks text.toList) = trimBlanks text.toList := by
    cases htrimmed : trimBlanks text.toList with
    | nil => rfl
    | cons c rest =>
      have hc : isBlank c = false := (trims_trimBlanks text.toList).head c (by simp [htrimmed])
      exact skipBlanks_cons_of_not_isBlank hc rest
  rw [Day.parsePlain_eq_ok_iff, hskip]

/-- The written form of a day names that day, and blanks around it make no difference. -/
theorem names_of_frames (h : Frames text.toList (toString d).toList) : Names (some text) d := by
  rw [show (toString d).toList = d.render from String.toList_ofList] at h
  have htext := isDayText_render d
  refine ⟨_, rfl, d.render, ?_, htext⟩
  exact ⟨h, htext.trims.head, htext.trims.last⟩

theorem names_toString (d : Day) : Names (some (toString d)) d :=
  names_of_frames ⟨[], [], by simp, by simp, by simp⟩

end Endpoint

/-- Reading an endpoint looks at what stands between the blanks at its ends. -/
theorem parseEndpoint_some (text : String) :
    parseEndpoint (some text) =
      if trimBlanks text.toList = [] then .ok none
      else match Day.parsePlain (trimBlanks text.toList) with
        | .ok d => .ok (some d)
        | .error _ => .error (.malformed (String.ofList (trimBlanks text.toList))) := by
  rw [parseEndpoint]
  cases trimBlanks text.toList with
  | nil => rfl
  | cons c cs => rfl

theorem parseEndpoint_eq_none_iff {endpoint : Option String} :
    parseEndpoint endpoint = .ok none ↔ IsMissing endpoint := by
  cases endpoint with
  | none => simp [parseEndpoint, IsMissing]
  | some text =>
    rw [isMissing_some_iff, parseEndpoint_some]
    split
    case isTrue hnil => simp [hnil]
    case isFalse hne =>
      cases Day.parsePlain (trimBlanks text.toList) <;> simp [hne]

theorem parseEndpoint_eq_some_iff {endpoint : Option String} {d : Day} :
    parseEndpoint endpoint = .ok (some d) ↔ Names endpoint d := by
  cases endpoint with
  | none => simp [parseEndpoint, Names]
  | some text =>
    rw [names_some_iff, ← parsePlain_trimBlanks, parseEndpoint_some]
    split
    case isTrue hnil =>
      have hshort : Day.parsePlain [] = .error .short := rfl
      simp [hnil, hshort]
    case isFalse =>
      cases Day.parsePlain (trimBlanks text.toList) <;> simp

theorem parseEndpoint_eq_error_iff {endpoint : Option String} {e : RangeError} :
    parseEndpoint endpoint = .error e ↔
      ∃ found, e = .malformed found ∧ IsMalformed endpoint found := by
  cases endpoint with
  | none => simp [parseEndpoint, IsMalformed]
  | some text =>
    simp only [isMalformed_some_iff, ← parsePlain_trimBlanks, parseEndpoint_some]
    split
    case isTrue hnil => simp [hnil]
    case isFalse hne =>
      cases Day.parsePlain (trimBlanks text.toList) <;> simp [hne, eq_comm]

/-! ### Ranges -/

section Days

variable {first last : Option Day} {d e : Day}

theorem ofDays_eq_ok_iff {r : DayRange} :
    ofDays first last = .ok r ↔ first = some r.start ∧ last = some r.stop := by
  cases first with
  | none => simp [ofDays]
  | some d =>
    cases last with
    | none => simp [ofDays]
    | some e =>
      by_cases h : d ≤ e
      · simp [ofDays, h, DayRange.ext_iff]
      · have hne : ¬ (d = r.start ∧ e = r.stop) := by
          rintro ⟨rfl, rfl⟩
          exact h r.start_le_stop
        simp [ofDays, h, hne]

theorem ofDays_eq_inverted_iff :
    ofDays first last = .error (.inverted d e) ↔ first = some d ∧ last = some e ∧ e < d := by
  cases first with
  | none => simp [ofDays]
  | some d' =>
    cases last with
    | none => simp [ofDays]
    | some e' =>
      by_cases h : d' ≤ e'
      · have hne : ¬ (d' = d ∧ e' = e ∧ e < d) := by
          rintro ⟨rfl, rfl, hlt⟩
          exact Int.not_le.2 hlt h
        simp [ofDays, h, hne]
      · have hlt : e' < d' := Int.not_le.1 h
        have hiff : d' = d ∧ e' = e ↔ d' = d ∧ e' = e ∧ e < d := by
          constructor
          · rintro ⟨rfl, rfl⟩
            exact ⟨rfl, rfl, hlt⟩
          · exact fun h => ⟨h.1, h.2.1⟩
        simp [ofDays, h, hiff]

theorem ofDays_eq_incomplete_iff :
    ofDays first last = .error .incomplete ↔ first = none ∨ last = none := by
  cases first with
  | none => simp [ofDays]
  | some d =>
    cases last with
    | none => simp [ofDays]
    | some e => by_cases h : d ≤ e <;> simp [ofDays, h]

theorem ofDays_ne_malformed (first last : Option Day) (found : String) :
    ofDays first last ≠ .error (.malformed found) := by
  cases first with
  | none => simp [ofDays]
  | some d =>
    cases last with
    | none => simp [ofDays]
    | some e => by_cases h : d ≤ e <;> simp [ofDays, h]

end Days

section Texts

variable {start stop : Option String}

theorem parse_eq_ok_iff {r : DayRange} :
    parse start stop = .ok r ↔ Names start r.start ∧ Names stop r.stop := by
  simp only [parse, bind_eq_ok_iff, ofDays_eq_ok_iff, ← parseEndpoint_eq_some_iff]
  constructor
  · rintro ⟨_, hfirst, _, hlast, rfl, rfl⟩
    exact ⟨hfirst, hlast⟩
  · rintro ⟨hfirst, hlast⟩
    exact ⟨_, hfirst, _, hlast, rfl, rfl⟩

/-- Texts of days make the range that the days make. -/
theorem parse_eq_ofDays {d e : Day} (hd : Names start d) (he : Names stop e) :
    parse start stop = ofDays (some d) (some e) := by
  rw [parse, parseEndpoint_eq_some_iff.2 hd, parseEndpoint_eq_some_iff.2 he]
  rfl

/-- The texts that are handed to a source are those of the range. -/
theorem parse_bounds (r : DayRange) : parse (some r.bounds.1) (some r.bounds.2) = .ok r :=
  parse_eq_ok_iff.2 ⟨names_toString r.start, names_toString r.stop⟩

/-- An error other than a malformed endpoint is one of two endpoints that were read. -/
theorem parse_eq_error_iff {e : RangeError} (he : ∀ found, e ≠ .malformed found) :
    parse start stop = .error e ↔ ∃ first last, parseEndpoint start = .ok first ∧
      parseEndpoint stop = .ok last ∧ ofDays first last = .error e := by
  have hendpoint (endpoint : Option String) : parseEndpoint endpoint ≠ .error e := by
    rw [ne_eq, parseEndpoint_eq_error_iff]
    rintro ⟨found, rfl, -⟩
    exact he found rfl
  simp only [parse, bind_eq_error_iff, hendpoint, false_or]
  constructor
  · rintro ⟨first, hfirst, last, hlast, h⟩
    exact ⟨first, last, hfirst, hlast, h⟩
  · rintro ⟨first, last, hfirst, hlast, h⟩
    exact ⟨first, hfirst, last, hlast, h⟩

theorem parse_eq_inverted_iff {d e : Day} :
    parse start stop = .error (.inverted d e) ↔ Names start d ∧ Names stop e ∧ e < d := by
  rw [parse_eq_error_iff (by simp)]
  simp only [ofDays_eq_inverted_iff, ← parseEndpoint_eq_some_iff]
  constructor
  · rintro ⟨_, _, hfirst, hlast, rfl, rfl, hlt⟩
    exact ⟨hfirst, hlast, hlt⟩
  · rintro ⟨hfirst, hlast, hlt⟩
    exact ⟨_, _, hfirst, hlast, rfl, rfl, hlt⟩

theorem exists_parseEndpoint_iff {endpoint : Option String} :
    (∃ d?, parseEndpoint endpoint = .ok d?) ↔ ∀ found, ¬ IsMalformed endpoint found := by
  have hmalformed (found : String) :
      IsMalformed endpoint found ↔ parseEndpoint endpoint = .error (.malformed found) := by
    simp [parseEndpoint_eq_error_iff]
  simp only [hmalformed]
  cases h : parseEndpoint endpoint with
  | ok d? => simp
  | error e =>
    obtain ⟨found, rfl, -⟩ := parseEndpoint_eq_error_iff.1 h
    simp

theorem parse_eq_incomplete_iff :
    parse start stop = .error .incomplete ↔
      (∀ found, ¬ IsMalformed start found) ∧ (∀ found, ¬ IsMalformed stop found) ∧
        (IsMissing start ∨ IsMissing stop) := by
  rw [parse_eq_error_iff (by simp)]
  simp only [ofDays_eq_incomplete_iff, ← parseEndpoint_eq_none_iff, ← exists_parseEndpoint_iff]
  constructor
  · rintro ⟨first, last, hfirst, hlast, hnone⟩
    refine ⟨⟨first, hfirst⟩, ⟨last, hlast⟩, hnone.imp ?_ ?_⟩
    · rintro rfl
      exact hfirst
    · rintro rfl
      exact hlast
  · rintro ⟨⟨first, hfirst⟩, ⟨last, hlast⟩, hnone⟩
    refine ⟨first, last, hfirst, hlast, hnone.imp ?_ ?_⟩
    · exact fun h => Except.ok.inj (hfirst.symm.trans h)
    · exact fun h => Except.ok.inj (hlast.symm.trans h)

theorem parse_eq_malformed_iff {found : String} :
    parse start stop = .error (.malformed found) ↔
      IsMalformed start found ∨ (∀ f, ¬ IsMalformed start f) ∧ IsMalformed stop found := by
  have hmalformed (endpoint : Option String) : IsMalformed endpoint found ↔
      parseEndpoint endpoint = .error (.malformed found) := by
    simp [parseEndpoint_eq_error_iff]
  simp only [parse, bind_eq_error_iff, ofDays_ne_malformed, and_false, exists_false, or_false,
    ← exists_parseEndpoint_iff, hmalformed, exists_and_right]

end Texts

/-- When each result of reading two endpoints as a range comes about.  A malformed start is
reported before a malformed end, and either before an endpoint that is missing; two days are
a range if they are in order. -/
theorem parse_outcome_iff (start stop : Option String) :
    (∀ found, parse start stop = .error (.malformed found) ↔
        IsMalformed start found ∨ (∀ f, ¬ IsMalformed start f) ∧ IsMalformed stop found) ∧
      (parse start stop = .error .incomplete ↔
        (∀ f, ¬ IsMalformed start f) ∧ (∀ f, ¬ IsMalformed stop f) ∧
          (IsMissing start ∨ IsMissing stop)) ∧
      (∀ d e, parse start stop = .error (.inverted d e) ↔
        Names start d ∧ Names stop e ∧ e < d) ∧
      ∀ r, parse start stop = .ok r ↔ Names start r.start ∧ Names stop r.stop :=
  ⟨fun _ => parse_eq_malformed_iff, parse_eq_incomplete_iff, fun _ _ => parse_eq_inverted_iff,
    fun _ => parse_eq_ok_iff⟩

/-! ### Ranges between two days -/

/-- What two days are as a range: if they are in order, the range between them with their texts
as its bounds, and otherwise an error that names both. -/
structure IsRangeBetween (result : Except RangeError DayRange) (d e : Day) : Prop where
  ok_iff : (∃ r, result = .ok r) ↔ d ≤ e
  ends : ∀ r, result = .ok r → r.start = d ∧ r.stop = e
  bounds : ∀ r, result = .ok r → r.bounds = (toString d, toString e)
  inverted : ¬ d ≤ e → result = .error (.inverted d e)

theorem isRangeBetween_ofDays (d e : Day) : IsRangeBetween (ofDays (some d) (some e)) d e := by
  have hends : ∀ r, ofDays (some d) (some e) = .ok r → r.start = d ∧ r.stop = e := by
    intro r hr
    obtain ⟨hd, he⟩ := ofDays_eq_ok_iff.1 hr
    exact ⟨(Option.some.inj hd).symm, (Option.some.inj he).symm⟩
  refine ⟨⟨fun ⟨r, hr⟩ => ?_, fun h => ⟨⟨d, e, h⟩, ?_⟩⟩, hends, fun r hr => ?_, fun h => ?_⟩
  · obtain ⟨rfl, rfl⟩ := hends r hr
    exact r.start_le_stop
  · exact ofDays_eq_ok_iff.2 ⟨rfl, rfl⟩
  · obtain ⟨rfl, rfl⟩ := hends r hr
    rfl
  · exact ofDays_eq_inverted_iff.2 ⟨rfl, rfl, Int.not_le.1 h⟩

/-- Two days make the same range from their texts, as days, and as the days of two times, whatever
the times of day are and whatever blanks stand around the texts.  So the bounds of a range are
read as that range. -/
theorem constructors_agree (d e : Day) (s t : TimeOfDay) {start stop : String}
    (hstart : Frames start.toList (toString d).toList)
    (hstop : Frames stop.toList (toString e).toList) :
    parse (some start) (some stop) = ofDays (some d) (some e) ∧
      ofDateTimes (some ⟨d, s⟩) (some ⟨e, t⟩) = ofDays (some d) (some e) ∧
      IsRangeBetween (ofDays (some d) (some e)) d e ∧
      ∀ r : DayRange, parse (some r.bounds.1) (some r.bounds.2) = .ok r :=
  ⟨parse_eq_ofDays (names_of_frames hstart) (names_of_frames hstop), rfl,
    isRangeBetween_ofDays d e, parse_bounds⟩

/-- Years with either sign, and times of day against the order of the days. -/
theorem constructors_agree_signedYears :
    parse (some "\t-0044-03-15 ") (some "\u3000+10000-01-01\n") =
        ofDays (some ⟨-44, 3, 15, by decide⟩) (some ⟨10000, 1, 1, by decide⟩) ∧
      ofDateTimes (some ⟨⟨-44, 3, 15, by decide⟩, ⟨23, 59, 59, 1000000005, by decide, by decide,
          by decide, by decide⟩⟩) (some ⟨⟨10000, 1, 1, by decide⟩, .midnight⟩) =
        ofDays (some ⟨-44, 3, 15, by decide⟩) (some ⟨10000, 1, 1, by decide⟩) ∧
      IsRangeBetween (ofDays (some ⟨-44, 3, 15, by decide⟩) (some ⟨10000, 1, 1, by decide⟩))
        ⟨-44, 3, 15, by decide⟩ ⟨10000, 1, 1, by decide⟩ ∧
      ∀ r : DayRange, parse (some r.bounds.1) (some r.bounds.2) = .ok r :=
  constructors_agree _ _ _ _
    ⟨['\t'], [' '], by decide +kernel, List.all_eq_true.1 (by decide),
      List.all_eq_true.1 (by decide)⟩
    ⟨['\u3000'], ['\n'], by decide +kernel, List.all_eq_true.1 (by decide),
      List.all_eq_true.1 (by decide)⟩

/-- A sign allows for a fifth digit of the year, and blanks may stand before a day. -/
example : parse (some " +02024-5- 1 ") (some "2024-05-07 ") =
    .ok ⟨⟨2024, 5, 1, by decide⟩, ⟨2024, 5, 7, by decide⟩, by decide⟩ := by decide +kernel

end CrashReports.DayRange
