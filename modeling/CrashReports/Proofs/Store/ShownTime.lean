import CrashReports.Proofs.Calendar.Fraction
import CrashReports.Proofs.Store.Timestamp
import Mathlib.Data.List.DropRight

/-!
# The time of day that a text shows

If a text in the written form of the store is shown as a time, then what is shown is the time
of day that the text states (`isClock_of_parse`): its hours, minutes and seconds, and the
first nine digits of its fraction.  The two readers differ in what they take for a zone, so
a zone `Z` is never shown, and what follows the fraction comes before a point in the order of
characters: the end of the text, a blank or a sign.
-/

namespace CrashReports.Timestamp

open Text Store

/-! ### The parts of a time -/

theorem exists_isFraction_of_isSeconds {cs : List Char} {millis : Nat} (h : IsSeconds cs millis) :
    cs = [] ∨ ∃ second fraction nano, second ≤ 59 ∧ IsFraction fraction nano ∧
      cs = ':' :: (padded 2 second ++ fraction) := by
  cases h with
  | missing => exact .inl rfl
  | whole h => exact .inr ⟨_, [], 0, h, .missing, by rw [List.append_nil]⟩
  | fraction h hne hd hm => exact .inr ⟨_, _, _, h, .point hne hd, rfl⟩

theorem readWithin_cons_of_isBlank {width low high : Nat} {c : Char} (hc : isBlank c = true)
    (cs : List Char) : readWithin width low high (c :: cs) = readWithin width low high cs := by
  unfold readWithin skipBlanks
  rw [List.dropWhile_cons_of_pos hc]

theorem readWithin_skipBlanks (width low high : Nat) (cs : List Char) :
    readWithin width low high (skipBlanks cs) = readWithin width low high cs := by
  unfold readWithin skipBlanks
  rw [List.dropWhile_idempotent]

/-- If a number is read after separators, then they were blanks. -/
theorem eq_of_readWithin_separators {separators : List Char} (hs : IsSeparatorText separators)
    {high n m : Nat} {rest rest' : List Char} (hn : n < 100)
    (h : readWithin 2 0 high (separators ++ (padded 2 n ++ rest)) = .ok (m, rest')) :
    m = n ∧ rest' = rest := by
  induction separators with
  | nil =>
    rw [List.nil_append] at h
    unfold readWithin at h
    rw [skipBlanks_padded, readDigits_padded (by decide) hn, ok_bind] at h
    dsimp only at h
    split at h
    case isTrue =>
      obtain ⟨rfl, rfl⟩ := Prod.mk.inj (Except.ok.inj h)
      exact ⟨rfl, rfl⟩
    case isFalse => cases h
  | cons c cs ih =>
    rw [List.cons_append] at h
    have hc := hs c List.mem_cons_self
    rw [isDaySeparator, Bool.or_eq_true, beq_iff_eq] at hc
    rcases hc with hblank | rfl
    · rw [readWithin_cons_of_isBlank (isBlank_of_isStoreBlank hblank)] at h
      exact ih (fun d hd => hs d (List.mem_cons_of_mem _ hd)) h
    · unfold readWithin at h
      rw [skipBlanks_cons_of_not_isBlank (by decide)] at h
      cases h

/-- The parts of a time of day. -/
def clock : Layout :=
  [.hour, .mark ':', .minute, .mark ':', .second, .fraction]

/-- A layout has a day alone, or also a gap or a `T`, a time of day and perhaps an offset. -/
theorem exists_clock_of_mem {layout : Layout} (h : layout ∈ layouts) :
    layout = Layout.plainDay ∨ ∃ lead zone, (lead = .gap ∨ lead = .mark 'T') ∧
      (zone = [] ∨ zone = [.offset]) ∧ layout = Layout.plainDay ++ lead :: (clock ++ zone) := by
  simp only [layouts, List.mem_cons, List.not_mem_nil, or_false] at h
  rcases h with rfl | rfl | rfl | rfl | rfl
  · exact .inr ⟨_, _, .inl rfl, .inl rfl, rfl⟩
  · exact .inr ⟨_, _, .inr rfl, .inl rfl, rfl⟩
  · exact .inr ⟨_, _, .inl rfl, .inr rfl, rfl⟩
  · exact .inr ⟨_, _, .inr rfl, .inr rfl, rfl⟩
  · exact .inl rfl

section Parts

variable {layout : Layout} {q p : DateParts} {rest : List Char}

theorem readFrom_hour {separators : List Char} (hs : IsSeparatorText separators) {hour : Nat}
    (hhour : hour ≤ 24)
    (h : Layout.readFrom (.hour :: layout) q (separators ++ (padded 2 hour ++ rest)) = .ok p) :
    layout.readFrom { q with hour := hour } rest = .ok p := by
  obtain ⟨⟨q', tail⟩, hread, hrest⟩ := bind_eq_ok_iff.1 h
  obtain ⟨⟨n, tail'⟩, hnumber, hpair⟩ := bind_eq_ok_iff.1 hread
  obtain ⟨rfl, rfl⟩ := Prod.mk.inj (Except.ok.inj hpair)
  obtain ⟨rfl, rfl⟩ := eq_of_readWithin_separators hs (by omega) hnumber
  exact hrest

/-- A gap stands for blanks, and a `T` for itself and blanks after it. -/
theorem readFrom_lead {lead : LayoutItem} (hlead : lead = .gap ∨ lead = .mark 'T')
    {separators : List Char} (hs : IsSeparatorText separators) {hour : Nat} (hhour : hour ≤ 24)
    (h : Layout.readFrom (lead :: .hour :: layout) q
      (separators ++ (padded 2 hour ++ rest)) = .ok p) :
    layout.readFrom { q with hour := hour } rest = .ok p := by
  obtain ⟨⟨q', tail⟩, hread, hrest⟩ := bind_eq_ok_iff.1 h
  rcases hlead with rfl | rfl
  · obtain ⟨rfl, rfl⟩ := Prod.mk.inj (Except.ok.inj hread)
    apply readFrom_hour hs hhour
    have hskip : ∀ cs, Layout.readFrom (.hour :: layout) q (skipBlanks cs) =
        Layout.readFrom (.hour :: layout) q cs := by
      intro cs
      simp only [Layout.readFrom, LayoutItem.read, readWithin_skipBlanks]
    exact (hskip _).symm.trans hrest
  · obtain ⟨rfl, hmark⟩ := of_read_mark hread
    cases separators with
    | nil =>
      -- digits do not begin with a letter
      obtain ⟨c, cs, hpadded, hc⟩ := exists_padded_cons 2 hour
      rw [List.nil_append, hpadded, List.cons_append] at hmark
      rw [(List.cons.inj hmark).1] at hc
      exact absurd hc (by decide)
    | cons c cs =>
      obtain rfl := List.tail_eq_of_cons_eq hmark
      exact readFrom_hour (fun d hd => hs d (List.mem_cons_of_mem _ hd)) hhour hrest

theorem readFrom_minute {minute : Nat} (hminute : minute ≤ 59) :
    Layout.readFrom (.mark ':' :: .minute :: layout) q (':' :: (padded 2 minute ++ rest)) =
      layout.readFrom { q with minute := minute } rest := by
  have hread := @readWithin_padded 2 0 59 minute (by decide) (by decide) ⟨by omega, hminute⟩ rest
  simp only [Layout.readFrom, LayoutItem.read, hread, bind, Except.bind, pure, Except.pure, if_true]

/-- The seconds of a shown time are not missing. -/
theorem readFrom_second {seconds : List Char} {millis : Nat} (hs : IsSeconds seconds millis)
    (hend : ∀ c ∈ rest.head?, EndsSeconds c)
    (h : Layout.readFrom (.mark ':' :: .second :: .fraction :: layout) q
      (seconds ++ rest) = .ok p) :
    ∃ second fraction nano, second ≤ 59 ∧ IsFraction fraction nano ∧
      seconds = ':' :: (padded 2 second ++ fraction) ∧
      layout.readFrom { q with second := second, nano := nano } rest = .ok p := by
  rcases exists_isFraction_of_isSeconds hs with rfl | ⟨second, fraction, nano, hle, hfraction, rfl⟩
  · obtain ⟨⟨q', tail⟩, hread, -⟩ := bind_eq_ok_iff.1 h
    obtain ⟨-, hmark⟩ := of_read_mark hread
    rw [List.nil_append] at hmark
    exact absurd rfl (hend ':' (hmark ▸ rfl)).1
  · refine ⟨second, fraction, nano, hle, hfraction, rfl, ?_⟩
    have hread := @readWithin_padded 2 0 60 second (by decide) (by decide) ⟨by omega, by omega⟩
      (fraction ++ rest)
    have hnano := readFraction_append hfraction fun c hc => (hend c hc).2
    rw [List.cons_append, List.append_assoc] at h
    simpa only [Layout.readFrom, LayoutItem.read, hread, hnano, bind, Except.bind, pure,
      Except.pure, if_true] using h

theorem of_readFrom_nil (h : Layout.readFrom [] q rest = .ok p) : p = q ∧ rest = [] := by
  cases rest with
  | nil =>
    obtain rfl := Except.ok.inj h
    exact ⟨rfl, rfl⟩
  | cons c cs => cases h

/-- After a time of day there is nothing to be read but an offset, which is no `Z`. -/
theorem readFrom_zone {zone : Layout} (hzone : zone = [] ∨ zone = [.offset])
    (h : zone.readFrom q rest = .ok p) :
    (∃ offset, p = { q with offset := offset }) ∧ ∀ c ∈ rest.head?, c ≠ 'Z' ∧ c ≠ 'z' := by
  rcases hzone with rfl | rfl
  · obtain ⟨rfl, rfl⟩ := of_readFrom_nil h
    exact ⟨⟨p.offset, rfl⟩, by simp⟩
  · obtain ⟨⟨q', tail⟩, hread, hnil⟩ := bind_eq_ok_iff.1 h
    obtain ⟨⟨offset, tail'⟩, hoffset, hpair⟩ := bind_eq_ok_iff.1 hread
    obtain ⟨rfl, rfl⟩ := Prod.mk.inj (Except.ok.inj hpair)
    constructor
    · exact ⟨offset, (of_readFrom_nil hnil).1⟩
    · -- a letter is no blank, and it is not a sign either
      have hletter : ∀ c cs, c = 'Z' ∨ c = 'z' →
          CrashReports.readOffset (c :: cs) = .error .invalid := by
        rintro c cs (rfl | rfl) <;>
          rw [CrashReports.readOffset, skipBlanks_cons_of_not_isBlank (by decide)] <;> rfl
      intro c hc
      cases rest with
      | nil => cases hc
      | cons d ds =>
        obtain rfl := Option.some.inj hc
        rw [← not_or]
        intro h
        rw [hletter _ ds h] at hoffset
        cases hoffset

end Parts

/-! ### The time of day -/

/-- What may follow the fraction of a shown time comes before a point. -/
def EndsClock (cs : List Char) : Prop :=
  ∀ c ∈ cs.head?, c < '.'

/-- The text of a time of day to the nanosecond, and of what follows it. -/
def IsClock (cs : List Char) (t : TimeOfDay) : Prop :=
  ∃ fraction ending, IsFraction fraction t.nano ∧ EndsClock ending ∧
    cs = padded 2 t.hour ++ ':' :: (padded 2 t.minute ++ ':' :: (padded 2 t.second ++
      (fraction ++ ending)))

theorem lt_point_of_isStoreBlank {c : Char} (h : isStoreBlank c = true) : c < '.' := by
  have hblank := isStoreBlank_iff.1 h
  rw [char_lt_iff]
  show c.toNat < 46
  omega

theorem lt_point_of_isZone {cs : List Char} {zone : Int} (h : IsZone cs zone) :
    ∀ c ∈ cs.head?, c < '.' ∨ c = 'Z' ∨ c = 'z' := by
  have hfirst : ∀ {before : List Char} {d : Char} {after : List Char}, IsBlankText before →
      (d < '.' ∨ d = 'Z' ∨ d = 'z') →
      ∀ c ∈ (before ++ d :: after).head?, c < '.' ∨ c = 'Z' ∨ c = 'z' := by
    intro before d after hb hd c hc
    cases before with
    | nil =>
      obtain rfl := Option.some.inj hc
      exact hd
    | cons b bs =>
      obtain rfl := Option.some.inj hc
      exact .inl (lt_point_of_isStoreBlank (hb b List.mem_cons_self))
  cases h with
  | missing h =>
    exact fun c hc => .inl (lt_point_of_isStoreBlank (h c (List.mem_of_mem_head? hc)))
  | universal hb hc ha => exact hfirst hb (.inr hc)
  | ahead hb hh hm ha => exact hfirst hb (.inl (by decide))
  | behind hb hh hm ha => exact hfirst hb (.inl (by decide))

/-- Only a zone `Z` does not come before a point, and it is not trimmed. -/
theorem endsClock_of_isZone {cs : List Char} {zone : Int} (h : IsZone cs zone)
    (hletter : ∀ c ∈ (trimEnd cs).head?, c ≠ 'Z' ∧ c ≠ 'z') : EndsClock cs := by
  intro c hc
  have hne : c ≠ 'Z' ∧ c ≠ 'z' := by
    obtain ⟨after, hsplit, hafter⟩ := exists_trimEnd cs
    rw [hsplit, List.head?_append] at hc
    cases htrimmed : trimEnd cs with
    | nil =>
      rw [htrimmed] at hc
      have hblank := hafter c (List.mem_of_mem_head? hc)
      constructor
      · rintro rfl
        exact absurd hblank (by decide)
      · rintro rfl
        exact absurd hblank (by decide)
    | cons d ds =>
      rw [htrimmed] at hc hletter
      exact hletter c hc
  exact (lt_point_of_isZone h c hc).resolve_right fun h => h.elim hne.1 hne.2

/-- The parts of a time are those that are read, unless a second 60 is among them. -/
theorem time_of_toDateTime {p : DateParts} {time : DateTime} (h : p.toDateTime = .ok time)
    (hsecond : p.second ≤ 59) :
    time.time.hour = p.hour ∧ time.time.minute = p.minute ∧ time.time.second = p.second ∧
      time.time.nano = p.nano := by
  obtain ⟨day, -, hafter⟩ := bind_eq_ok_iff.1 h
  split at hafter
  case h_1 t ht =>
    obtain rfl := Except.ok.inj hafter
    unfold TimeOfDay.ofParts? at ht
    split at ht
    case isTrue =>
      obtain rfl := Option.some.inj ht
      exact ⟨rfl, rfl, Nat.min_eq_left hsecond, by dsimp only; omega⟩
    case isFalse => cases ht
  case h_2 => cases hafter

theorem exists_concat_of_isSeconds {seconds : List Char} {millis : Nat}
    (h : IsSeconds seconds millis) (minute : Nat) :
    ∃ cs d, padded 2 minute ++ seconds = cs ++ [d] ∧ isBlank d = false := by
  have hdigits : ∀ {digits : List Char} (before : List Char), digits ≠ [] →
      (∀ c ∈ digits, c.isDigit = true) → ∃ cs d, before ++ digits = cs ++ [d] ∧
        isBlank d = false := by
    intro digits before hne hd
    refine ⟨before ++ digits.dropLast, digits.getLast hne, ?_,
      isBlank_of_isDigit (hd _ (List.getLast_mem hne))⟩
    rw [List.append_assoc, List.dropLast_append_getLast hne]
  have hpadded : ∀ n, padded 2 n ≠ [] := fun n => by simp [padded, decimal_ne_nil]
  have hd : ∀ n, ∀ c ∈ padded 2 n, c.isDigit = true := fun n c hc => isDigit_of_mem_padded hc
  cases h with
  | missing =>
    rw [List.append_nil]
    exact hdigits [] (hpadded _) (hd _)
  | @whole second h =>
    have hlast := hdigits (padded 2 minute ++ [':']) (hpadded second) (hd second)
    simpa using hlast
  | @fraction second millis digits h hne hall hm =>
    have hlast := hdigits (padded 2 minute ++ ':' :: (padded 2 second ++ ['.'])) hne hall
    simpa using hlast

/-- Of a time only the blanks after its zone are trimmed. -/
theorem trimEnd_time {seconds : List Char} {millis : Nat} (h : IsSeconds seconds millis)
    (before : List Char) (hour minute : Nat) (zoneText : List Char) :
    trimEnd (before ++ (padded 2 hour ++ ':' :: (padded 2 minute ++ (seconds ++ zoneText)))) =
      before ++ (padded 2 hour ++ ':' :: (padded 2 minute ++ (seconds ++ trimEnd zoneText))) := by
  obtain ⟨middle, d, hlast, hblank⟩ := exists_concat_of_isSeconds h minute
  have hconcat : before ++ (padded 2 hour ++ ':' :: (padded 2 minute ++ seconds)) =
      (before ++ (padded 2 hour ++ ':' :: middle)) ++ [d] := by
    rw [hlast]
    simp
  have hkeep := trimEnd_append hblank hconcat zoneText
  simpa only [List.append_assoc, List.cons_append] using hkeep

/-- What is shown of a time in the written form of the store is the time that it states. -/
theorem isClock_of_parse {text : String} {time : DateTime} (h : parse text = some time)
    {day separators cs : List Char} {y : Ymd} {t : StatedTime} (hd : IsStatedDay day y)
    (hs : IsSeparatorText separators) (ht : IsTime cs t)
    (htext : text.toList = day ++ (separators ++ cs)) : IsClock cs time.time := by
  obtain ⟨layout, hlayout, p, hread, -, htime⟩ := exists_mem_layouts_of_parse h
  obtain @⟨hour, minute, millis, seconds, zoneText, offset, hhour, hminute, hseconds, hzone⟩ := ht
  rw [Layout.read, htext, trimBlanks_of_isStatedDay hd, trimEnd_time hseconds] at hread
  rcases exists_clock_of_mem hlayout with rfl | ⟨lead, zone, hlead, hparts, rfl⟩
  · -- a day alone does not go on with a time
    have hnil := readFrom_of_isStatedDay [] hd (separators ++ (padded 2 hour ++ ':' ::
      (padded 2 minute ++ (seconds ++ trimEnd zoneText)))) {}
    rw [List.append_nil, hread] at hnil
    exact absurd (of_readFrom_nil hnil.symm).2 (by simp)
  · have hend : ∀ c ∈ (trimEnd zoneText).head?, EndsSeconds c :=
      fun c hc => hzone.endsSeconds c (mem_head?_of_trimEnd hc)
    rw [readFrom_of_isStatedDay (lead :: (clock ++ zone)) hd] at hread
    have hclock : Layout.readFrom
        (.mark ':' :: .minute :: .mark ':' :: .second :: .fraction :: zone) _
        (':' :: (padded 2 minute ++ (seconds ++ trimEnd zoneText))) = .ok p :=
      readFrom_lead hlead hs hhour hread
    rw [readFrom_minute hminute] at hclock
    obtain ⟨second, fraction, nano, hle, hfraction, rfl, hrest⟩ :=
      readFrom_second hseconds hend hclock
    obtain ⟨⟨offset, rfl⟩, hletter⟩ := readFrom_zone hparts hrest
    obtain ⟨h₁, h₂, h₃, h₄⟩ := time_of_toDateTime (htime.resolve_left (by simp)) hle
    dsimp only at h₁ h₂ h₃ h₄
    refine ⟨fraction, zoneText, h₄ ▸ hfraction, endsClock_of_isZone hzone hletter, ?_⟩
    rw [h₁, h₂, h₃]
    simp

end CrashReports.Timestamp
