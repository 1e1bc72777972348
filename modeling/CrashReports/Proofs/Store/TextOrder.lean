import CrashReports.Proofs.Store.ShownTime

/-!
# The order of shown texts

A text that is found on a day and shown as a time states that time, so two such texts can be
compared with what they show.  The orders agree from the first digit of the time of day on:
hours, minutes and seconds have fixed widths, a fraction follows a point, and all that can
follow instead comes before a point (`IsClock.lt`).  So it is what stands before that digit,
the heading of a text, that can set the orders apart: of two texts the one with the older time
comes after the other exactly if its heading does (`lt_iff_heading_lt`).
-/

namespace CrashReports

/-! ### The order of times -/

/-- The position of a time of day; an inserted second comes before the regular one that follows. -/
def TimeOfDay.rank (t : TimeOfDay) : Nat :=
  t.seconds * 2000000000 + t.nano

theorem TimeOfDay.rank_lt_iff {s t : TimeOfDay} :
    s.rank < t.rank ↔ s.hour < t.hour ∨ s.hour = t.hour ∧ (s.minute < t.minute ∨
      s.minute = t.minute ∧ (s.second < t.second ∨ s.second = t.second ∧ s.nano < t.nano)) := by
  obtain ⟨h, m, sec, n, hh, hm, hs, hn⟩ := s
  obtain ⟨h', m', sec', n', hh', hm', hs', hn'⟩ := t
  unfold rank seconds
  dsimp only
  omega

theorem TimeOfDay.rank_lt (t : TimeOfDay) : t.rank < 172800000000000 := by
  obtain ⟨h, m, sec, n, hh, hm, hs, hn⟩ := t
  unfold rank seconds
  dsimp only
  omega

/-- The position of a date-time, day by day. -/
def DateTime.rank (t : DateTime) : Int :=
  t.day.rank * 172800000000000 + t.time.rank

theorem DateTime.rank_lt_iff {s t : DateTime} :
    s.rank < t.rank ↔ s.day < t.day ∨ s.day = t.day ∧ s.time.rank < t.time.rank := by
  have hs := s.time.rank_lt
  have ht := t.time.rank_lt
  rw [← Day.rank_inj, Day.lt_def]
  unfold rank
  omega

namespace Timestamp

open Text Store

/-! ### Times of day as texts -/

theorem EndsClock.lt_cons {cs : List Char} (h : EndsClock cs) {c : Char} (hc : 46 ≤ c.toNat)
    (ds : List Char) : cs < c :: ds := by
  cases cs with
  | nil => exact List.nil_lt_cons _ _
  | cons d ds' =>
    have hd := char_lt_iff.1 (h d rfl)
    have hpoint : '.'.toNat = 46 := rfl
    exact List.cons_lt_cons_iff.2 (.inl (char_lt_iff.2 (by omega)))

/-- The digits of fractions are ordered as their first digits are, whatever follows. -/
theorem digits_append_lt {width : Nat} {ds es x y : List Char} (hd : ∀ c ∈ ds, c.isDigit = true)
    (he : ∀ c ∈ es, c.isDigit = true) (hx : EndsClock x) (h : scaled width ds < scaled width es) :
    ds ++ x < es ++ y := by
  induction width generalizing ds es with
  | zero =>
    have hzero := scaled_lt 0 he
    omega
  | succ width ih =>
    cases es with
    | nil =>
      rw [scaled_nil] at h
      omega
    | cons e es =>
      have hebound := digit_bounds (he e List.mem_cons_self)
      cases ds with
      | nil => exact hx.lt_cons (by omega) _
      | cons d ds =>
        have hdbound := digit_bounds (hd d List.mem_cons_self)
        have hds : ∀ c ∈ ds, c.isDigit = true := fun c hc => hd c (List.mem_cons_of_mem _ hc)
        have hes : ∀ c ∈ es, c.isDigit = true := fun c hc => he c (List.mem_cons_of_mem _ hc)
        rw [scaled_cons, scaled_cons, mul_add_lt_mul_add_iff (scaled_lt width hds)
          (scaled_lt width hes)] at h
        rw [List.cons_append, List.cons_append, List.cons_lt_cons_iff, char_lt_iff,
          ← Char.toNat_inj]
        rcases h with hlt | ⟨heq, hlt⟩
        · exact .inl (by omega)
        · exact .inr ⟨by omega, ih hds hes hlt⟩

theorem append_lt_of_isFraction {fraction fraction' ending ending' : List Char} {nano nano' : Nat}
    (h : IsFraction fraction nano) (h' : IsFraction fraction' nano') (hend : EndsClock ending)
    (hlt : nano < nano') : fraction ++ ending < fraction' ++ ending' := by
  cases h' with
  | missing => omega
  | point hne' hd' =>
    cases h with
    | missing => exact hend.lt_cons (by decide) _
    | point hne hd =>
      rw [List.cons_append, List.cons_append, List.cons_lt_cons_self]
      exact digits_append_lt hd hd' hend hlt

/-- The texts of times of day are in the order of the times. -/
theorem IsClock.lt {cs ds : List Char} {s t : TimeOfDay} (hc : IsClock cs s) (hd : IsClock ds t)
    (h : s.rank < t.rank) : cs < ds := by
  obtain ⟨fraction, ending, hfraction, hend, rfl⟩ := hc
  obtain ⟨fraction', ending', hfraction', -, rfl⟩ := hd
  have hlen : ∀ m n : Nat, m < 100 → n < 100 → (padded 2 m).length = (padded 2 n).length := by
    intro m n hm hn
    rw [length_padded (by decide) hm, length_padded (by decide) hn]
  have hhour := s.hour_lt
  have hhour' := t.hour_lt
  have hminute := s.minute_lt
  have hminute' := t.minute_lt
  have hsecond := s.second_lt
  have hsecond' := t.second_lt
  have hnano : s.nano < t.nano → fraction ++ ending < fraction' ++ ending' :=
    fun hlt => append_lt_of_isFraction hfraction hfraction' hend hlt
  rw [TimeOfDay.rank_lt_iff] at h
  rw [append_lt_append_iff (hlen _ _ (by omega) (by omega)), padded_lt_padded_iff (by decide)
    (by omega) (by omega), padded_inj, List.cons_lt_cons_self,
    append_lt_append_iff (hlen _ _ (by omega) (by omega)), padded_lt_padded_iff (by decide)
    (by omega) (by omega), padded_inj, List.cons_lt_cons_self,
    append_lt_append_iff (hlen _ _ (by omega) (by omega)), padded_lt_padded_iff (by decide)
    (by omega) (by omega), padded_inj]
  exact h.imp id (.imp id (.imp id (.imp id (.imp id (.imp id hnano)))))

end Timestamp

namespace Store

open Text Timestamp

/-! ### Headings -/

/-- How many characters the stated day at the start of a text has. -/
def dayWidth (cs : List Char) : Nat :=
  if cs.head? = some '-' then 11 else 10

/-- A zero in the place of a time. -/
def timeMark (cs : List Char) : List Char :=
  if cs = [] then [] else ['0']

/-- A text up to the first digit of its time, which counts as zero. -/
def heading (cs : List Char) : List Char :=
  let rest := cs.drop (dayWidth cs)
  cs.take (dayWidth cs) ++ (rest.takeWhile isDaySeparator ++
    timeMark (rest.dropWhile isDaySeparator))

/-- A stated day begins with a hyphen and then has eleven characters, or else ten. -/
theorem exists_cons_of_isStatedDay {day : List Char} {y : Ymd} (h : IsStatedDay day y) :
    ∃ c cs, day = c :: cs ∧ (c = '-' ∧ day.length = 11 ∨ c ≠ '-' ∧ day.length = 10) := by
  have hlength : ∀ {year month day : Nat}, year < 10 ^ 4 → month ≤ 12 → day ≤ 31 →
      (dayDigits year month day).length = 10 := by
    intro year month day hy hm hd
    simp only [dayDigits, List.length_append, List.length_cons]
    rw [length_padded (by decide) hy, length_padded (by decide) (by omega),
      length_padded (by decide) (by omega)]
  cases h with
  | @unsigned year month day hy hm hd =>
    obtain ⟨c, cs, hcons, hc⟩ := exists_dayDigits_cons year month day
    refine ⟨c, cs, hcons, .inr ⟨?_, hlength hy hm.2 hd.2⟩⟩
    rintro rfl
    exact absurd hc (by decide)
  | negative hy hm hd =>
    exact ⟨'-', _, rfl, .inl ⟨rfl, by rw [List.length_cons, hlength hy hm.2 hd.2]⟩⟩

theorem dayWidth_append {day : List Char} {y : Ymd} (h : IsStatedDay day y) (rest : List Char) :
    dayWidth (day ++ rest) = day.length := by
  obtain ⟨c, cs, rfl, ⟨rfl, hlen⟩ | ⟨hc, hlen⟩⟩ := exists_cons_of_isStatedDay h
  · rw [hlen]
    rfl
  · rw [hlen, dayWidth, List.cons_append, List.head?_cons, if_neg (by simpa using hc)]

/-- Stated days of different lengths differ in their first characters. -/
theorem head_ne_of_length_ne {day day' : List Char} {y y' : Ymd} (h : IsStatedDay day y)
    (h' : IsStatedDay day' y') (hlen : day.length ≠ day'.length) :
    ∃ c cs c' cs', day = c :: cs ∧ day' = c' :: cs' ∧ c ≠ c' := by
  obtain ⟨c, cs, hcons, hc⟩ := exists_cons_of_isStatedDay h
  obtain ⟨c', cs', hcons', hc'⟩ := exists_cons_of_isStatedDay h'
  refine ⟨c, cs, c', cs', hcons, hcons', ?_⟩
  rcases hc with ⟨rfl, hlen₁⟩ | ⟨hne, hlen₁⟩
  · rcases hc' with ⟨rfl, hlen₂⟩ | ⟨hne', hlen₂⟩
    · exact absurd (hlen₁.trans hlen₂.symm) hlen
    · exact Ne.symm hne'
  · rcases hc' with ⟨rfl, hlen₂⟩ | ⟨hne', hlen₂⟩
    · exact hne
    · exact absurd (hlen₁.trans hlen₂.symm) hlen

/-! ### What follows the day -/

/-- A text that begins with a digit, or none. -/
def BeginsTime (cs : List Char) : Prop :=
  ∀ c ∈ cs.head?, c.isDigit = true

theorem IsClock.beginsTime {cs : List Char} {t : TimeOfDay} (h : IsClock cs t) :
    BeginsTime cs := by
  obtain ⟨fraction, ending, -, -, rfl⟩ := h
  obtain ⟨c, digits, hpadded, hc⟩ := exists_padded_cons 2 t.hour
  intro d hd
  rw [hpadded, List.cons_append] at hd
  obtain rfl := Option.some.inj hd
  exact hc

theorem toNat_of_isDaySeparator {c : Char} (h : isDaySeparator c = true) :
    c.toNat ≤ 32 ∨ c.toNat = 84 := by
  rw [isDaySeparator, Bool.or_eq_true, beq_iff_eq] at h
  rcases h with h | rfl
  · have hblank := isStoreBlank_iff.1 h
    omega
  · exact .inr rfl

/-- Any digit is on the same side of a separator as zero. -/
theorem separator_lt_digit_iff {c d : Char} (hc : isDaySeparator c = true)
    (hd : d.isDigit = true) :
    (c < d ↔ c < '0') ∧ (d < c ↔ '0' < c) ∧ c ≠ '0' := by
  have hc := toNat_of_isDaySeparator hc
  have hd := digit_bounds hd
  have hzero : '0'.toNat = 48 := rfl
  rw [ne_eq, ← Char.toNat_inj, char_lt_iff, char_lt_iff, char_lt_iff, char_lt_iff]
  omega

section Lead

variable {separators separators' time time' : List Char}

theorem takeWhile_lead (hs : IsSeparatorText separators) (ht : BeginsTime time) :
    (separators ++ time).takeWhile isDaySeparator = separators ∧
      (separators ++ time).dropWhile isDaySeparator = time := by
  rw [List.takeWhile_append_of_pos hs, List.dropWhile_append_of_pos hs]
  cases time with
  | nil => simp
  | cons c cs =>
    have hc := isDaySeparator_of_isDigit (ht c rfl)
    rw [List.takeWhile_cons_of_neg (by simp [hc]), List.dropWhile_cons_of_neg (by simp [hc]),
      List.append_nil]
    exact ⟨rfl, rfl⟩

theorem beginsTime_timeMark (time : List Char) : BeginsTime (timeMark time) := by
  intro c hc
  unfold timeMark at hc
  split at hc
  case isTrue => cases hc
  case isFalse =>
    obtain rfl := Option.some.inj hc
    decide

theorem heading_append {day : List Char} {y : Ymd} (hd : IsStatedDay day y)
    (hs : IsSeparatorText separators) (ht : BeginsTime time) :
    heading (day ++ (separators ++ time)) = day ++ (separators ++ timeMark time) := by
  obtain ⟨htake, hdrop⟩ := takeWhile_lead hs ht
  unfold heading
  rw [dayWidth_append hd, List.take_left, List.drop_left]
  dsimp only
  rw [htake, hdrop]

example : heading "2024-05-01T08:00:00+02:00".toList = "2024-05-01T0".toList := by decide

theorem timeMark_cons (c : Char) (cs : List Char) : timeMark (c :: cs) = ['0'] :=
  rfl

/-- What follows the day is ordered as it is with a zero in the place of the time, if that decides
the order. -/
theorem lead_lt_of_mark_lt (hs : IsSeparatorText separators) (hs' : IsSeparatorText separators')
    (ht : BeginsTime time) (ht' : BeginsTime time')
    (h : separators ++ timeMark time < separators' ++ timeMark time') :
    separators ++ time < separators' ++ time' := by
  induction separators generalizing separators' with
  | nil =>
    cases separators' with
    | nil =>
      -- a time has a mark, and two marks are the same
      cases time with
      | nil =>
        cases time' with
        | nil => exact h
        | cons c' cs' => exact List.nil_lt_cons _ _
      | cons c cs => cases time' <;> simp [timeMark] at h
    | cons c' cs' =>
      cases time with
      | nil => exact List.nil_lt_cons _ _
      | cons c cs =>
        obtain ⟨-, hlt, hne⟩ := separator_lt_digit_iff (hs' c' List.mem_cons_self) (ht c rfl)
        rw [timeMark_cons, List.nil_append, List.cons_append, List.cons_lt_cons_iff] at h
        rw [List.nil_append, List.cons_append, List.cons_lt_cons_iff]
        exact .inl (hlt.2 (h.resolve_right fun h => hne h.1.symm))
  | cons c cs ih =>
    cases separators' with
    | nil =>
      cases time' with
      | nil => exact absurd h (List.not_lt_nil _)
      | cons c' cs' =>
        obtain ⟨hlt, -, hne⟩ := separator_lt_digit_iff (hs c List.mem_cons_self) (ht' c' rfl)
        rw [timeMark_cons, List.nil_append, List.cons_append, List.cons_lt_cons_iff] at h
        rw [List.nil_append, List.cons_append, List.cons_lt_cons_iff]
        exact .inl (hlt.2 (h.resolve_right fun h => hne h.1))
    | cons c' cs' =>
      rw [List.cons_append, List.cons_append, List.cons_lt_cons_iff] at h ⊢
      rcases h with hlt | ⟨rfl, hlt⟩
      · exact .inl hlt
      · exact .inr ⟨rfl, ih (fun d hd => hs d (List.mem_cons_of_mem _ hd))
          (fun d hd => hs' d (List.mem_cons_of_mem _ hd)) hlt⟩

theorem eq_of_mark_eq (hs : IsSeparatorText separators) (hs' : IsSeparatorText separators')
    (h : separators ++ timeMark time = separators' ++ timeMark time') :
    separators = separators' ∧ (time = [] ↔ time' = []) := by
  obtain ⟨htake, -⟩ := takeWhile_lead hs (beginsTime_timeMark time)
  obtain ⟨htake', -⟩ := takeWhile_lead hs' (beginsTime_timeMark time')
  obtain rfl : separators = separators' := by rw [← htake, h, htake']
  have hmark := List.append_cancel_left h
  refine ⟨rfl, ?_⟩
  cases time <;> cases time' <;> simp [timeMark] at hmark ⊢

end Lead

/-! ### Texts that are shown -/

/-- The text of a shown time in the written form of the store. -/
inductive IsShownText : List Char → DateTime → Prop
  | day {day separators : List Char} {t : DateTime} (hd : IsStatedDay day (.ofDay t.day))
      (hs : IsSeparatorText separators) : IsShownText (day ++ separators) t
  | time {day separators time : List Char} {t : DateTime} (hd : IsStatedDay day (.ofDay t.day))
      (hs : IsSeparatorText separators) (ht : IsClock time t.time) :
      IsShownText (day ++ (separators ++ time)) t

theorem isShownText_of_parse {text : String} {time : DateTime} (h : parse text = some time)
    {st : StatedTime} (hstated : IsDayAndTime text.toList (.ofDay time.day) st) :
    IsShownText text.toList time := by
  generalize hcs : text.toList = cs at hstated
  cases hstated with
  | day hd hs => exact .day hd hs
  | time hd hs ht => exact .time hd hs (isClock_of_parse h hd hs ht hcs)

theorem IsShownText.exists_parts {cs : List Char} {t : DateTime} (h : IsShownText cs t) :
    ∃ day separators time, IsStatedDay day (.ofDay t.day) ∧ IsSeparatorText separators ∧
      (time = [] ∨ IsClock time t.time) ∧ BeginsTime time ∧
      cs = day ++ (separators ++ time) ∧ heading cs = day ++ (separators ++ timeMark time) := by
  have hnil : BeginsTime [] := fun c hc => by cases hc
  cases h with
  | @day day separators t hd hs =>
    have hheading := heading_append hd hs hnil
    rw [List.append_nil] at hheading
    exact ⟨day, separators, [], hd, hs, .inl rfl, hnil, by rw [List.append_nil], hheading⟩
  | @time day separators time t hd hs ht =>
    exact ⟨day, separators, time, hd, hs, .inr ht, IsClock.beginsTime ht, rfl,
      heading_append hd hs (IsClock.beginsTime ht)⟩

theorem lt_of_heading_lt {cs ds : List Char} {s t : DateTime} (hc : IsShownText cs s)
    (hd : IsShownText ds t) (h : heading cs < heading ds) : cs < ds := by
  obtain ⟨day, separators, time, hday, hs, -, ht, hsplit, hheading⟩ := hc.exists_parts
  obtain ⟨day', separators', time', hday', hs', -, ht', hsplit', hheading'⟩ := hd.exists_parts
  rw [hheading, hheading'] at h
  rw [hsplit, hsplit']
  by_cases hlen : day.length = day'.length
  · rw [append_lt_append_iff hlen] at h ⊢
    exact h.imp id (.imp id (lead_lt_of_mark_lt hs hs' ht ht'))
  · obtain ⟨c, day, c', day', rfl, rfl, hne⟩ := head_ne_of_length_ne hday hday' hlen
    rw [List.cons_append, List.cons_append, List.cons_lt_cons_iff] at h ⊢
    exact .inl (h.resolve_right fun h => hne h.1)

theorem isStatedDay_unique {cs : List Char} {y z : Ymd} (h : IsStatedDay cs y)
    (h' : IsStatedDay cs z) : y = z := by
  have hread := readStatedDay_eq_some_iff.2 ⟨cs, h, (List.append_nil cs).symm⟩
  have hread' := readStatedDay_eq_some_iff.2 ⟨cs, h', (List.append_nil cs).symm⟩
  rw [hread] at hread'
  exact (Prod.mk.inj (Option.some.inj hread')).1

/-- Texts with the same heading are in the order of their times. -/
theorem not_lt_of_heading_eq {cs ds : List Char} {s t : DateTime} (hc : IsShownText cs s)
    (hd : IsShownText ds t) (hlt : s.rank < t.rank) (h : heading cs = heading ds) :
    ¬ ds < cs := by
  obtain ⟨day, separators, time, hday, hs, htime, -, rfl, hheading⟩ := hc.exists_parts
  obtain ⟨day', separators', time', hday', hs', htime', -, rfl, hheading'⟩ := hd.exists_parts
  rw [hheading, hheading'] at h
  have hlen : day.length = day'.length := by
    by_contra hlen
    obtain ⟨c, day, c', day', rfl, rfl, hne⟩ := head_ne_of_length_ne hday hday' hlen
    exact hne (List.cons.inj h).1
  obtain ⟨rfl, hrest⟩ := List.append_inj h hlen
  obtain ⟨rfl, hnil⟩ := eq_of_mark_eq hs hs' hrest
  have hsame := Ymd.ofDay_inj.1 (isStatedDay_unique hday hday')
  have hclock : s.time.rank < t.time.rank := by
    rcases DateTime.rank_lt_iff.1 hlt with hbefore | ⟨-, hclock⟩
    · rw [hsame] at hbefore
      exact absurd hbefore (Int.lt_irrefl _)
    · exact hclock
  intro hafter
  rw [append_lt_append_iff rfl, append_lt_append_iff rfl] at hafter
  have hafter := ((hafter.resolve_left (List.lt_irrefl _)).2.resolve_left (List.lt_irrefl _)).2
  rcases htime with rfl | htime
  · rw [hnil.1 rfl] at hafter
    exact List.lt_irrefl _ hafter
  · rcases htime' with rfl | htime'
    · rw [hnil.2 rfl] at hafter
      exact List.lt_irrefl _ hafter
    · exact List.lt_asymm hafter (htime.lt htime' hclock)

/-- An older time comes after a younger one, as text, exactly if its heading does. -/
theorem lt_iff_heading_lt {cs ds : List Char} {s t : DateTime} (hc : IsShownText cs s)
    (hd : IsShownText ds t) (hlt : s.rank < t.rank) : ds < cs ↔ heading ds < heading cs := by
  refine ⟨fun hafter => ?_, lt_of_heading_lt hd hc⟩
  by_contra hnot
  by_cases hbefore : heading cs < heading ds
  · exact List.lt_asymm hafter (lt_of_heading_lt hc hd hbefore)
  · exact not_lt_of_heading_eq hc hd hlt (List.le_antisymm hnot hbefore) hafter

end Store

end CrashReports
