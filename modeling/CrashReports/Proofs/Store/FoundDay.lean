import CrashReports.Proofs.Store.WrittenStamp

/-!
# The day that a row is found on

The store keeps the day that a text states, if it lies up to the 28th of a month and no zone is
given, and computes all other days from instants (`isFound_of_day?`).  A word for the current
time is found on the day that the clock shows (`dayOfText_of_asksForNow`).  Either way the year lies
between -4713 and 9999.

From year 0 on what is found is a day of the calendar, with one exception: in place of
0300-03-01 the store computes 0300-02-29, a day that the year 300 does not have
(`IsFound.ofDay_or_stray`).  Before year 0 the days of instants are not looked at any closer.
-/

namespace CrashReports.Store

/-- A day on which the store can find a row. -/
inductive IsFound : Ymd → Prop
  /-- A day that is stated and kept. -/
  | stated {y : Ymd} (hyear : -4713 ≤ y.year ∧ y.year ≤ 9999)
      (hmonth : 1 ≤ y.month ∧ y.month ≤ 12) (hday : 1 ≤ y.day ∧ y.day ≤ 28) : IsFound y
  /-- The day of an instant. -/
  | computed {t : Int} (ht : isInstant t = true) : IsFound (.ofInstant t)

/-! ### Stated days -/

theorem IsStatedDay.monthDay_bounds {text : List Char} {y : Ymd} (h : IsStatedDay text y) :
    (1 ≤ y.month ∧ y.month ≤ 12) ∧ 1 ≤ y.day ∧ y.day ≤ 31 := by
  cases h with
  | unsigned hy hm hd => exact ⟨hm, hd⟩
  | negative hy hm hd => exact ⟨hm, hd⟩

theorem IsDayAndTime.exists_append {cs : List Char} {y : Ymd} {t : StatedTime}
    (h : IsDayAndTime cs y t) : ∃ text rest, cs = text ++ rest ∧ IsStatedDay text y := by
  cases h with
  | day hd hs => exact ⟨_, _, rfl, hd⟩
  | time hd hs ht => exact ⟨_, _, rfl, hd⟩

/-! ### Words for the current time -/

section Words

variable {cs : List Char} (h : asksForNow cs = true)

include h

/-- A word for the current time is made of letters. -/
theorem letter_of_asksForNow {c : Char} (hc : c ∈ cs) : 65 ≤ c.toNat ∧ c.toNat ≤ 122 := by
  have hletters : (clockWords.all fun word => word.toList.all fun d =>
      decide (97 ≤ d.toNat ∧ d.toNat ≤ 122)) = true := by decide
  obtain ⟨word, hword, heq⟩ := List.any_eq_true.1 h
  have hmem : c.toLower ∈ word.toList := eq_of_beq heq ▸ List.mem_map_of_mem hc
  have hlower := of_decide_eq_true
    (List.all_eq_true.1 (List.all_eq_true.1 hletters word hword) _ hmem)
  by_cases hupper : 'A'.val ≤ c.val ∧ c.val ≤ 'Z'.val
  · have hfirst : 65 ≤ c.toNat := UInt32.le_iff_toNat_le.1 hupper.1
    have hlast : c.toNat ≤ 90 := UInt32.le_iff_toNat_le.1 hupper.2
    omega
  · have hsame : c.toLower = c := dif_neg hupper
    rw [hsame] at hlower
    omega

theorem isPlainText_of_asksForNow : IsPlainText cs := by
  intro c hc
  have hletter := letter_of_asksForNow h hc
  constructor <;> omega

/-- A word for the current time has none of the marks that stand in days and times. -/
theorem ne_marks_of_asksForNow {c : Char} (hc : c ∈ cs) : c ≠ '-' ∧ c ≠ ':' := by
  have hletter := letter_of_asksForNow h hc
  constructor <;> rintro rfl <;> exact absurd hletter (by decide)

/-- A word for the current time has the day that the clock shows. -/
theorem dayOfText_of_asksForNow (now : Int) : dayOfText now cs = dayOfNow now := by
  have hday : readDayAndTime cs = none := by
    refine Option.eq_none_iff_forall_ne_some.2 fun p hp => ?_
    obtain ⟨text, rest, rfl, hstated⟩ := (readDayAndTime_eq_some_iff.1 hp).exists_append
    have hhyphen : '-' ∈ text := by
      generalize p.1 = y at hstated
      cases hstated <;> simp [dayDigits]
    exact (ne_marks_of_asksForNow h (List.mem_append_left _ hhyphen)).1 rfl
  have htime : readTime cs = none := by
    refine Option.eq_none_iff_forall_ne_some.2 fun t ht => ?_
    have hcolon : ':' ∈ cs := by cases readTime_eq_some_iff.1 ht; simp
    exact (ne_marks_of_asksForNow h hcolon).2 rfl
  unfold dayOfText
  rw [hday, htime]
  exact if_pos h

end Words

/-- What a clock shows at noon of 2024-05-01. -/
def noon : Int := 2460432 * dayMillis

example : dayOfText noon "SubSec".toList = some ⟨2024, 5, 1⟩ := by decide +kernel

/-! ### Where stored days come from -/

theorem isFound_of_dayOfStated {d y : Ymd} {t : StatedTime}
    (hd : (1 ≤ d.month ∧ d.month ≤ 12) ∧ 1 ≤ d.day ∧ d.day ≤ 31) (h : dayOfStated d t = some y) :
    IsFound y := by
  unfold dayOfStated at h
  split at h
  case isTrue hvalid =>
    obtain ⟨hlow, hhigh, hinstant⟩ := hvalid
    obtain rfl := Option.some.inj h
    split
    case isTrue => exact .computed hinstant
    case isFalse hkept =>
      have hday : d.day ≤ 28 := Nat.not_lt.1 fun hlt => hkept (.inr hlt)
      exact .stated ⟨hlow, hhigh⟩ hd.1 ⟨hd.2.1, hday⟩
  case isFalse => cases h

theorem isFound_of_dayOfNumber {n : Number} {y : Ymd} (h : dayOfNumber n = some y) :
    IsFound y := by
  unfold dayOfNumber at h
  dsimp only at h
  split at h
  case isTrue =>
    split at h
    case isTrue hinstant =>
      obtain rfl := Option.some.inj h
      exact .computed hinstant
    case isFalse => cases h
  case isFalse => cases h

variable {now : Int}

theorem isFound_of_dayOfNow {y : Ymd} (h : dayOfNow now = some y) : IsFound y := by
  unfold dayOfNow at h
  split at h
  case isTrue hnow =>
    obtain rfl := Option.some.inj h
    exact .computed hnow.2
  case isFalse => cases h

theorem isFound_of_dayOfText {cs : List Char} {y : Ymd} (h : dayOfText now cs = some y) :
    IsFound y := by
  cases hasDay_of_dayOfText h with
  | stated hstated hday =>
    obtain ⟨text, rest, -, htext⟩ := hstated.exists_append
    exact isFound_of_dayOfStated htext.monthDay_bounds hday
  | time ht => exact .computed (isInstant_of_time ht.isBounded)
  | word hword hday => exact isFound_of_dayOfNow hday
  | number hn hday => exact isFound_of_dayOfNumber hday

theorem isFound_of_day? {c : StampCell} {y : Ymd} (h : c.day? now = some y) : IsFound y := by
  cases c with
  | number n => exact isFound_of_dayOfNumber h
  | text s => exact isFound_of_dayOfText h
  | broken t => exact isFound_of_dayOfText h
  | bytes bs => exact isFound_of_dayOfText h

/-! ### What they can be -/

theorem IsFound.year_bounds {y : Ymd} (h : IsFound y) : -4713 ≤ y.year ∧ y.year ≤ 9999 := by
  cases h with
  | stated hyear hmonth hday => exact hyear
  | computed ht => exact Ymd.ofInstant_year_bounds ht

/-- Every stored day lies between the years -4713 and 9999. -/
theorem year_of_day? {c : StampCell} {y : Ymd} (h : c.day? now = some y) :
    -4713 ≤ y.year ∧ y.year ≤ 9999 :=
  (isFound_of_day? h).year_bounds

theorem IsFound.ofDay_or_stray {y : Ymd} (h : IsFound y) (hyear : 0 ≤ y.year) :
    (∃ d, y = .ofDay d) ∨ y = .stray := by
  cases h with
  | stated hbounds hmonth hday =>
    have hdays : 28 ≤ daysInMonth y.year y.month := twentyEight_le_daysInMonth hmonth.1 hmonth.2
    have hisDay : IsDay y.year y.month y.day :=
      ⟨by unfold firstYear; omega, by unfold lastYear; omega, hmonth.1, hmonth.2, hday.1, by omega⟩
    exact .inl ⟨⟨_, _, _, hisDay⟩, rfl⟩
  | computed ht =>
    rw [isInstant_iff] at ht
    rw [Ymd.ofInstant_eq_ofNumber] at hyear ⊢
    apply Ymd.ofNumber_of_year_nonneg _ _ hyear
    · simp only [Ymd.numberOf, dayMillis]
      omega
    · simp only [Ymd.numberOf, dayMillis]
      omega

end CrashReports.Store
