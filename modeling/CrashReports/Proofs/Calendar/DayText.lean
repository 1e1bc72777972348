import CrashReports.Proofs.Calendar.Day
import CrashReports.Proofs.Text.Digits

/-!
# The order of day texts

Day texts are compared character by character.  For years of four digits that is the
order of days.  A year before 0 or after 9999 carries a sign, and then it is not: the
plus sign comes before the minus sign and both before all digits, and of two years
before 0 only the first four digits decide, the greater number coming later.

`Day.writtenRank` is the place of a day before the year 0 among all such days whose
year has four digits.
-/

namespace CrashReports

open Text (padded digitsValue)

/-! ### Texts that differ in a number -/

theorem hyphen_not_mem_padded (width n : Nat) : '-' ∉ padded width n := by
  intro h
  exact absurd (Text.isDigit_of_mem_padded h) (by decide)

theorem renderYear_of_plain {year : Int} (h : 0 ≤ year ∧ year ≤ 9999) :
    renderYear year = padded 4 year.natAbs :=
  if_pos h

theorem renderYear_of_neg {year : Int} (h : year < 0) :
    renderYear year = '-' :: padded 4 year.natAbs := by
  rw [renderYear, if_neg (by omega), if_pos h]

theorem renderYear_of_late {year : Int} (h : 9999 < year) :
    renderYear year = '+' :: padded 4 year.natAbs := by
  rw [renderYear, if_neg (by omega), if_neg (by omega)]

theorem exists_padded_cons (width n : Nat) :
    ∃ c cs, padded width n = c :: cs ∧ c.isDigit = true := by
  cases h : padded width n with
  | nil => exact absurd h (by simp [padded, Text.decimal_ne_nil])
  | cons c cs => exact ⟨c, cs, rfl, Text.isDigit_of_mem_padded (h ▸ List.mem_cons_self)⟩

/-- A text that begins with a number does not begin with a sign. -/
theorem cons_ne_padded_append {c : Char} (hc : c.isDigit = false) (width n : Nat)
    (x y : List Char) : c :: x ≠ padded width n ++ y := by
  obtain ⟨d, ds, hpadded, hd⟩ := exists_padded_cons width n
  rw [hpadded, List.cons_append]
  intro h
  rw [(List.cons.inj h).1, hd] at hc
  cases hc

/-- Texts are the same up to their first hyphens and after them. -/
theorem append_hyphen_inj {a b x y : List Char} (ha : '-' ∉ a) (hb : '-' ∉ b)
    (h : a ++ '-' :: x = b ++ '-' :: y) : a = b ∧ x = y := by
  induction a generalizing b with
  | nil =>
    cases b with
    | nil => exact ⟨rfl, List.tail_eq_of_cons_eq h⟩
    | cons d ds =>
      have hd := (List.cons.inj h).1
      exact absurd (hd ▸ List.mem_cons_self) hb
  | cons c cs ih =>
    cases b with
    | nil =>
      have hc := (List.cons.inj h).1
      exact absurd (hc ▸ List.mem_cons_self) ha
    | cons d ds =>
      obtain ⟨rfl, htail⟩ := List.cons.inj h
      obtain ⟨rfl, rfl⟩ :=
        ih (List.not_mem_of_not_mem_cons ha) (List.not_mem_of_not_mem_cons hb) htail
      exact ⟨rfl, rfl⟩

theorem padded_hyphen_inj {width n m : Nat} {x y : List Char}
    (h : padded width n ++ '-' :: x = padded width m ++ '-' :: y) : n = m ∧ x = y := by
  obtain ⟨hnumber, hrest⟩ :=
    append_hyphen_inj (hyphen_not_mem_padded _ _) (hyphen_not_mem_padded _ _) h
  exact ⟨Text.padded_inj.1 hnumber, hrest⟩

theorem renderYear_hyphen_inj {year year' : Int} {x y : List Char}
    (h : renderYear year ++ '-' :: x = renderYear year' ++ '-' :: y) : year = year' ∧ x = y := by
  have hminus : '-'.isDigit = false := by decide
  have hplus : '+'.isDigit = false := by decide
  -- years of different signs differ in their first character
  obtain hneg | hplain | hlate : year < 0 ∨ (0 ≤ year ∧ year ≤ 9999) ∨ 9999 < year := by omega
  all_goals
    obtain hneg' | hplain' | hlate' : year' < 0 ∨ (0 ≤ year' ∧ year' ≤ 9999) ∨ 9999 < year' := by
      omega
  · rw [renderYear_of_neg hneg, renderYear_of_neg hneg'] at h
    obtain ⟨hnumber, hrest⟩ := padded_hyphen_inj (List.cons.inj h).2
    exact ⟨by omega, hrest⟩
  · rw [renderYear_of_neg hneg, renderYear_of_plain hplain'] at h
    exact absurd h (cons_ne_padded_append hminus _ _ _ _)
  · rw [renderYear_of_neg hneg, renderYear_of_late hlate'] at h
    exact absurd (List.cons.inj h).1 (by decide)
  · rw [renderYear_of_plain hplain, renderYear_of_neg hneg'] at h
    exact absurd h.symm (cons_ne_padded_append hminus _ _ _ _)
  · rw [renderYear_of_plain hplain, renderYear_of_plain hplain'] at h
    obtain ⟨hnumber, hrest⟩ := padded_hyphen_inj h
    exact ⟨by omega, hrest⟩
  · rw [renderYear_of_plain hplain, renderYear_of_late hlate'] at h
    exact absurd h.symm (cons_ne_padded_append hplus _ _ _ _)
  · rw [renderYear_of_late hlate, renderYear_of_neg hneg'] at h
    exact absurd (List.cons.inj h).1 (by decide)
  · rw [renderYear_of_late hlate, renderYear_of_plain hplain'] at h
    exact absurd h (cons_ne_padded_append hplus _ _ _ _)
  · rw [renderYear_of_late hlate, renderYear_of_late hlate'] at h
    obtain ⟨hnumber, hrest⟩ := padded_hyphen_inj (List.cons.inj h).2
    exact ⟨by omega, hrest⟩

theorem renderYmd_inj {year year' : Int} {month month' day day' : Nat} :
    renderYmd year month day = renderYmd year' month' day' ↔
      year = year' ∧ month = month' ∧ day = day' := by
  constructor
  · intro h
    simp only [renderYmd, List.append_assoc, List.cons_append] at h
    obtain ⟨hyear, hrest⟩ := renderYear_hyphen_inj h
    obtain ⟨hmonth, hday⟩ := padded_hyphen_inj hrest
    exact ⟨hyear, hmonth, Text.padded_inj.1 hday⟩
  · rintro ⟨rfl, rfl, rfl⟩
    rfl

/-! ### Years of four digits -/

theorem monthDay_lt_iff {month month' day day' : Nat} (hm : month < 100) (hm' : month' < 100)
    (hd : day < 100) (hd' : day' < 100) :
    padded 2 month ++ '-' :: padded 2 day < padded 2 month' ++ '-' :: padded 2 day' ↔
      month < month' ∨ month = month' ∧ day < day' := by
  have hlen : (padded 2 month).length = (padded 2 month').length := by
    rw [Text.length_padded (by decide) hm, Text.length_padded (by decide) hm']
  rw [Text.append_lt_append_iff hlen, Text.padded_lt_padded_iff (by decide) hm hm', Text.padded_inj,
    List.cons_lt_cons_iff, Text.padded_lt_padded_iff (by decide) hd hd']
  simp

theorem renderYmd_eq (year : Int) (month day : Nat) :
    renderYmd year month day = renderYear year ++ '-' :: (padded 2 month ++ '-' :: padded 2 day) := by
  simp [renderYmd]

/-- The numbers of a day text are compared in their order. -/
theorem renderYmd_lt_of_plain {year year' : Int} {month month' day day' : Nat}
    (hy : 0 ≤ year ∧ year ≤ 9999) (hy' : 0 ≤ year' ∧ year' ≤ 9999) (hm : month < 100)
    (hm' : month' < 100) (hd : day < 100) (hd' : day' < 100) :
    renderYmd year month day < renderYmd year' month' day' ↔
      year < year' ∨ year = year' ∧ (month < month' ∨ month = month' ∧ day < day') := by
  have hn : year.natAbs < 10 ^ 4 := by omega
  have hn' : year'.natAbs < 10 ^ 4 := by omega
  have hlen : (padded 4 year.natAbs).length = (padded 4 year'.natAbs).length := by
    rw [Text.length_padded (by decide) hn, Text.length_padded (by decide) hn']
  rw [renderYmd_eq, renderYmd_eq, renderYear_of_plain hy, renderYear_of_plain hy',
    Text.append_lt_append_iff hlen, Text.padded_lt_padded_iff (by decide) hn hn', Text.padded_inj,
    List.cons_lt_cons_iff, monthDay_lt_iff hm hm' hd hd']
  simp
  omega

namespace Day

/-- The month and the day of the month as they follow the year in a day text. -/
def monthDay (d : Day) : List Char :=
  padded 2 d.month ++ '-' :: padded 2 d.day

theorem render_eq (d : Day) : d.render = renderYear d.year ++ '-' :: d.monthDay :=
  renderYmd_eq d.year d.month d.day

theorem monthDay_lt_monthDay_iff {d e : Day} :
    d.monthDay < e.monthDay ↔ d.month < e.month ∨ d.month = e.month ∧ d.day < e.day := by
  have hd := d.monthDay_bounds
  have he := e.monthDay_bounds
  exact monthDay_lt_iff (by omega) (by omega) (by omega) (by omega)

/-- A year is written in four digits without a sign. -/
def IsPlain (d : Day) : Prop :=
  0 ≤ d.year ∧ d.year ≤ 9999

instance (d : Day) : Decidable d.IsPlain :=
  inferInstanceAs (Decidable (_ ∧ _))

theorem render_lt_of_plain {d e : Day} (hd : d.IsPlain) (he : e.IsPlain) :
    d.render < e.render ↔ d < e := by
  have hdBounds := d.monthDay_bounds
  have heBounds := e.monthDay_bounds
  rw [lt_iff_lex]
  exact renderYmd_lt_of_plain hd he (by omega) (by omega) (by omega) (by omega)

theorem toString_lt_iff {d e : Day} : toString d < toString e ↔ d.render < e.render := by
  rw [String.lt_iff]
  simp [ToString.toString]

theorem toString_le_iff_of_plain {d e : Day} (hd : d.IsPlain) (he : e.IsPlain) :
    toString d ≤ toString e ↔ d ≤ e := by
  rw [← Std.not_lt, toString_lt_iff, render_lt_of_plain he hd, not_lt]

end Day

/-! ### Years with a sign -/

theorem lt_padded_append {c : Char} (hc : c.toNat < 48) (width n : Nat) (x y : List Char) :
    c :: x < padded width n ++ y := by
  obtain ⟨d, ds, hpadded, hd⟩ := exists_padded_cons width n
  have hbounds := Text.digit_bounds hd
  rw [hpadded, List.cons_append, List.cons_lt_cons_iff, Text.char_lt_iff]
  exact .inl (by omega)

/-- A minus sign comes before all digits. -/
theorem renderYmd_lt_of_neg_of_plain {year year' : Int} {month month' day day' : Nat}
    (hy : year < 0) (hy' : 0 ≤ year' ∧ year' ≤ 9999) :
    renderYmd year month day < renderYmd year' month' day' := by
  rw [renderYmd_eq, renderYmd_eq, renderYear_of_neg hy, renderYear_of_plain hy']
  exact lt_padded_append (by decide) _ _ _ _

namespace Day

theorem render_lt_of_neg_of_plain {d e : Day} (hd : d.year < 0) (he : e.IsPlain) :
    d.render < e.render :=
  renderYmd_lt_of_neg_of_plain hd he

/-- A year after 9999 comes before all others. -/
theorem render_lt_of_late {d e : Day} (hd : 9999 < d.year) (he : e.year ≤ 9999) :
    d.render < e.render := by
  rw [render_eq, render_eq, renderYear_of_late hd]
  obtain hneg | hplain : e.year < 0 ∨ 0 ≤ e.year := by omega
  · rw [renderYear_of_neg hneg, List.cons_append, List.cons_append, List.cons_lt_cons_iff]
    exact .inl (by decide)
  · rw [renderYear_of_plain ⟨hplain, he⟩]
    exact lt_padded_append (by decide) _ _ _ _

/-- The first four digits of a number of at most six digits. -/
def firstFour (n : Nat) : Nat :=
  if n < 10000 then n else if n < 100000 then n / 10 else n / 100

theorem firstFour_lt {n : Nat} (h : n < 1000000) : firstFour n < 10 ^ 4 := by
  unfold firstFour
  split
  · omega
  · split <;> omega

/-- A number in at least four digits is its first four digits and those that follow. -/
theorem padded_four_eq {n : Nat} (h : n < 1000000) :
    ∃ more, padded 4 n = padded 4 (firstFour n) ++ more ∧ (∀ c ∈ more, c.isDigit = true) ∧
      (more = [] ↔ n < 10000) := by
  obtain hshort | hlong := Nat.lt_or_ge n 10000
  · refine ⟨[], ?_, by simp, by simpa using hshort⟩
    rw [firstFour, if_pos hshort, List.append_nil]
  · have hdigits : ∀ c ∈ padded 4 n, c.isDigit = true := fun c hc => Text.isDigit_of_mem_padded hc
    have hlength : n < 100000 ∧ (padded 4 n).length = 5 ∨
        100000 ≤ n ∧ (padded 4 n).length = 6 := by
      obtain hfive | hsix := Nat.lt_or_ge n 100000
      · exact .inl ⟨hfive, Text.length_padded_of_le (by decide) (by decide) hlong hfive⟩
      · exact .inr ⟨hsix, Text.length_padded_of_le (by decide) (by decide) hsix h⟩
    -- digits of the same number and length are the same, and taking four digits divides
    have hfour : padded 4 (firstFour n) = (padded 4 n).take 4 := by
      apply Text.digits_eq_of_value_eq (fun c hc => Text.isDigit_of_mem_padded hc)
        (fun c hc => hdigits c (List.mem_of_mem_take hc))
      · rw [Text.length_padded (by decide) (firstFour_lt h), List.length_take]
        omega
      · rw [Text.digitsValue_take hdigits, Text.digitsValue_padded, Text.digitsValue_padded,
          firstFour, if_neg (by omega)]
        obtain ⟨hfive, hlen⟩ | ⟨hsix, hlen⟩ := hlength
        · rw [if_pos hfive, hlen, show 10 ^ (5 - 4) = 10 from rfl]
        · rw [if_neg (by omega), hlen, show 10 ^ (6 - 4) = 100 from rfl]
    refine ⟨(padded 4 n).drop 4, ?_, fun c hc => hdigits c (List.mem_of_mem_drop hc), ?_⟩
    · rw [hfour, List.take_append_drop]
    · rw [← List.length_eq_zero_iff, List.length_drop]
      omega

/-- The place of a day before the year 0, as day texts are ordered: by the first four
digits of the year, then by whether there are more, and then by month and day. -/
def writtenRank (d : Day) : Int :=
  (2 * firstFour d.year.natAbs + if d.year.natAbs < 10000 then 0 else 1) * 372 +
    ((d.month : Int) - 1) * 31 + ((d.day : Int) - 1)

/-- A day before the year 0 whose year has four digits is compared with any other by
`writtenRank`, from both sides. -/
theorem render_lt_of_neg {d e : Day} (hd : -9999 ≤ d.year) (hd' : d.year < 0) (he : e.year < 0) :
    (d.render < e.render ↔ d.writtenRank < e.writtenRank) ∧
      (e.render < d.render ↔ e.writtenRank < d.writtenRank) := by
  have hbound := e.isDay.first_le
  have hn : d.year.natAbs < 10 ^ 4 := by omega
  have hm : e.year.natAbs < 1000000 := by
    unfold firstYear at hbound
    omega
  obtain ⟨more, hmore, hdigits, hshort⟩ := padded_four_eq hm
  have hfour := firstFour_lt hm
  have hlen : (padded 4 d.year.natAbs).length = (padded 4 (firstFour e.year.natAbs)).length := by
    rw [Text.length_padded (by decide) hn, Text.length_padded (by decide) hfour]
  have hmonth := @monthDay_lt_monthDay_iff d e
  have hmonth' := @monthDay_lt_monthDay_iff e d
  have hdBounds := d.monthDay_bounds
  have heBounds := e.monthDay_bounds
  -- the four digits of `d` meet the first four of `e`
  have hfirst : firstFour d.year.natAbs = d.year.natAbs := if_pos hn
  rw [render_eq, render_eq, renderYear_of_neg hd', renderYear_of_neg he, hmore, writtenRank,
    writtenRank, hfirst, if_pos (by omega)]
  simp only [List.cons_append, List.cons_lt_cons_self, List.append_assoc]
  rw [Text.append_lt_append_iff hlen, Text.append_lt_append_iff hlen.symm,
    Text.padded_lt_padded_iff (by decide) hn hfour, Text.padded_lt_padded_iff (by decide) hfour hn,
    Text.padded_inj, Text.padded_inj]
  cases more with
  | nil =>
    rw [if_pos (hshort.1 rfl)]
    simp only [List.nil_append, List.cons_lt_cons_self, hmonth, hmonth']
    omega
  | cons c cs =>
    -- after equal digits the hyphen of `d` meets a digit of `e`, and comes before it
    have hc := Text.digit_bounds (hdigits c List.mem_cons_self)
    have hlong : ¬ e.year.natAbs < 10000 := fun h => absurd (hshort.2 h) (by simp)
    have hhyphen : '-' < c := by
      rw [Text.char_lt_iff]
      show 45 < c.toNat
      omega
    rw [if_neg hlong]
    simp only [List.cons_append, List.cons_lt_cons_iff, hhyphen, true_or, and_true]
    have hnot : ¬ c < '-' := by
      rw [Text.char_lt_iff]
      show ¬ c.toNat < 45
      omega
    have hne : c ≠ '-' := by
      rintro rfl
      exact absurd hc (by decide)
    simp only [hnot, hne, false_and, or_false, and_false]
    omega

end Day

end CrashReports
