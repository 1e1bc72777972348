import CrashReports.Proofs.Decimal.Rounding
import CrashReports.Proofs.Store.JulianDay
import CrashReports.Store.StoredDay
import Mathlib.Data.List.Induction
import Mathlib.Data.List.TakeWhile
import Mathlib.Tactic.NormNum

/-!
# Bounds of stored times

The fraction of a second is read digit by digit in double precision, so it is not below
one second by its form.  It stays below a small bound though: the value of the digits and
the power of ten under it err by a little in each step, and the power leaves the range of
double precision before many steps are made.

With that bound a time of day is less than two days long, and a time alone, which is
counted from 2000-01-01, is an instant that the store can compute with.
-/

namespace CrashReports.Store

open Decimal

/-! ### The fraction of a second -/

/-- A rough bound for the error of double precision. -/
theorem abs_double_round_sub_le (x : Rat) : |double.round x - x| ≤ (|x| + 1) / 1000000000 := by
  have herror := double.abs_round_sub_le x
  have hleast : (2 : Rat) ^ double.least ≤ 1 / 2 ^ 53 := by
    have hpow : (2 : Rat) ^ double.least ≤ (2 : Rat) ^ (-53 : Int) :=
      zpow_le_zpow_right₀ (by decide) (by decide)
    have hinv : (2 : Rat) ^ (-53 : Int) = 1 / 2 ^ 53 := by
      rw [zpow_neg, one_div]
      rfl
    rwa [hinv] at hpow
  have hwidth : double.width = 53 := rfl
  rw [hwidth] at herror
  have habs := abs_nonneg x
  have hdiv : |x| / 2 ^ 53 ≤ |x| / 1000000000 := by
    apply div_le_div_of_nonneg_left habs (by positivity)
    decide
  have hone : (1 : Rat) / 2 ^ 53 ≤ 1 / 1000000000 := by norm_num
  rw [add_div]
  linarith

theorem abs_double_round_le (x : Rat) : |double.round x| ≤ |x| + (|x| + 1) / 1000000000 := by
  have hsub := abs_double_round_sub_le x
  have htri := abs_add_le (double.round x - x) x
  rw [sub_add_cancel] at htri
  linarith

theorem abs_pushDigit_le {c : Char} (hc : c.isDigit = true) (x : Rat) :
    |pushDigit x c| + 10 ≤ 10 * (|x| + 10) * (1 + 1 / 100000000) := by
  obtain ⟨hlow, hhigh⟩ := Char.isDigit_iff_toNat.1 hc
  have hlow' : (48 : Rat) ≤ c.toNat := by exact_mod_cast hlow
  have hhigh' : (c.toNat : Rat) ≤ 57 := by exact_mod_cast hhigh
  have hzero : (('0'.toNat : Nat) : Rat) = 48 := rfl
  unfold pushDigit
  rw [hzero]
  -- each of the three roundings adds its own error to that of the one before
  generalize htens : double.round (x * 10) = tens
  generalize hsum : double.round (tens + (c.toNat : Rat)) = sum
  have h1 := abs_double_round_sub_le (x * 10)
  have h2 := abs_double_round_sub_le (tens + (c.toNat : Rat))
  have h3 := abs_double_round_le (sum - 48)
  rw [htens, abs_mul, abs_of_pos (by decide : (0 : Rat) < 10)] at h1
  rw [hsum] at h2
  have hten : |x * 10| = |x| * 10 := by rw [abs_mul, abs_of_pos (by decide : (0 : Rat) < 10)]
  have habs := abs_nonneg x
  have htens' : |tens| ≤ |x| * 10 + (|x| * 10 + 1) / 1000000000 := by
    have htri := abs_add_le (tens - x * 10) (x * 10)
    rw [sub_add_cancel, hten] at htri
    linarith
  have hsum' : |tens + (c.toNat : Rat)| ≤ |tens| + 57 := by
    have htri := abs_add_le tens (c.toNat : Rat)
    rw [abs_of_nonneg (by linarith : (0 : Rat) ≤ c.toNat)] at htri
    linarith
  have hlast : |sum - 48| ≤ |sum - (tens + (c.toNat : Rat))| + |tens| + 9 := by
    have hsplit : sum - 48 =
        (sum - (tens + (c.toNat : Rat))) + (tens + ((c.toNat : Rat) - 48)) := by
      ring
    have htri := abs_add_le (sum - (tens + (c.toNat : Rat))) (tens + ((c.toNat : Rat) - 48))
    have htri' := abs_add_le tens ((c.toNat : Rat) - 48)
    rw [abs_of_nonneg (by linarith : (0 : Rat) ≤ (c.toNat : Rat) - 48)] at htri'
    rw [hsplit]
    linarith
  linarith

/-- The value of the digits of a fraction and the power of ten under it, with the error
that each digit may add. -/
theorem fraction_bounds {digits : List Char} (h : ∀ c ∈ digits, c.isDigit = true) :
    (2 : Rat) ^ digits.length ≤ digits.foldl (fun x _ => double.round (x * 10)) 1 ∧
      (digits.length ≤ 2000 →
        |digits.foldl pushDigit 0| + 10 ≤
          10 * (1 + (digits.length : Rat) / 1000000) *
            digits.foldl (fun x _ => double.round (x * 10)) 1) := by
  -- each digit is pushed after those before it, so the induction is on the last digit; the
  -- power may lose a little and the value may gain one, and both are within the factor
  induction digits using List.reverseRecOn with
  | nil => simp
  | append_singleton digits c ih =>
    obtain ⟨hscale, hvalue⟩ := ih fun d hd => h d (by simp [hd])
    have hc := h c (by simp)
    simp only [List.foldl_append, List.foldl_cons, List.foldl_nil, List.length_append,
      List.length_singleton]
    generalize digits.foldl (fun x _ => double.round (x * 10)) 1 = scale at *
    generalize digits.foldl pushDigit 0 = value at *
    have hpow : (1 : Rat) ≤ 2 ^ digits.length := one_le_pow₀ (by decide)
    have hround := abs_double_round_sub_le (scale * 10)
    rw [abs_mul, abs_of_pos (by decide : (0 : Rat) < 10),
      abs_of_nonneg (by linarith : (0 : Rat) ≤ scale), abs_le] at hround
    have hnext : 10 * scale * (1 - 1 / 100000000) ≤ double.round (scale * 10) := by
      linarith [hround.1]
    constructor
    · rw [pow_succ]
      linarith
    · intro hlen
      have hvalue := hvalue (by omega)
      have hpush := abs_pushDigit_le hc value
      have hlen' : (digits.length : Rat) ≤ 2000 := by
        exact_mod_cast (show digits.length ≤ 2000 by omega)
      have hlen0 : (0 : Rat) ≤ digits.length := by positivity
      push_cast
      have hfactor : (1 + (digits.length : Rat) / 1000000) * (1 + 1 / 100000000) ≤
          (1 + ((digits.length : Rat) + 1) / 1000000) * (1 - 1 / 100000000) := by
        linarith
      calc |pushDigit value c| + 10
          ≤ 10 * (|value| + 10) * (1 + 1 / 100000000) := hpush
        _ ≤ 10 * (10 * (1 + (digits.length : Rat) / 1000000) * scale) * (1 + 1 / 100000000) := by
            gcongr
        _ = 100 * scale * ((1 + (digits.length : Rat) / 1000000) * (1 + 1 / 100000000)) := by ring
        _ ≤ 100 * scale *
              ((1 + ((digits.length : Rat) + 1) / 1000000) * (1 - 1 / 100000000)) := by
            apply mul_le_mul_of_nonneg_left hfactor
            linarith
        _ = 10 * (1 + ((digits.length : Rat) + 1) / 1000000) *
              (10 * scale * (1 - 1 / 100000000)) := by ring
        _ ≤ 10 * (1 + ((digits.length : Rat) + 1) / 1000000) * double.round (scale * 10) := by
            gcongr

theorem lt_of_natAbs_num_lt {x : Rat} {bound : Nat} (h : x.num.natAbs < bound * x.den) :
    x < bound := by
  have hden : (0 : Rat) < x.den := by exact_mod_cast x.den_pos
  have hnum : (x.num : Rat) ≤ ((x.num.natAbs : Nat) : Rat) := by
    rw [← Int.cast_natCast]
    exact_mod_cast Int.le_natAbs
  have h' : ((x.num.natAbs : Nat) : Rat) < (bound : Rat) * (x.den : Rat) := by
    exact_mod_cast h
  rw [← Rat.num_div_den x, div_lt_iff₀ hden]
  exact lt_of_le_of_lt hnum h'

/-- The bound of double precision, with an exponent that is not computed with. -/
theorem exists_lt_of_not_tooLarge {x : Rat} (h : ¬ tooLargeForDouble x = true) :
    ∃ k, k = 1024 ∧ x.num.natAbs < Nat.pow 2 k * x.den := by
  unfold tooLargeForDouble at h
  rw [decide_eq_true_iff, not_le] at h
  exact ⟨1024, rfl, h⟩

theorem abs_fractionOf_le {digits : List Char} (h : ∀ c ∈ digits, c.isDigit = true) {x : Rat}
    (hx : fractionOf digits = some x) : |x| ≤ 12 := by
  obtain ⟨hscale, hvalue⟩ := fraction_bounds h
  unfold fractionOf at hx
  dsimp only at hx
  generalize digits.foldl (fun x _ => double.round (x * 10)) 1 = scale at *
  generalize digits.foldl pushDigit 0 = value at *
  split at hx
  case isTrue =>
    split at hx
    case isTrue => cases hx
    case isFalse =>
      obtain rfl := Option.some.inj hx
      decide
  case isFalse hsmall =>
    obtain rfl := Option.some.inj hx
    -- the power at least doubles with each digit, so it leaves the range of double precision
    have hlen : digits.length < 1024 := by
      by_contra hge
      obtain ⟨k, hk, hnum⟩ := exists_lt_of_not_tooLarge hsmall
      have hpow : 2 ^ k ≤ 2 ^ digits.length := Nat.pow_le_pow_right (by decide) (by omega)
      have hscale' : ((2 ^ digits.length : Nat) : Rat) ≤ scale := by exact_mod_cast hscale
      have hlarge := lt_of_natAbs_num_lt (hnum.trans_le (Nat.mul_le_mul_right _ hpow))
      exact absurd hlarge (not_lt.2 hscale')
    have hlen' : (digits.length : Rat) ≤ 1024 := by exact_mod_cast hlen.le
    have hpos : (0 : Rat) < scale := lt_of_lt_of_le (by positivity) hscale
    have hvalue := hvalue (by omega)
    have hratio : |value / scale| ≤ 11 := by
      rw [abs_div, abs_of_pos hpos, div_le_iff₀ hpos]
      have hbound : 10 * (1 + (digits.length : Rat) / 1000000) * scale ≤ 11 * scale := by
        apply mul_le_mul_of_nonneg_right _ hpos.le
        linarith
      linarith
    have hround := abs_double_round_le (value / scale)
    linarith

/-- A second with its fraction is not longer than a hundred of them. -/
theorem millisOf_le {seconds : Nat} (hs : seconds ≤ 59) {fraction : List Char}
    (h : ∀ c ∈ fraction, c.isDigit = true) {millis : Nat}
    (hm : millisOf seconds fraction = some millis) : millis ≤ 100000 := by
  unfold millisOf at hm
  split at hm
  case isTrue =>
    obtain rfl := Option.some.inj hm
    omega
  case isFalse =>
    obtain ⟨x, hx, hmillis⟩ := Option.bind_eq_some_iff.1 hm
    obtain rfl := Option.some.inj hmillis
    have hx := abs_fractionOf_le h hx
    have hs' : (seconds : Rat) ≤ 59 := by exact_mod_cast hs
    have hs0 : (0 : Rat) ≤ seconds := by positivity
    -- the sum, the thousands and the half are rounded one after the other
    have h1 := abs_double_round_le ((seconds : Rat) + x)
    have h1' := abs_add_le (seconds : Rat) x
    rw [abs_of_nonneg hs0] at h1'
    generalize double.round ((seconds : Rat) + x) = s at *
    have h2 := abs_double_round_le (s * 1000)
    rw [abs_mul, abs_of_pos (by decide : (0 : Rat) < 1000)] at h2
    generalize double.round (s * 1000) = thousands at *
    have h3 := abs_double_round_le (thousands + 1 / 2)
    have h3' := abs_add_le thousands (1 / 2)
    rw [abs_of_pos (by norm_num : (0 : Rat) < 1 / 2)] at h3'
    generalize double.round (thousands + 1 / 2) = rounded at *
    have habs : |rounded| ≤ 99999 := by linarith
    obtain ⟨hlow, hhigh⟩ := abs_le.1 habs
    have hfloor : rounded.floor ≤ 99999 := by
      have hle : (rounded.floor : Rat) ≤ 99999 := (Rat.floor_le rounded).trans hhigh
      exact_mod_cast hle
    have hfloor' : -100000 ≤ rounded.floor := by
      rw [Rat.le_floor_iff]
      push_cast
      linarith
    omega

/-! ### Times of day -/

/-- A time of day is less than two days long, and its zone less than a day away. -/
def StatedTime.IsBounded (t : StatedTime) : Prop :=
  t.millis ≤ 90040000 ∧ -899 ≤ t.zone ∧ t.zone ≤ 899

theorem readBounded_le {width low high : Nat} {cs rest : List Char} {n : Nat}
    (h : readBounded width low high cs = some (n, rest)) : low ≤ n ∧ n ≤ high := by
  unfold readBounded at h
  obtain ⟨⟨m, tail⟩, -, hm⟩ := Option.bind_eq_some_iff.1 h
  dsimp only at hm
  split at hm
  case isTrue hbounds =>
    obtain ⟨rfl, rfl⟩ := Prod.mk.inj (Option.some.inj hm)
    exact hbounds
  case isFalse => cases hm

theorem readSeconds_le {cs rest : List Char} {millis : Nat}
    (h : readSeconds cs = some (millis, rest)) : millis ≤ 100000 := by
  unfold readSeconds at h
  split at h
  case h_1 tail =>
    obtain ⟨⟨seconds, after⟩, hseconds, hmillis⟩ := Option.bind_eq_some_iff.1 h
    have hle := (readBounded_le hseconds).2
    dsimp only at hmillis
    split at hmillis
    case h_1 fraction =>
      split at hmillis
      case isTrue =>
        obtain ⟨rfl, -⟩ := Prod.mk.inj (Option.some.inj hmillis)
        omega
      case isFalse =>
        obtain ⟨n, hn, hpair⟩ := Option.map_eq_some_iff.1 hmillis
        obtain ⟨rfl, -⟩ := Prod.mk.inj hpair
        have hdigits : ∀ c ∈ fraction.takeWhile Char.isDigit, c.isDigit = true :=
          fun c hc => List.mem_takeWhile_imp hc
        exact millisOf_le hle hdigits hn
    case h_2 =>
      obtain ⟨rfl, -⟩ := Prod.mk.inj (Option.some.inj hmillis)
      omega
  case h_2 =>
    obtain ⟨rfl, -⟩ := Prod.mk.inj (Option.some.inj h)
    omega

theorem readZone_bounds {cs : List Char} {zone : Int} (h : readZone cs = some zone) :
    -899 ≤ zone ∧ zone ≤ 899 := by
  unfold readZone at h
  -- no zone and Z are zero; a sign is followed by hours and minutes
  split at h
  case h_1 =>
    obtain rfl := Option.some.inj h
    decide
  case h_2 c rest _ =>
    split at h
    case isTrue =>
      split at h
      case isTrue =>
        obtain rfl := Option.some.inj h
        decide
      case isFalse => cases h
    case isFalse =>
      split at h
      case isTrue =>
        obtain ⟨⟨hours, rest'⟩, hhours, h⟩ := Option.bind_eq_some_iff.1 h
        obtain ⟨rest'', -, h⟩ := Option.bind_eq_some_iff.1 h
        obtain ⟨⟨minutes, last⟩, hminutes, h⟩ := Option.bind_eq_some_iff.1 h
        have hle := (readBounded_le hhours).2
        have hle' := (readBounded_le hminutes).2
        dsimp only at h
        split at h
        case isTrue =>
          obtain rfl := Option.some.inj h
          constructor <;> split <;> omega
        case isFalse => cases h
      case isFalse => cases h

theorem isBounded_of_readTime {cs : List Char} {t : StatedTime} (h : readTime cs = some t) :
    t.IsBounded := by
  unfold readTime at h
  obtain ⟨⟨hours, rest⟩, hhours, h⟩ := Option.bind_eq_some_iff.1 h
  obtain ⟨rest', -, h⟩ := Option.bind_eq_some_iff.1 h
  obtain ⟨⟨minutes, rest''⟩, hminutes, h⟩ := Option.bind_eq_some_iff.1 h
  obtain ⟨⟨millis, last⟩, hseconds, h⟩ := Option.bind_eq_some_iff.1 h
  obtain ⟨zone, hzone, h⟩ := Option.bind_eq_some_iff.1 h
  obtain rfl := Option.some.inj h
  have hle := (readBounded_le hhours).2
  have hle' := (readBounded_le hminutes).2
  have hle'' := readSeconds_le hseconds
  refine ⟨?_, readZone_bounds hzone⟩
  dsimp only at hle hle' hle'' ⊢
  omega

/-! ### Instants -/

theorem isInstant_iff {t : Int} : isInstant t = true ↔ 0 ≤ t ∧ t ≤ 464269060799999 := by
  rw [isInstant, Bool.and_eq_true, decide_eq_true_iff, decide_eq_true_iff]
  rfl

theorem Ymd.ofInstant_year_bounds {t : Int} (h : isInstant t = true) :
    -4713 ≤ (Ymd.ofInstant t).year ∧ (Ymd.ofInstant t).year ≤ 9999 := by
  rw [isInstant_iff] at h
  rw [Ymd.ofInstant_eq_ofNumber]
  apply Ymd.ofNumber_year_bounds <;> simp only [Ymd.numberOf, dayMillis] <;> omega

theorem isInstant_of_time {t : StatedTime} (h : t.IsBounded) :
    isInstant (instantOf ⟨2000, 1, 1⟩ t) = true := by
  obtain ⟨hmillis, hlow, hhigh⟩ := h
  have hinstant : (⟨2000, 1, 1⟩ : Ymd).instant = 211813444800000 := by decide
  rw [isInstant_iff, instantOf, hinstant]
  omega

end CrashReports.Store
