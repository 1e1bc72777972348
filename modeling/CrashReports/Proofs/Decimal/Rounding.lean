import CrashReports.Decimal.Binary
import Mathlib.Algebra.Order.Field.Power
import Mathlib.Algebra.Order.Field.Rat
import Mathlib.Tactic.FieldSimp
import Mathlib.Tactic.Linarith
import Mathlib.Tactic.Positivity
import Mathlib.Tactic.Ring

/-!
# The error of rounding

Rounding to a binary format moves a number by half of its last bit at most.  The last bit
is as far below the leading one as the format is wide, unless that lies below the least
exponent; so the error is bounded by the number itself and by the least bit:
`abs_round_sub_le`.
-/

namespace CrashReports.Decimal

theorem power_two_eq (e : Int) : power 2 e = (2 : Rat) ^ e := by
  unfold power
  rw [Nat.pow_eq]
  split
  case isTrue hneg =>
    have he : e = -(e.natAbs : Int) := by omega
    conv_rhs => rw [he]
    rw [zpow_neg, zpow_natCast]
    push_cast
    rw [one_div]
  case isFalse hnonneg =>
    have he : e = (e.natAbs : Int) := by omega
    conv_rhs => rw [he]
    rw [zpow_natCast]
    push_cast
    rfl

/-- The rounded quotient is off by one half at most. -/
theorem abs_divHalfEven_sub_le {n d : Nat} (hd : 0 < d) :
    |(divHalfEven n d : Rat) - (n : Rat) / d| ≤ 1 / 2 := by
  have hd' : (0 : Rat) < d := by exact_mod_cast hd
  have hdiv : (n : Rat) = d * (n / d : Nat) + (n % d : Nat) := by
    exact_mod_cast (Nat.div_add_mod n d).symm
  have hrem : (n : Rat) / d = (n / d : Nat) + ((n % d : Nat) : Rat) / d := by
    conv_lhs => rw [hdiv]
    field_simp
  have hrem0 : (0 : Rat) ≤ ((n % d : Nat) : Rat) / d := by positivity
  have hrem1 : ((n % d : Nat) : Rat) / d ≤ 1 := by
    rw [div_le_one hd']
    exact_mod_cast (Nat.mod_lt n hd).le
  have hlow : 2 * (n % d) ≤ d → ((n % d : Nat) : Rat) / d ≤ 1 / 2 := by
    intro h
    have h' : (2 : Rat) * (n % d : Nat) ≤ d := by exact_mod_cast h
    rw [div_le_iff₀ hd']
    linarith
  have hhigh : d ≤ 2 * (n % d) → 1 / 2 ≤ ((n % d : Nat) : Rat) / d := by
    intro h
    have h' : (d : Rat) ≤ 2 * (n % d : Nat) := by exact_mod_cast h
    rw [le_div_iff₀ hd']
    linarith
  -- below one half it is rounded down and above it up; at one half both are as far off
  rw [hrem, abs_le]
  unfold divHalfEven
  dsimp only
  split
  case isTrue hlt =>
    have := hlow (by omega)
    constructor <;> linarith
  case isFalse hge =>
    split
    case isTrue hgt =>
      have := hhigh (by omega)
      push_cast
      constructor <;> linarith
    case isFalse hle =>
      have hl := hlow (by omega)
      have hh := hhigh (by omega)
      obtain heven | hodd := Nat.mod_two_eq_zero_or_one (n / d)
      · rw [heven]
        push_cast
        constructor <;> linarith
      · rw [hodd]
        push_cast
        constructor <;> linarith

theorem two_zpow_natCast (k : Nat) : (2 : Rat) ^ (k : Int) = ((2 ^ k : Nat) : Rat) := by
  rw [zpow_natCast]
  push_cast
  rfl

/-- The leading bit of a fraction is the greatest power of two that is not greater. -/
theorem two_zpow_leadingBit_le {n d : Nat} (hn : 0 < n) (hd : 0 < d) :
    (2 : Rat) ^ leadingBit n d ≤ (n : Rat) / d := by
  have hd' : (0 : Rat) < d := by exact_mod_cast hd
  have hnlow : (2 : Rat) ^ (Nat.log2 n : Int) ≤ n := by
    rw [two_zpow_natCast]
    exact_mod_cast Nat.log2_self_le (by omega)
  have hdhigh : (d : Rat) ≤ (2 : Rat) ^ ((Nat.log2 d : Int) + 1) := by
    rw [show (Nat.log2 d : Int) + 1 = ((Nat.log2 d + 1 : Nat) : Int) from rfl, two_zpow_natCast]
    exact_mod_cast Nat.lt_log2_self.le
  -- the guess from both logarithms is the leading bit or the one above it
  have hsmaller : (2 : Rat) ^ ((Nat.log2 n : Int) - (Nat.log2 d : Int) - 1) ≤ (n : Rat) / d := by
    rw [le_div_iff₀ hd']
    have hpos : (0 : Rat) ≤ (2 : Rat) ^ ((Nat.log2 n : Int) - (Nat.log2 d : Int) - 1) := by
      positivity
    calc (2 : Rat) ^ ((Nat.log2 n : Int) - (Nat.log2 d : Int) - 1) * d
        ≤ (2 : Rat) ^ ((Nat.log2 n : Int) - (Nat.log2 d : Int) - 1) *
            (2 : Rat) ^ ((Nat.log2 d : Int) + 1) := mul_le_mul_of_nonneg_left hdhigh hpos
      _ = (2 : Rat) ^ (Nat.log2 n : Int) := by
          rw [← zpow_add₀ (by decide)]
          congr 1
          omega
      _ ≤ n := hnlow
  unfold leadingBit
  dsimp only
  rw [Nat.pow_eq]
  split
  case isTrue hneg =>
    split
    case isTrue hle =>
      generalize hk : (Nat.log2 n : Int) - (Nat.log2 d : Int) = k at *
      have he : k = -(k.natAbs : Int) := by omega
      have hle' : (d : Rat) ≤ n * (2 ^ k.natAbs : Nat) := by exact_mod_cast hle
      rw [he, zpow_neg, two_zpow_natCast, le_div_iff₀ hd', inv_mul_le_iff₀ (by positivity),
        mul_comm]
      exact hle'
    case isFalse => exact hsmaller
  case isFalse hnonneg =>
    split
    case isTrue hle =>
      generalize hk : (Nat.log2 n : Int) - (Nat.log2 d : Int) = k at *
      have he : k = (k.natAbs : Int) := by omega
      have hle' : (d : Rat) * (2 ^ k.natAbs : Nat) ≤ n := by exact_mod_cast hle
      rw [he, two_zpow_natCast, le_div_iff₀ hd', mul_comm]
      exact hle'
    case isFalse => exact hsmaller

namespace BinaryFormat

/-- Rounding to a multiple of a power of two is off by half of it at most. -/
theorem abs_roundedBits_sub_le {n d : Nat} (hd : 0 < d) (bit : Int) :
    |(roundedBits n d bit : Rat) * power 2 bit - (n : Rat) / d| ≤ (2 : Rat) ^ bit / 2 := by
  have hquantum : (0 : Rat) < (2 : Rat) ^ bit := by positivity
  have hbits : |(roundedBits n d bit : Rat) - (n : Rat) / d / (2 : Rat) ^ bit| ≤ 1 / 2 := by
    unfold roundedBits
    rw [Nat.pow_eq]
    split
    case isTrue hneg =>
      have he : bit = -(bit.natAbs : Int) := by omega
      have hquot : (n : Rat) / d / (2 : Rat) ^ bit = ((n * 2 ^ bit.natAbs : Nat) : Rat) / d := by
        conv_lhs => rw [he]
        rw [zpow_neg, two_zpow_natCast, div_inv_eq_mul, div_mul_eq_mul_div, Nat.cast_mul]
      rw [hquot]
      exact abs_divHalfEven_sub_le hd
    case isFalse hnonneg =>
      have he : bit = (bit.natAbs : Int) := by omega
      have hquot : (n : Rat) / d / (2 : Rat) ^ bit =
          (n : Rat) / ((d * 2 ^ bit.natAbs : Nat) : Rat) := by
        conv_lhs => rw [he]
        rw [two_zpow_natCast, div_div, Nat.cast_mul]
      rw [hquot]
      exact abs_divHalfEven_sub_le (by positivity)
  have hfactor : (roundedBits n d bit : Rat) * power 2 bit - (n : Rat) / d =
      ((roundedBits n d bit : Rat) - (n : Rat) / d / (2 : Rat) ^ bit) * (2 : Rat) ^ bit := by
    rw [power_two_eq, sub_mul, div_mul_cancel₀ _ hquantum.ne']
  rw [hfactor, abs_mul, abs_of_pos hquantum]
  calc |(roundedBits n d bit : Rat) - (n : Rat) / d / (2 : Rat) ^ bit| * (2 : Rat) ^ bit
      ≤ 1 / 2 * (2 : Rat) ^ bit := mul_le_mul_of_nonneg_right hbits hquantum.le
    _ = (2 : Rat) ^ bit / 2 := by ring

theorem abs_roundMagnitude_sub_le (f : BinaryFormat) {x : Rat} (hx : 0 ≤ x) :
    |f.roundMagnitude x - x| ≤ x / 2 ^ f.width + (2 : Rat) ^ f.least := by
  have hleast : (0 : Rat) < (2 : Rat) ^ f.least := by positivity
  have hnum : 0 ≤ x.num := Rat.num_nonneg.2 hx
  have hfrac : ((x.num.natAbs : Nat) : Rat) / x.den = x := by
    conv_rhs => rw [← Rat.num_div_den x]
    congr 1
    rw [← Int.cast_natCast, Int.natAbs_of_nonneg hnum]
  unfold roundMagnitude
  dsimp only
  split
  case isTrue hzero =>
    have hx0 : x = 0 := by
      rw [← hfrac, hzero]
      simp
    rw [hx0]
    simpa using hleast.le
  case isFalse hne =>
    have hlead := two_zpow_leadingBit_le (Nat.pos_of_ne_zero hne) x.den_pos
    have herror := abs_roundedBits_sub_le (n := x.num.natAbs) x.den_pos
      (f.lastBit x.num.natAbs x.den)
    rw [hfrac] at hlead herror
    refine herror.trans ?_
    unfold lastBit
    -- the last bit is a fraction of the leading one, or the least bit of the format
    rcases max_cases (leadingBit x.num.natAbs x.den - f.width + 1) f.least with
      ⟨hmax, -⟩ | ⟨hmax, -⟩
    · have hquantum : (2 : Rat) ^ (leadingBit x.num.natAbs x.den - f.width + 1) / 2 =
          (2 : Rat) ^ leadingBit x.num.natAbs x.den / 2 ^ f.width := by
        rw [zpow_add₀ (by decide), zpow_sub₀ (by decide), zpow_natCast, zpow_one]
        ring
      rw [hmax, hquantum]
      have hle : (2 : Rat) ^ leadingBit x.num.natAbs x.den / 2 ^ f.width ≤ x / 2 ^ f.width := by
        gcongr
      linarith
    · rw [hmax]
      have hnonneg : 0 ≤ x / 2 ^ f.width := by positivity
      linarith

/-- A rounded number is off by a fraction of itself and by the least bit at most. -/
theorem abs_round_sub_le (f : BinaryFormat) (x : Rat) :
    |f.round x - x| ≤ |x| / 2 ^ f.width + (2 : Rat) ^ f.least := by
  unfold round
  split
  case isTrue hneg =>
    have hx : x < 0 := Rat.num_neg.1 hneg
    have herror := f.abs_roundMagnitude_sub_le (x := -x) (by linarith)
    rw [abs_of_neg hx, ← abs_neg]
    simpa [sub_eq_add_neg, add_comm] using herror
  case isFalse hnonneg =>
    have hx : 0 ≤ x := Rat.num_nonneg.1 (by omega)
    rw [abs_of_nonneg hx]
    exact f.abs_roundMagnitude_sub_le hx

end BinaryFormat

end CrashReports.Decimal
