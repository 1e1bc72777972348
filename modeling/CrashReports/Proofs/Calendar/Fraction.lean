import CrashReports.Proofs.Calendar.Layout

/-!
# Fractions of a second

A fraction is a point and digits, of which the first nine count: the nanoseconds are the
number of these digits, with zeros up to nine (`scaled`).  A fraction is read up to where its
digits end (`readFraction_append`), and a written one of 0, 3, 6 or 9 digits is read as the
nanoseconds that were written.
-/

namespace CrashReports

open Text

/-! ### The first digits of a number -/

/-- The number of the first digits of a fraction, with zeros up to a width. -/
def scaled (width : Nat) (digits : List Char) : Nat :=
  digitsValue (digits.take width) * 10 ^ (width - (digits.take width).length)

theorem scaled_nil (width : Nat) : scaled width [] = 0 := by
  simp [scaled, digitsValue]

theorem scaled_cons (width : Nat) (c : Char) (cs : List Char) :
    scaled (width + 1) (c :: cs) = (c.toNat - 48) * 10 ^ width + scaled width cs := by
  have hlength : (cs.take width).length ≤ width := List.length_take_le _ _
  unfold scaled
  rw [List.take_succ_cons, digitsValue_cons, List.length_cons, Nat.add_mul, Nat.mul_assoc,
    ← Nat.pow_add, Nat.add_sub_add_right, Nat.add_sub_cancel' hlength]

theorem scaled_lt (width : Nat) {digits : List Char} (h : ∀ c ∈ digits, c.isDigit = true) :
    scaled width digits < 10 ^ width := by
  have hlength : (digits.take width).length ≤ width := List.length_take_le _ _
  have hvalue := digitsValue_lt fun c hc => h c (List.take_subset width _ hc)
  unfold scaled
  calc digitsValue (digits.take width) * 10 ^ (width - (digits.take width).length)
      < 10 ^ (digits.take width).length * 10 ^ (width - (digits.take width).length) :=
        Nat.mul_lt_mul_of_pos_right hvalue (Nat.pow_pos (by decide))
    _ = 10 ^ width := by rw [← Nat.pow_add, Nat.add_sub_cancel' hlength]

/-- Of fewer digits than the width none is left out. -/
theorem scaled_padded {width k n : Nat} (hk : 0 < k ∧ k ≤ width) (hn : n < 10 ^ k) :
    scaled width (padded k n) = n * 10 ^ (width - k) := by
  have hlen := length_padded hk.1 hn
  rw [scaled, List.take_of_length_le (by omega), hlen, digitsValue_padded]

/-- Of the digits of a number as many are read as the width allows. -/
theorem readDigits_take {width : Nat} (hw : 0 < width) {digits rest : List Char} (hne : digits ≠ [])
    (hd : ∀ c ∈ digits, c.isDigit = true) (hrest : ∀ c ∈ rest.head?, c.isDigit = false) :
    readDigits width (digits ++ rest) =
      .ok (digitsValue (digits.take width), digits.drop width ++ rest) := by
  have hfirst : ∀ c ∈ digits.take width, c.isDigit = true :=
    fun c hc => hd c (List.mem_of_mem_take hc)
  have hnonempty : digits.take width ≠ [] := by
    rw [ne_eq, List.take_eq_nil_iff]
    exact fun h => h.elim (Nat.ne_of_gt hw) hne
  have hlength : (digits.take width).length = min width digits.length := List.length_take
  have hstop : ∀ c ∈ ((digits.drop width ++ rest).take (width - (digits.take width).length)).head?,
      c.isDigit = false := by
    intro c hc
    -- if there is room for more, then all digits have been read
    by_cases hlong : width ≤ digits.length
    · rw [show width - (digits.take width).length = 0 by omega, List.take_zero] at hc
      cases hc
    · rw [List.drop_of_length_le (by omega), List.nil_append] at hc
      rw [List.head?_take, if_neg (by omega)] at hc
      exact hrest c hc
  have hsplit : digits ++ rest = digits.take width ++ (digits.drop width ++ rest) := by
    rw [← List.append_assoc, List.take_append_drop]
  rw [hsplit]
  exact readDigits_append hnonempty hfirst (List.length_take_le _ _) hstop

/-! ### Fractions as texts -/

/-- The text of a fraction of a second, with its nanoseconds. -/
inductive IsFraction : List Char → Nat → Prop
  | missing : IsFraction [] 0
  | point {digits : List Char} (hne : digits ≠ []) (hd : ∀ c ∈ digits, c.isDigit = true) :
      IsFraction ('.' :: digits) (scaled 9 digits)

/-- A fraction is read up to where it ends; digits after the ninth are passed over. -/
theorem readFraction_append {fraction rest : List Char} {nano : Nat}
    (h : IsFraction fraction nano) (hrest : ∀ c ∈ rest.head?, c ≠ '.' ∧ c.isDigit = false) :
    readFraction (fraction ++ rest) = .ok (nano, rest) := by
  cases h with
  | missing =>
    unfold readFraction
    split
    case h_1 after heq =>
      rw [List.nil_append] at heq
      exact absurd rfl (hrest '.' (heq ▸ rfl)).1
    case h_2 => rfl
  | @point digits hne hd =>
    have hread := readDigits_take (by decide : 0 < 9) hne hd fun c hc => (hrest c hc).2
    have hmore : ∀ c ∈ digits.drop 9, c.isDigit = true := fun c hc => hd c (List.mem_of_mem_drop hc)
    have hend : rest.dropWhile Char.isDigit = rest := by
      cases rest with
      | nil => rfl
      | cons c cs => exact List.dropWhile_cons_of_neg (by simp [(hrest c rfl).2])
    have hwidth : (digits ++ rest).length - (digits.drop 9 ++ rest).length =
        (digits.take 9).length := by
      simp only [List.length_append, List.length_drop, List.length_take]
      omega
    rw [List.cons_append]
    show (readDigits 9 (digits ++ rest) >>= fun x => pure (x.1 * Nat.pow 10
      (9 - ((digits ++ rest).length - x.2.length)), x.2.dropWhile Char.isDigit)) = _
    rw [hread, ok_bind, hwidth, List.dropWhile_append_of_pos hmore, hend]
    rfl

theorem isFraction_padded {k n : Nat} (hk : 0 < k ∧ k ≤ 9) (hn : n < 10 ^ k) :
    IsFraction ('.' :: padded k n) (n * 10 ^ (9 - k)) := by
  have hnumber := isNumber_padded k n
  rw [← scaled_padded hk hn]
  exact .point hnumber.ne_nil hnumber.isDigit

/-- The unit of a written fraction is known by the number of its digits. -/
theorem isFraction_renderFraction {nano : Nat} (h : nano < 1000000000) :
    IsFraction (TimeOfDay.renderFraction nano) nano := by
  unfold TimeOfDay.renderFraction
  split
  case isTrue hzero =>
    rw [hzero]
    exact .missing
  case isFalse =>
    split
    case isTrue hmilli =>
      have htext := isFraction_padded (by decide : 0 < 3 ∧ 3 ≤ 9) (show nano / 1000000 < _ by omega)
      rwa [show nano / 1000000 * 10 ^ (9 - 3) = nano by omega] at htext
    case isFalse =>
      split
      case isTrue hmicro =>
        have htext := isFraction_padded (by decide : 0 < 6 ∧ 6 ≤ 9) (show nano / 1000 < _ by omega)
        rwa [show nano / 1000 * 10 ^ (9 - 6) = nano by omega] at htext
      case isFalse =>
        have htext := isFraction_padded (by decide : 0 < 9 ∧ 9 ≤ 9) h
        rwa [show nano * 10 ^ (9 - 9) = nano by omega] at htext

end CrashReports
