import CrashReports.Text.Character
import Mathlib.Algebra.Group.Nat.Defs
import Mathlib.Data.List.TakeWhile

/-!
# Order and value of decimal digits

Texts of digits of the same length are ordered as the numbers that they write, and
digits of a fixed width are recovered from their number.  Both are what a text of
several numbers needs so that its order is that of the numbers.

A number is written without leading zeros, and a stretch of digits, or of other characters
of one kind, ends where the next character is of another kind.
-/

namespace CrashReports.Text

/-! ### Lexicographic order -/

/-- The order of texts with a first part of the same length is decided by the first part,
and by the rest only if the first parts are the same. -/
theorem append_lt_append_iff {α : Type} [LT α] {a b x y : List α} (h : a.length = b.length) :
    a ++ x < b ++ y ↔ a < b ∨ a = b ∧ x < y := by
  induction a generalizing b with
  | nil =>
    obtain rfl := List.length_eq_zero_iff.1 h.symm
    simp
  | cons c cs ih =>
    obtain ⟨d, ds, rfl⟩ := List.exists_cons_of_length_eq_add_one h.symm
    have hlen : cs.length = ds.length := by simpa using h
    simp only [List.cons_append, List.cons_lt_cons_iff, ih hlen, List.cons.injEq]
    constructor
    · rintro (hlt | ⟨rfl, hlt | ⟨rfl, hlt⟩⟩)
      · exact .inl (.inl hlt)
      · exact .inl (.inr ⟨rfl, hlt⟩)
      · exact .inr ⟨⟨rfl, rfl⟩, hlt⟩
    · rintro ((hlt | ⟨rfl, hlt⟩) | ⟨⟨rfl, rfl⟩, hlt⟩)
      · exact .inl hlt
      · exact .inr ⟨rfl, .inl hlt⟩
      · exact .inr ⟨rfl, .inr ⟨rfl, hlt⟩⟩

/-- Two numbers in a positional system are compared by their leading parts first. -/
theorem mul_add_lt_mul_add_iff {a b p x y : Nat} (hx : x < p) (hy : y < p) :
    a * p + x < b * p + y ↔ a < b ∨ a = b ∧ x < y := by
  obtain hlt | rfl | hgt := Nat.lt_trichotomy a b
  · have hmul : (a + 1) * p ≤ b * p := Nat.mul_le_mul_right p hlt
    rw [Nat.add_mul] at hmul
    omega
  · omega
  · have hmul : (b + 1) * p ≤ a * p := Nat.mul_le_mul_right p hgt
    rw [Nat.add_mul] at hmul
    omega

/-! ### Single digits -/

theorem digit_bounds {c : Char} (h : c.isDigit = true) : 48 ≤ c.toNat ∧ c.toNat ≤ 57 :=
  Char.isDigit_iff_toNat.1 h

theorem char_lt_iff {c d : Char} : c < d ↔ c.toNat < d.toNat := by
  rw [Char.lt_def, UInt32.lt_iff_toNat_lt]
  rfl

theorem digitsValue_cons (c : Char) (cs : List Char) :
    digitsValue (c :: cs) = (c.toNat - 48) * 10 ^ cs.length + digitsValue cs := by
  unfold digitsValue
  rw [Nat.ofDigitChars_cons, Nat.ofDigitChars_eq_ofDigitChars_zero]
  simp [Nat.mul_comm]

theorem digitsValue_append (cs ds : List Char) :
    digitsValue (cs ++ ds) = digitsValue cs * 10 ^ ds.length + digitsValue ds := by
  unfold digitsValue
  rw [Nat.ofDigitChars_append, Nat.ofDigitChars_eq_ofDigitChars_zero, Nat.mul_comm]

theorem digitsValue_lt {ds : List Char} (h : ∀ c ∈ ds, c.isDigit = true) :
    digitsValue ds < 10 ^ ds.length := by
  induction ds with
  | nil => decide
  | cons c cs ih =>
    have hc := digit_bounds (h c (by simp))
    have hcs := ih fun d hd => h d (by simp [hd])
    have hmul : (c.toNat - 48) * 10 ^ cs.length ≤ 9 * 10 ^ cs.length :=
      Nat.mul_le_mul_right _ (by omega)
    rw [digitsValue_cons, List.length_cons, Nat.pow_succ]
    omega

theorem digitsValue_take {ds : List Char} (h : ∀ c ∈ ds, c.isDigit = true) (k : Nat) :
    digitsValue (ds.take k) = digitsValue ds / 10 ^ (ds.length - k) := by
  -- the digits after the first `k` are the remainder
  have hrest := digitsValue_lt fun c hc => h c (List.mem_of_mem_drop (i := k) hc)
  have happend := digitsValue_append (ds.take k) (ds.drop k)
  rw [List.take_append_drop, List.length_drop] at happend
  rw [List.length_drop] at hrest
  rw [happend, Nat.mul_comm, Nat.mul_add_div (Nat.pow_pos (by decide)), Nat.div_eq_of_lt hrest,
    Nat.add_zero]

/-- Digits of the same length are ordered as their numbers. -/
theorem digits_lt_iff {ds es : List Char} (hd : ∀ c ∈ ds, c.isDigit = true)
    (he : ∀ c ∈ es, c.isDigit = true) (hlen : ds.length = es.length) :
    ds < es ↔ digitsValue ds < digitsValue es := by
  induction ds generalizing es with
  | nil =>
    obtain rfl := List.length_eq_zero_iff.1 hlen.symm
    simp
  | cons c cs ih =>
    obtain ⟨d, ds, rfl⟩ := List.exists_cons_of_length_eq_add_one hlen.symm
    have hlen' : cs.length = ds.length := by simpa using hlen
    have hcs : ∀ x ∈ cs, x.isDigit = true := fun x hx => hd x (by simp [hx])
    have hds : ∀ x ∈ ds, x.isDigit = true := fun x hx => he x (by simp [hx])
    have hc := digit_bounds (hd c (by simp))
    have hc' := digit_bounds (he d (by simp))
    have hds' := digitsValue_lt hds
    have hcs' := digitsValue_lt hcs
    rw [hlen'] at hcs'
    -- both orders look at the first digit, and at the others only if that is the same
    rw [List.cons_lt_cons_iff, ih hcs hds hlen', digitsValue_cons, digitsValue_cons, hlen',
      mul_add_lt_mul_add_iff hcs' hds', char_lt_iff, ← Char.toNat_inj]
    omega

/-- Digits of the same length that write the same number are the same. -/
theorem digits_eq_of_value_eq {ds es : List Char} (hd : ∀ c ∈ ds, c.isDigit = true)
    (he : ∀ c ∈ es, c.isDigit = true) (hlen : ds.length = es.length)
    (h : digitsValue ds = digitsValue es) : ds = es := by
  apply List.le_antisymm
  · intro hlt
    have := (digits_lt_iff he hd hlen.symm).1 hlt
    omega
  · intro hlt
    have := (digits_lt_iff hd he hlen).1 hlt
    omega

/-! ### Numbers of a fixed width -/

@[simp]
theorem digitsValue_padded (width n : Nat) : digitsValue (padded width n) = n := by
  rw [padded, digitsValue_append, digitsValue_decimal]
  simp [digitsValue]

theorem isDigit_of_mem_padded {width n : Nat} {c : Char} (h : c ∈ padded width n) :
    c.isDigit = true := by
  rcases List.mem_append.1 h with h | h
  · rw [List.eq_of_mem_replicate h]
    decide
  · exact isDigit_of_mem_decimal h

theorem length_padded {width n : Nat} (hw : 0 < width) (h : n < 10 ^ width) :
    (padded width n).length = width := by
  have hle := (Nat.length_toDigits_le_iff (b := 10) (by decide) hw).2 h
  rw [padded, List.length_append, List.length_replicate, decimal]
  omega

/-- A number that needs more digits than the width has as many as it needs. -/
theorem length_padded_of_le {width k n : Nat} (hw : width ≤ k + 1) (hk : 0 < k) (h : 10 ^ k ≤ n)
    (h' : n < 10 ^ (k + 1)) : (padded width n).length = k + 1 := by
  have hle := (Nat.length_toDigits_le_iff (b := 10) (n := n) (by decide) (Nat.succ_pos k)).2 h'
  have hgt := mt (Nat.length_toDigits_le_iff (b := 10) (n := n) (by decide) hk).1 (by omega)
  rw [padded, List.length_append, List.length_replicate, decimal]
  omega

/-- Digits of a fixed width are those of their number. -/
theorem padded_digitsValue {ds : List Char} (hne : ds ≠ []) (hd : ∀ c ∈ ds, c.isDigit = true) :
    padded ds.length (digitsValue ds) = ds := by
  have hpos : 0 < ds.length := List.length_pos_iff.2 hne
  apply digits_eq_of_value_eq (fun c hc => isDigit_of_mem_padded hc) hd
  · exact length_padded hpos (digitsValue_lt hd)
  · exact digitsValue_padded _ _

@[simp]
theorem padded_inj {width n m : Nat} : padded width n = padded width m ↔ n = m := by
  constructor
  · intro h
    rw [← digitsValue_padded width n, h, digitsValue_padded]
  · rintro rfl
    rfl

theorem padded_lt_padded_iff {width n m : Nat} (hw : 0 < width) (hn : n < 10 ^ width)
    (hm : m < 10 ^ width) : padded width n < padded width m ↔ n < m := by
  rw [digits_lt_iff (fun c hc => isDigit_of_mem_padded hc) (fun c hc => isDigit_of_mem_padded hc)
    (by rw [length_padded hw hn, length_padded hw hm]), digitsValue_padded, digitsValue_padded]

/-! ### Written numbers -/

/-- A number is written without zeros in front. -/
theorem head?_decimal {n : Nat} (h : (decimal n).head? = some '0') : (decimal n).length ≤ 1 := by
  obtain ⟨ds, hds⟩ := List.head?_eq_some_iff.1 h
  have hdigits : ∀ c ∈ ds, c.isDigit = true := fun c hc =>
    isDigit_of_mem_decimal (n := n) (hds ▸ List.mem_cons_of_mem _ hc)
  -- without the zero the number is the same, so it has no more digits than that
  have hvalue : digitsValue ds = n := by
    rw [← digitsValue_decimal n, hds, digitsValue_cons]
    simp
  have hlt := digitsValue_lt hdigits
  rw [hvalue] at hlt
  by_contra hlong
  rw [hds, List.length_cons] at hlong
  have hle := (Nat.length_toDigits_le_iff (b := 10) (by decide) (by omega)).2 hlt
  rw [← decimal, hds, List.length_cons] at hle
  omega

theorem exists_signed_cons (i : Int) :
    ∃ c cs, signed i = c :: cs ∧ (c = '-' ∨ c.isDigit = true) := by
  unfold signed
  split
  case isTrue => exact ⟨'-', _, rfl, .inl rfl⟩
  case isFalse =>
    obtain ⟨c, cs, hcons⟩ := List.exists_cons_of_ne_nil (decimal_ne_nil i.natAbs)
    exact ⟨c, cs, hcons, .inr (isDigit_of_mem_decimal (n := i.natAbs) (hcons ▸ List.mem_cons_self))⟩

/-! ### The stretch that a text begins with -/

section Stretch

variable {p : Char → Bool} {cs rest : List Char} (h : ∀ c ∈ cs, p c = true)
  (hrest : ∀ c ∈ rest.head?, p c = false)
include h hrest

/-- A stretch ends where the next character does not belong to it. -/
theorem takeWhile_append_of_head : (cs ++ rest).takeWhile p = cs := by
  rw [List.takeWhile_append_of_pos h]
  cases rest with
  | nil => simp
  | cons c rest => simp [hrest c rfl]

theorem dropWhile_append_of_head : (cs ++ rest).dropWhile p = rest := by
  rw [List.dropWhile_append_of_pos h]
  cases rest with
  | nil => simp
  | cons c rest => simp [hrest c rfl]

end Stretch

end CrashReports.Text
