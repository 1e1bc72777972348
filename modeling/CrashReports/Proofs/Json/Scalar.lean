import CrashReports.Json.Parsed
import CrashReports.Proofs.Text.Digits

/-!
# Strings and integers of a JSON text

A written string is read up to its closing quote, and a written integer up to the first
character that cannot go on with a number.  In a string each character is written as itself,
as an escape of one letter, or by its code; the reader gets over each of the three and has the
code of the character (`readUnits_escapeChar`).  Characters are no surrogates, so their codes
come back one by one.
-/

namespace CrashReports.Json

open Text

/-! ### Strings -/

/-- How a character stands inside a string. -/
inductive IsEscapeOf (c : Char) : List Char → Prop
  | letter {e : Char} (h : shortEscape? e = some c) : IsEscapeOf c ['\\', e]
  | code {a b : Char} (h : hexNumber? ['0', '0', a, b] = some c.toNat) :
      IsEscapeOf c ['\\', 'u', '0', '0', a, b]
  | plain (hquote : c ≠ '"') (hslash : c ≠ '\\') (hprint : 0x20 ≤ c.toNat) : IsEscapeOf c [c]

theorem hexNumber?_of_control :
    ∀ n < 0x20, hexNumber? ['0', '0', hexDigit (n / 16), hexDigit (n % 16)] = some n := by
  decide

theorem isEscapeOf_escapeChar (c : Char) : IsEscapeOf c (escapeChar c) := by
  unfold escapeChar
  split_ifs with hquote hslash hback hfeed hline hreturn htab hcontrol
  case pos => subst hquote; exact .letter (by decide)
  case pos => subst hslash; exact .letter (by decide)
  case pos => subst hback; exact .letter (by decide)
  case pos => subst hfeed; exact .letter (by decide)
  case pos => subst hline; exact .letter (by decide)
  case pos => subst hreturn; exact .letter (by decide)
  case pos => subst htab; exact .letter (by decide)
  case pos => exact .code (hexNumber?_of_control _ hcontrol)
  case neg => exact .plain hquote hslash (Nat.le_of_not_lt hcontrol)

theorem readUnits_letter {e c : Char} (h : shortEscape? e = some c) (rest : List Char) :
    readUnits ('\\' :: e :: rest) = (readUnits rest).map fun p => (c.toNat :: p.1, p.2) := by
  have hne : e ≠ 'u' := by
    rintro rfl
    cases h
  rw [readUnits.eq_4 _ _ fun _ _ _ _ _ he _ => hne he, h]
  cases readUnits rest <;> rfl

theorem readUnits_code {a b c d : Char} {n : Nat} (h : hexNumber? [a, b, c, d] = some n)
    (rest : List Char) :
    readUnits ('\\' :: 'u' :: a :: b :: c :: d :: rest) =
      (readUnits rest).map fun p => (n :: p.1, p.2) := by
  rw [readUnits.eq_3, h]
  cases readUnits rest <;> rfl

theorem readUnits_plain {c : Char} (hquote : c ≠ '"') (hslash : c ≠ '\\') (hprint : 0x20 ≤ c.toNat)
    (rest : List Char) :
    readUnits (c :: rest) = (readUnits rest).map fun p => (c.toNat :: p.1, p.2) := by
  rw [readUnits.eq_5 _ _ hquote (fun _ _ _ _ _ hc _ => hslash hc) (fun _ _ hc _ => hslash hc),
    if_neg (by omega)]
  cases readUnits rest <;> rfl

/-- The reader gets over a written character and has its code. -/
theorem readUnits_escapeChar (c : Char) (rest : List Char) :
    readUnits (escapeChar c ++ rest) = (readUnits rest).map fun p => (c.toNat :: p.1, p.2) := by
  have h := isEscapeOf_escapeChar c
  revert h
  generalize escapeChar c = cs
  intro h
  cases h with
  | letter h => exact readUnits_letter h rest
  | code h => exact readUnits_code h rest
  | plain hquote hslash hprint => exact readUnits_plain hquote hslash hprint rest

theorem readUnits_flatMap (cs rest : List Char) :
    readUnits (cs.flatMap escapeChar ++ '"' :: rest) = some (cs.map Char.toNat, rest) := by
  induction cs with
  | nil => exact readUnits.eq_2 rest
  | cons c cs ih =>
    rw [List.flatMap_cons, List.append_assoc, readUnits_escapeChar, ih]
    rfl

theorem isSurrogate_toNat (c : Char) :
    isHighSurrogate c.toNat = false ∧ isLowSurrogate c.toNat = false := by
  have hvalid : c.toNat < 0xD800 ∨ 0xDFFF < c.toNat ∧ c.toNat < 0x110000 := c.valid
  simp only [isHighSurrogate, isLowSurrogate, Bool.and_eq_false_iff, decide_eq_false_iff_not]
  omega

/-- The codes of characters are the text of these characters. -/
theorem pairUnits_map_toNat (cs : List Char) : pairUnits (cs.map Char.toNat) = some cs := by
  induction cs with
  | nil => rfl
  | cons c cs ih =>
    obtain ⟨hhigh, hlow⟩ := isSurrogate_toNat c
    cases cs with
    | nil => simp [pairUnits, hhigh, hlow]
    | cons d cs =>
      rw [List.map_cons] at ih
      simp [pairUnits, hhigh, hlow, ih]

theorem readString_flatMap (s : String) (rest : List Char) :
    readString (s.toList.flatMap escapeChar ++ '"' :: rest) = some (some s, rest) := by
  rw [readString, readUnits_flatMap, Option.map_some]
  dsimp only
  rw [pairUnits_map_toNat, Option.map_some, String.ofList_toList]

/-! ### Integers -/

/-- A text does not go on with a number. -/
def EndsNumber (rest : List Char) : Prop :=
  ∀ c ∈ rest.head?, c.isDigit = false ∧ c ≠ '.' ∧ c ≠ 'e' ∧ c ≠ 'E'

theorem readDigits1_append {digits rest : List Char} (hne : digits ≠ [])
    (hd : ∀ c ∈ digits, c.isDigit = true) (hrest : EndsNumber rest) :
    readDigits1 (digits ++ rest) = some (digits, rest) := by
  have hstop : ∀ c ∈ rest.head?, c.isDigit = false := fun c hc => (hrest c hc).1
  rw [readDigits1, spanDigits]
  dsimp only
  rw [takeWhile_append_of_head hd hstop, dropWhile_append_of_head hd hstop, if_neg hne]

theorem readFraction_of_endsNumber {rest : List Char} (h : EndsNumber rest) :
    readFraction rest = some (none, rest) := by
  unfold readFraction
  split
  case h_1 => exact absurd rfl (h '.' rfl).2.1
  case h_2 => rfl

theorem readExponent_of_endsNumber {rest : List Char} (h : EndsNumber rest) :
    readExponent rest = some (none, rest) := by
  cases rest with
  | nil => rfl
  | cons c rest =>
    obtain ⟨-, -, he, hE⟩ := h c rfl
    exact if_neg (not_or.2 ⟨he, hE⟩)

/-- What is read from the digits of an integer. -/
def integerNumeral (i : Int) : Numeral :=
  ⟨decide (i < 0), decimal i.natAbs, none, none⟩

/-- A number without fraction and exponent, after its sign. -/
theorem readNumeral_decimal (n : Nat) {rest : List Char} (h : EndsNumber rest) :
    readNumeral (decimal n ++ rest) = some (⟨false, decimal n, none, none⟩, rest) ∧
      readNumeral ('-' :: (decimal n ++ rest)) = some (⟨true, decimal n, none, none⟩, rest) := by
  have hdigits := readDigits1_append (decimal_ne_nil n) (fun c hc => isDigit_of_mem_decimal hc) h
  have hzero : ¬ ((decimal n).head? = some '0' ∧ 1 < (decimal n).length) := fun ⟨hhead, hlong⟩ =>
    absurd (head?_decimal hhead) (by omega)
  have hsign : ∀ cs, decimal n ++ rest ≠ '-' :: cs := by
    obtain ⟨c, ds, hcons⟩ := List.exists_cons_of_ne_nil (decimal_ne_nil n)
    have hc : c.isDigit = true := isDigit_of_mem_decimal (n := n) (hcons ▸ List.mem_cons_self)
    intro cs heq
    rw [hcons, List.cons_append] at heq
    rw [(List.cons.inj heq).1] at hc
    cases hc
  have hfraction := readFraction_of_endsNumber h
  have hexponent := readExponent_of_endsNumber h
  constructor
  · unfold readNumeral
    split
    case h_1 negative cs heq =>
      split at heq
      case h_1 after hminus => exact absurd hminus (hsign after)
      case h_2 =>
        obtain ⟨rfl, rfl⟩ := Prod.mk.inj heq
        simp [hdigits, hzero, hfraction, hexponent]
  · unfold readNumeral
    simp [hdigits, hzero, hfraction, hexponent]

theorem readNumeral_signed (i : Int) {rest : List Char} (h : EndsNumber rest) :
    readNumeral (signed i ++ rest) = some (integerNumeral i, rest) := by
  obtain ⟨hplain, hminus⟩ := readNumeral_decimal i.natAbs h
  unfold signed integerNumeral
  by_cases hneg : i < 0
  · rw [if_pos hneg, decide_eq_true hneg]
    exact hminus
  · rw [if_neg hneg, decide_eq_false hneg]
    exact hplain

end CrashReports.Json
