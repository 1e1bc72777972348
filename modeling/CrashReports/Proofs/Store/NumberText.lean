import CrashReports.Proofs.Calendar.Layout
import CrashReports.Proofs.Store.WrittenStamp

/-!
# Texts that begin with a number

What follows the first number of a text tells its kinds apart: a hyphen follows the year
of a day, a colon the hour of a time, and neither follows the digits of a number, whether
it is read (`beginsWithNumber_of_readNumber`) or written (`beginsWithNumber_render`).
-/

namespace CrashReports.Store

open Text

/-- A sign, or none. -/
def IsSign (cs : List Char) : Prop :=
  cs = [] ∨ cs = ['-'] ∨ cs = ['+']

/-- A text that begins with a number, and what follows the number. -/
inductive BeginsWithNumber : List Char → List Char → Prop
  | mk {blanks sign digits tail : List Char} (hb : ∀ c ∈ blanks, isBlank c = true)
      (hs : IsSign sign) (hd : ∀ c ∈ digits, c.isDigit = true)
      (hstop : ∀ c ∈ tail.head?, c.isDigit = false)
      (hpoint : digits = [] → ∃ rest, tail = '.' :: rest) :
      BeginsWithNumber (blanks ++ (sign ++ (digits ++ tail))) tail

/-- What follows the number at the start of a text. -/
def afterNumber (cs : List Char) : List Char :=
  (readSign (skipBlanks cs)).2.dropWhile Char.isDigit

theorem isBlank_of_isStoreBlank {c : Char} (h : isStoreBlank c = true) : isBlank c = true := by
  have hblank := isStoreBlank_iff.1 h
  simp only [isBlank]
  simp
  omega

theorem readSign_of_head {c : Char} (hminus : c ≠ '-') (hplus : c ≠ '+') (cs : List Char) :
    (readSign (c :: cs)).2 = c :: cs := by
  unfold readSign
  split
  case h_1 heq => exact absurd (List.cons.inj heq).1 hminus
  case h_2 heq => exact absurd (List.cons.inj heq).1 hplus
  case h_3 => rfl

theorem BeginsWithNumber.afterNumber_eq {cs tail : List Char} (h : BeginsWithNumber cs tail) :
    afterNumber cs = tail := by
  obtain ⟨hb, hs, hd, hstop, hpoint⟩ := h
  rename_i blanks sign digits
  have hdigits : (digits ++ tail).dropWhile Char.isDigit = tail := by
    rw [List.dropWhile_append_of_pos hd]
    cases tail with
    | nil => rfl
    | cons c tail => exact List.dropWhile_cons_of_neg (by simp [hstop c rfl])
  -- the number begins with a character that is neither a blank nor a sign
  obtain ⟨c, rest, hcons, hblank, hminus, hplus⟩ :
      ∃ c rest, digits ++ tail = c :: rest ∧ isBlank c = false ∧ c ≠ '-' ∧ c ≠ '+' := by
    cases digits with
    | nil =>
      obtain ⟨rest, rfl⟩ := hpoint rfl
      exact ⟨'.', rest, rfl, by decide, by decide, by decide⟩
    | cons c digits =>
      have hc := hd c List.mem_cons_self
      refine ⟨c, _, rfl, isBlank_of_isDigit hc, ?_, ?_⟩
      · rintro rfl
        exact absurd hc (by decide)
      · rintro rfl
        exact absurd hc (by decide)
  have hskip : skipBlanks (blanks ++ (sign ++ (digits ++ tail))) = sign ++ (digits ++ tail) := by
    unfold skipBlanks
    rw [List.dropWhile_append_of_pos hb, hcons]
    rcases hs with rfl | rfl | rfl
    · exact List.dropWhile_cons_of_neg (by simp [hblank])
    · exact List.dropWhile_cons_of_neg (by decide)
    · exact List.dropWhile_cons_of_neg (by decide)
  have hsign : (readSign (sign ++ (digits ++ tail))).2 = digits ++ tail := by
    rcases hs with rfl | rfl | rfl
    · rw [List.nil_append, hcons]
      exact readSign_of_head hminus hplus rest
    · rfl
    · rfl
  rw [afterNumber, hskip, hsign, hdigits]

/-- What follows the number at the start of a text is determined. -/
theorem BeginsWithNumber.unique {cs tail tail' : List Char} (h : BeginsWithNumber cs tail)
    (h' : BeginsWithNumber cs tail') : tail = tail' :=
  h.afterNumber_eq.symm.trans h'.afterNumber_eq

theorem IsTime.beginsWithNumber {cs : List Char} {t : StatedTime} (h : IsTime cs t) :
    ∃ rest, BeginsWithNumber cs (':' :: rest) := by
  obtain ⟨hh, hm, hs, hz⟩ := h
  rename_i hours minutes millis seconds zoneText zone
  have hne : padded 2 hours ≠ [] := by simp [padded, decimal_ne_nil]
  refine ⟨_, @BeginsWithNumber.mk [] [] (padded 2 hours) _ ?_ (.inl rfl)
    (fun c hc => isDigit_of_mem_padded hc) ?_ fun h => absurd h hne⟩
  · exact fun c hc => absurd hc List.not_mem_nil
  · intro c hc
    rw [← Option.some.inj hc]
    decide

/-! ### Numbers that are read -/

theorem exists_sign (cs : List Char) : ∃ sign, IsSign sign ∧ cs = sign ++ (readSign cs).2 := by
  unfold readSign
  split
  · exact ⟨['-'], .inr (.inl rfl), rfl⟩
  · exact ⟨['+'], .inr (.inr rfl), rfl⟩
  · exact ⟨[], .inl rfl, rfl⟩

theorem IsSign.isPlainText {cs : List Char} (h : IsSign cs) : IsPlainText cs := by
  rcases h with rfl | rfl | rfl
  · exact fun c hc => absurd hc List.not_mem_nil
  · exact .cons (by decide) fun c hc => absurd hc List.not_mem_nil
  · exact .cons (by decide) fun c hc => absurd hc List.not_mem_nil

theorem readPoint_cases (cs : List Char) :
    readPoint cs = (none, cs) ∨ ∃ rest, cs = '.' :: rest ∧
      readPoint cs = (some (spanDigits rest).1, (spanDigits rest).2) := by
  unfold readPoint
  split
  case h_1 rest => exact .inr ⟨rest, rfl, rfl⟩
  case h_2 => exact .inl rfl

theorem isPlainText_spanDigits (cs : List Char) : IsPlainText (spanDigits cs).1 :=
  fun _ hc => isPlainChar_of_isDigit (List.mem_takeWhile_imp hc)

theorem exists_of_readScale {cs rest : List Char} {scale : Option Int}
    (h : readScale cs = some (scale, rest)) :
    rest = cs ∨ ∃ e text, (e = 'e' ∨ e = 'E') ∧ IsPlainText text ∧ cs = e :: (text ++ rest) := by
  unfold readScale at h
  split at h
  case h_1 e tail =>
    split at h
    case isTrue he =>
      dsimp only at h
      split at h
      case isTrue => cases h
      case isFalse =>
        obtain ⟨sign, hsign, hsplit⟩ := exists_sign tail
        obtain ⟨-, rfl⟩ := Prod.mk.inj (Option.some.inj h)
        refine .inr ⟨e, sign ++ (spanDigits (readSign tail).2).1, he,
          hsign.isPlainText.append (isPlainText_spanDigits _), ?_⟩
        rw [List.append_assoc, spanDigits_append, ← hsplit]
    case isFalse =>
      obtain ⟨-, rfl⟩ := Prod.mk.inj (Option.some.inj h)
      exact .inl rfl
  case h_2 =>
    obtain ⟨-, rfl⟩ := Prod.mk.inj (Option.some.inj h)
    exact .inl rfl

theorem isPlainText_of_readScale {cs rest : List Char} {scale : Option Int}
    (h : readScale cs = some (scale, rest)) (hrest : IsBlankText rest) :
    IsPlainText cs ∧ cs.head? ≠ some '-' := by
  rcases exists_of_readScale h with rfl | ⟨e, text, he, htext, rfl⟩
  · refine ⟨hrest.isPlainText, fun hhead => ?_⟩
    exact absurd (hrest '-' (List.mem_of_mem_head? hhead)) (by decide)
  · have hchar : IsPlainChar e ∧ e ≠ '-' := by
      rcases he with rfl | rfl <;> decide
    exact ⟨.cons hchar.1 (htext.append hrest.isPlainText),
      fun hhead => hchar.2 (Option.some.inj hhead)⟩

theorem head?_spanDigits (cs : List Char) :
    ∀ c ∈ (spanDigits cs).2.head?, c.isDigit = false := by
  intro c hc
  have hstop := List.head?_dropWhile_not Char.isDigit cs
  have hhead : (cs.dropWhile Char.isDigit).head? = some c := hc
  rw [hhead] at hstop
  exact hstop

/-- What a numeric text is made of: blanks, a sign and digits, and then perhaps a point or
an exponent. -/
theorem exists_of_readNumber {cs : List Char} {n : Number} (h : readNumber cs = some n) :
    ∃ blanks sign whole tail, cs = blanks ++ (sign ++ (whole ++ tail)) ∧ IsBlankText blanks ∧
      IsSign sign ∧ (∀ c ∈ whole, c.isDigit = true) ∧ (∀ c ∈ tail.head?, c.isDigit = false) ∧
      (whole = [] → ∃ rest, tail = '.' :: rest) ∧ IsPlainText tail ∧ tail.head? ≠ some '-' := by
  obtain ⟨blanks, hblanks, hskip⟩ := exists_skipStoreBlanks cs
  obtain ⟨sign, hsign, hunsigned⟩ := exists_sign (skipStoreBlanks cs)
  have hwhole := spanDigits_append (readSign (skipStoreBlanks cs)).2
  have hdigits : ∀ c ∈ (spanDigits (readSign (skipStoreBlanks cs)).2).1, c.isDigit = true :=
    fun c hc => List.mem_takeWhile_imp hc
  have hstop := head?_spanDigits (readSign (skipStoreBlanks cs)).2
  unfold readNumber at h
  dsimp only at h
  generalize spanDigits (readSign (skipStoreBlanks cs)).2 = span at *
  obtain ⟨whole, tail⟩ := span
  dsimp only at *
  refine ⟨blanks, sign, whole, tail, ?_, hblanks, hsign, hdigits, hstop, ?_⟩
  · rw [hwhole, ← hunsigned, ← hskip]
  · split at h
    case isTrue => cases h
    case isFalse hsome =>
      obtain ⟨⟨scale, rest⟩, hscale, hrest⟩ := Option.bind_eq_some_iff.1 h
      dsimp only at hrest
      split at hrest
      case isTrue => cases hrest
      case isFalse hblank =>
        have hblank : IsBlankText rest := skipStoreBlanks_eq_nil_iff.1 (not_not.1 hblank)
        -- the tail is what follows the digits: an exponent and blanks, perhaps after a point
        rcases readPoint_cases tail with hpoint | ⟨after, rfl, hpoint⟩
        · rw [hpoint] at hsome hscale
          obtain ⟨hplain, hhead⟩ := isPlainText_of_readScale hscale hblank
          exact ⟨fun hnil => absurd ⟨hnil, rfl⟩ hsome, hplain, hhead⟩
        · rw [hpoint] at hscale
          have hafter := (isPlainText_of_readScale hscale hblank).1
          have hplain := (isPlainText_spanDigits after).append hafter
          rw [spanDigits_append] at hplain
          exact ⟨fun _ => ⟨after, rfl⟩, .cons (by decide) hplain,
            fun hhead => absurd (Option.some.inj hhead) (by decide)⟩

/-- A numeric text is ASCII, and no hyphen follows its number. -/
theorem beginsWithNumber_of_readNumber {cs : List Char} {n : Number} (h : readNumber cs = some n) :
    IsPlainText cs ∧ ∃ tail, BeginsWithNumber cs tail ∧ tail.head? ≠ some '-' := by
  obtain ⟨blanks, sign, whole, tail, rfl, hblanks, hsign, hwhole, hstop, hpoint, hplain, hhead⟩ :=
    exists_of_readNumber h
  refine ⟨?_, tail, .mk (fun c hc => isBlank_of_isStoreBlank (hblanks c hc)) hsign hwhole hstop
    hpoint, hhead⟩
  have hdigits : IsPlainText whole := fun c hc => isPlainChar_of_isDigit (hwhole c hc)
  exact hblanks.isPlainText.append (hsign.isPlainText.append (hdigits.append hplain))

/-! ### Numbers that are written -/

/-- The text of digits that something other than a digit or a hyphen follows. -/
def IsDigitsText (cs : List Char) : Prop :=
  ∃ digits tail, cs = digits ++ tail ∧ digits ≠ [] ∧ (∀ c ∈ digits, c.isDigit = true) ∧
    ∀ c ∈ tail.head?, c.isDigit = false ∧ c ≠ '-'

theorem isDigit_zero : ∀ c ∈ ['0'], c.isDigit = true := by
  intro c hc
  rw [List.mem_singleton.1 hc]
  rfl

theorem isDigitsText_positional {digits : List Char} (hne : digits ≠ [])
    (hd : ∀ c ∈ digits, c.isDigit = true) (point : Int) :
    IsDigitsText (Decimal.positional digits point) := by
  have hpoint : ∀ (rest : List Char), ∀ c ∈ ('.' :: rest).head?, c.isDigit = false ∧ c ≠ '-' := by
    intro rest c hc
    rw [← Option.some.inj hc]
    decide
  unfold Decimal.positional
  split
  case isTrue =>
    exact ⟨['0'], _, rfl, by simp, isDigit_zero, hpoint _⟩
  case isFalse hpos =>
    have hwhole : ∀ zeros, ∀ c ∈ digits.take point.natAbs ++ List.replicate zeros '0',
        c.isDigit = true := by
      intro zeros c hc
      rcases List.mem_append.1 hc with hc | hc
      · exact hd c (List.mem_of_mem_take hc)
      · rw [(List.mem_replicate.1 hc).2]
        decide
    refine ⟨_, _, rfl, ?_, hwhole _, hpoint _⟩
    · have htake : digits.take point.natAbs ≠ [] := by
        rw [Ne, List.take_eq_nil_iff]
        rintro (hzero | hnil)
        · omega
        · exact hne hnil
      exact List.append_ne_nil_of_left_ne_nil htake _

theorem isDigitsText_scientific (style : Decimal.NumberStyle) {digits : List Char}
    (hne : digits ≠ []) (hd : ∀ c ∈ digits, c.isDigit = true) (exponent : Int) :
    IsDigitsText (Decimal.scientific style digits exponent) := by
  unfold Decimal.scientific
  dsimp only
  rw [List.append_assoc]
  refine ⟨digits.take 1, _, rfl, ?_, fun c hc => hd c (List.mem_of_mem_take hc), ?_⟩
  · rw [Ne, List.take_eq_nil_iff]
    rintro (hzero | hnil)
    · cases hzero
    · exact hne hnil
  -- the exponent follows, after a point if there are more digits than one
  · intro c hc
    split at hc
    case isTrue =>
      split at hc
      case isTrue =>
        rw [← Option.some.inj hc]
        decide
      case isFalse =>
        rw [← Option.some.inj hc]
        decide
    case isFalse =>
      rw [← Option.some.inj hc]
      decide

theorem isDigitsText_write (style : Decimal.NumberStyle) (s : Decimal.Scaled) :
    IsDigitsText (s.write style) := by
  have hne : Decimal.dropFinalZeros (decimal s.digits) ≠ [] := by
    cases h : decimal s.digits with
    | nil => exact absurd h (decimal_ne_nil _)
    | cons d ds => exact List.cons_ne_nil _ _
  -- the first digit is kept even if it is zero, and no character is new
  have hd : ∀ c ∈ Decimal.dropFinalZeros (decimal s.digits), c.isDigit = true := by
    intro c hc
    apply @isDigit_of_mem_decimal s.digits
    cases h : decimal s.digits with
    | nil => exact absurd h (decimal_ne_nil _)
    | cons d ds =>
      rw [h] at hc
      rcases List.mem_cons.1 hc with rfl | hc
      · exact List.mem_cons_self
      · have hmem := (List.dropWhile_sublist _).subset (List.mem_reverse.1 hc)
        exact List.mem_cons_of_mem _ (List.mem_reverse.1 hmem)
  unfold Decimal.Scaled.write
  dsimp only
  split
  · exact isDigitsText_positional hne hd _
  · exact isDigitsText_scientific style hne hd _

/-- No hyphen follows the number in the text of a stored number. -/
theorem beginsWithNumber_render (n : Number) :
    ∃ tail, BeginsWithNumber n.render.toList tail ∧ tail.head? ≠ some '-' := by
  have hsigned : ∀ sign cs, IsSign sign → IsDigitsText cs →
      ∃ tail, BeginsWithNumber (sign ++ cs) tail ∧ tail.head? ≠ some '-' := by
    rintro sign cs hsign ⟨digits, tail, rfl, hne, hd, hstop⟩
    have hbegins := @BeginsWithNumber.mk [] sign digits tail
      (fun c hc => absurd hc List.not_mem_nil) hsign hd (fun c hc => (hstop c hc).1)
      fun h => absurd h hne
    exact ⟨tail, hbegins, fun hhead => (hstop '-' hhead).2 rfl⟩
  cases n with
  | integer i =>
    have hdecimal : IsDigitsText (decimal i.natAbs) :=
      ⟨decimal i.natAbs, [], by simp, decimal_ne_nil _, fun c hc => isDigit_of_mem_decimal hc,
        fun c hc => by cases hc⟩
    rw [Number.render, String.toList_ofList, signed]
    split
    · exact hsigned ['-'] _ (.inr (.inl rfl)) hdecimal
    · exact hsigned [] _ (.inl rfl) hdecimal
  | real x =>
    have hfifteen : ∀ y : Rat, IsDigitsText (Decimal.writeFifteen y) := by
      intro y
      unfold Decimal.writeFifteen
      split
      · exact ⟨['0'], ['.', '0'], rfl, by simp, isDigit_zero, fun c hc => by
          rw [← Option.some.inj hc]
          decide⟩
      · exact isDigitsText_write _ _
    rw [Number.render, String.toList_ofList]
    split
    · exact hsigned ['-'] _ (.inr (.inl rfl)) (hfifteen _)
    · exact hsigned [] _ (.inl rfl) (hfifteen _)

end CrashReports.Store
