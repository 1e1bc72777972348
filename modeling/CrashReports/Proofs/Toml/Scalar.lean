import CrashReports.Proofs.Text.Digits
import CrashReports.Proofs.Text.Form
import CrashReports.Toml.Document

/-!
# Written strings and integers

A string between double quotes can be written in many ways: a character that is no control may
stand for itself, and every character may be escaped by its code point, some also by a letter
(`SpellsText`).  Whichever way is chosen, reading gives the string back (`readText_quoted`); the
writer `quote` has chosen one of them (`spellsText_quote`).

An integer in decimal is none of the other things that an unquoted text can be: no word, no
date and no time (`atom?_signed`).
-/

namespace CrashReports.Toml

open Text

/-! ### Strings -/

/-- The written forms of a character between double quotes. -/
inductive Spells (c : Char) : List Char → Prop
  | plain (hplain : isPlain c = true) (hquote : c ≠ '"') (hslash : c ≠ '\\') : Spells c [c]
  | letter {e : Char} (h : shortEscape? e = some c) : Spells c ['\\', e]
  | code {e : Char} {ds : List Char} (hwidth : codeWidth? e = some ds.length)
      (hds : ∀ d ∈ ds, (hexDigit? d).isSome = true) (hvalue : valueIn 16 ds = c.toNat) :
      Spells c ('\\' :: e :: ds)

/-- The written forms of a text between double quotes. -/
inductive SpellsText : List Char → List Char → Prop
  | nil : SpellsText [] []
  | cons {c : Char} {s w ws : List Char} (hc : Spells c w) (h : SpellsText s ws) :
      SpellsText (c :: s) (w ++ ws)

theorem ofCode?_toNat (c : Char) : ofCode? c.toNat = some c := by
  have hvalid : c.toNat.isValidChar := c.valid
  rw [ofCode?, if_pos hvalid, Char.ofNat_toNat]

/-- Digits of a code point are read up to the last one, which gives the character. -/
theorem readBasic_code {ds : List Char} (hne : ds ≠ [])
    (hds : ∀ d ∈ ds, (hexDigit? d).isSome = true) (value : Nat) (rest : List Char) :
    readBasic false (.code ds.length value) (ds ++ rest) =
      (ofCode? (ds.foldl (fun n d => n * 16 + (hexDigit? d).getD 0) value)).bind fun e =>
        consText e (readBasic false .plain rest) := by
  induction ds generalizing value with
  | nil => exact absurd rfl hne
  | cons d ds ih =>
    obtain ⟨hd, hds⟩ := List.forall_mem_cons.1 hds
    obtain ⟨digit, hdigit⟩ := Option.isSome_iff_exists.1 hd
    rw [List.cons_append, readBasic, hdigit]
    simp only [Option.bind_some, List.foldl_cons, hdigit, Option.getD_some, List.length_cons]
    by_cases hlast : ds = []
    · subst hlast
      simp
    · have hpos := List.length_pos_iff.2 hlast
      rw [if_neg (by omega), Nat.add_sub_cancel]
      exact ih hlast hds _

/-- The reader gets over a written character and has the character. -/
theorem readBasic_spells {c : Char} {w : List Char} (h : Spells c w) (rest : List Char) :
    readBasic false .plain (w ++ rest) = consText c (readBasic false .plain rest) := by
  cases h with
  | plain hplain hquote hslash =>
    simp [readBasic, readBasic.plainly, hplain, hquote, hslash]
  | @letter e h =>
    -- no letter both announces a code point and stands for a character
    have hwidth : codeWidth? e = none := by
      unfold codeWidth?
      split_ifs with hx hu hU
      · subst hx; cases h
      · subst hu; cases h
      · subst hU; cases h
      · rfl
    simp [readBasic, readBasic.plainly, hwidth, h]
  | @code e ds hwidth hds hvalue =>
    have hne : ds ≠ [] := by
      rintro rfl
      unfold codeWidth? at hwidth
      split_ifs at hwidth
      all_goals cases hwidth
    have hcode := readBasic_code hne hds 0 rest
    rw [← valueIn, hvalue, ofCode?_toNat, Option.bind_some] at hcode
    simpa [readBasic, readBasic.plainly, hwidth] using hcode

theorem readBasic_spellsText {s w : List Char} (h : SpellsText s w) (rest : List Char) :
    readBasic false .plain (w ++ '"' :: rest) = some (s, rest) := by
  induction h with
  | nil => simp [readBasic, readBasic.plainly]
  | cons hc _ ih =>
    rw [List.append_assoc, readBasic_spells hc, ih]
    rfl

/-- No written form begins with a quote. -/
theorem Spells.exists_cons {c : Char} {w : List Char} (h : Spells c w) :
    ∃ d ds, w = d :: ds ∧ d ≠ '"' := by
  cases h with
  | plain _ hquote _ => exact ⟨_, _, rfl, hquote⟩
  | letter _ => exact ⟨_, _, rfl, by decide⟩
  | code _ _ _ => exact ⟨_, _, rfl, by decide⟩

/-- What is between single double quotes is not taken for what is between triple ones. -/
theorem beginsPair_of_spellsText {s w rest : List Char} (h : SpellsText s w)
    (hrest : '"' ∉ rest.head?) : beginsPair '"' (w ++ '"' :: rest) = false := by
  cases h with
  | nil =>
    cases rest with
    | nil => rfl
    | cons c rest =>
      have hc : c ≠ '"' := fun hc => hrest (by simp [hc])
      simp [beginsPair, hc]
  | cons hc _ =>
    obtain ⟨d, ds, rfl, hd⟩ := hc.exists_cons
    cases ds <;> simp [beginsPair, hd]

/-- A string is read from each of its written forms. -/
theorem readText_quoted {s w rest : List Char} (h : SpellsText s w) (hrest : '"' ∉ rest.head?) :
    readText ('"' :: w ++ '"' :: rest) = some (s, rest) := by
  simp [readText, beginsPair_of_spellsText h hrest, readLineText, readBasic_spellsText h rest]

/-- A code point of two hexadecimal digits, after two zeros. -/
theorem valueIn_code {n : Nat} (hn : n < 0x80) :
    (∀ d ∈ ['0', '0', Nat.digitChar (n / 16), Nat.digitChar (n % 16)],
      (hexDigit? d).isSome = true) ∧
    valueIn 16 ['0', '0', Nat.digitChar (n / 16), Nat.digitChar (n % 16)] = n := by
  have hzero : hexDigit? '0' = some 0 := rfl
  have hhigh := (hexDigit?_of_writesNibble (n := n / 16) (by omega) (.inl rfl)).1
  have hlow := (hexDigit?_of_writesNibble (n := n % 16) (by omega) (.inl rfl)).1
  constructor
  · simp [hzero, hhigh, hlow]
  · simp only [valueIn, List.foldl_cons, List.foldl_nil, hzero, hhigh, hlow, Option.getD_some]
    omega

theorem spells_quoteChar (c : Char) : Spells c (quoteChar c) := by
  unfold quoteChar
  split_ifs with hescape hplain
  · refine .letter ?_
    rw [shortEscape?, if_pos hescape]
  · obtain ⟨hquote, hslash⟩ := not_or.1 hescape
    exact .plain hplain.1 hquote hslash
  · -- what is left are controls
    have hcontrol : c.toNat < 0x80 := by
      by_cases htab : c = '\t'
      · subst htab
        decide
      · have hc : ¬ isPlain c = true := fun h => hplain ⟨h, htab⟩
        simp [isPlain, htab] at hc
        omega
    obtain ⟨hds, hvalue⟩ := valueIn_code hcontrol
    exact .code (by rfl) hds hvalue

theorem spellsText_quote (cs : List Char) : SpellsText cs (cs.flatMap quoteChar) := by
  induction cs with
  | nil => exact .nil
  | cons c cs ih => exact .cons (spells_quoteChar c) ih

/-! ### Integers -/

/-- A text at which a value that stands without quotes ends. -/
def EndsAtom (rest : List Char) : Prop :=
  ∀ c ∈ rest.head?, endsAtom c = true

/-- A character of a written integer. -/
theorem char_of_mem_signed {i : Int} {c : Char} (h : c ∈ signed i) :
    c = '-' ∨ c.isDigit = true := by
  unfold signed at h
  split at h
  · obtain rfl | hc := List.mem_cons.1 h
    · exact .inl rfl
    · exact .inr (isDigit_of_mem_decimal hc)
  · exact .inr (isDigit_of_mem_decimal h)

theorem endsAtom_of_number {c : Char} (h : c = '-' ∨ c.isDigit = true) : endsAtom c = false := by
  obtain rfl | hdigit := h
  · decide
  · obtain ⟨hlow, hhigh⟩ := digit_bounds hdigit
    simp only [endsAtom, List.contains_eq_mem, decide_eq_false_iff_not, List.mem_cons,
      List.not_mem_nil, or_false, ← Char.toNat_inj]
    simp
    omega

theorem expect?_of_digits {c : Char} (hc : c.isDigit = false) {cs : List Char}
    (h : ∀ d ∈ cs, d.isDigit = true) : expect? c cs = none := by
  cases cs with
  | nil => rfl
  | cons d cs =>
    have hd : d ≠ c := by
      rintro rfl
      simp [h d] at hc
    simp [expect?, hd]

theorem exists_fixedDigits? (width : Nat) (cs : List Char) :
    fixedDigits? width cs = none ∨ ∃ n, fixedDigits? width cs = some (n, cs.drop width) := by
  unfold fixedDigits?
  dsimp only
  split
  · exact .inr ⟨_, rfl⟩
  · exact .inl rfl

/-- No date and no time is made of digits alone. -/
theorem afterDate?_of_digits {cs : List Char} (h : ∀ d ∈ cs, d.isDigit = true) :
    afterDate? cs = none ∧ afterTime? cs = none := by
  have hmark : ∀ c width, c.isDigit = false → expect? c (cs.drop width) = none := fun c width hc =>
    expect?_of_digits hc fun d hd => h d (List.mem_of_mem_drop hd)
  constructor
  · obtain hnone | ⟨n, hn⟩ := exists_fixedDigits? 4 cs
    · simp [afterDate?, hnone]
    · simp [afterDate?, hn, hmark]
  · obtain hnone | ⟨n, hn⟩ := exists_fixedDigits? 2 cs
    · simp [afterTime?, hnone]
    · simp [afterTime?, hn, hmark]

/-- A written integer is no date and no time. -/
theorem afterDate?_signed (i : Int) :
    afterDate? (signed i) = none ∧ afterTime? (signed i) = none := by
  unfold signed
  split
  · have hminus : ∀ width, fixedDigits? (width + 1) ('-' :: decimal i.natAbs) = none := by
      intro width
      simp [fixedDigits?]
    simp [afterDate?, afterTime?, hminus]
  · exact afterDate?_of_digits fun d => isDigit_of_mem_decimal

theorem ungroup?_digits {ds : List Char} (hne : ds ≠ []) (h : ∀ d ∈ ds, d.isDigit = true) :
    ungroup? Char.isDigit ds = some ds := by
  induction ds with
  | nil => exact absurd rfl hne
  | cons d ds ih =>
    obtain ⟨hd, hds⟩ := List.forall_mem_cons.1 h
    cases ds with
    | nil => simp [ungroup?, hd]
    | cons e ds =>
      have he : e ≠ '_' := by
        rintro rfl
        exact absurd (hds '_' List.mem_cons_self) (by decide)
      simp [ungroup?, hd, he, ih (by simp) hds]

theorem wholeDigits?_decimal (signed : Bool) (n : Nat) :
    wholeDigits? signed (decimal n) = some (decimal n) := by
  have hdigits : ∀ d ∈ decimal n, d.isDigit = true := fun d => isDigit_of_mem_decimal
  have hzero : ¬ ((decimal n).head? = some '0' ∧ 1 < (decimal n).length) := by
    rintro ⟨hhead, hlong⟩
    have hle := head?_decimal hhead
    omega
  unfold wholeDigits?
  split
  case h_1 heq =>
    exact absurd (hdigits '_' (heq ▸ List.mem_cons_self)) (by decide)
  case h_2 => simp [ungroup?_digits (decimal_ne_nil n) hdigits, hzero]

theorem decimalInteger?_signed (i : Int) : decimalInteger? (signed i) = some i := by
  unfold decimalInteger? signed
  by_cases hneg : i < 0
  · rw [if_pos hneg]
    simp only [splitSign, wholeDigits?_decimal, Option.map_some, digitsValue_decimal, if_true]
    congr 1
    omega
  · rw [if_neg hneg]
    have hsign : splitSign (decimal i.natAbs) = (false, decimal i.natAbs) := by
      unfold splitSign
      split
      case h_1 heq =>
        exact absurd (isDigit_of_mem_decimal (heq ▸ List.mem_cons_self)) (by decide)
      case h_2 heq =>
        exact absurd (isDigit_of_mem_decimal (heq ▸ List.mem_cons_self)) (by decide)
      case h_3 => rfl
    simp only [hsign, wholeDigits?_decimal, Option.map_some, digitsValue_decimal,
      Bool.false_eq_true, if_false]
    congr 1
    omega

/-- A written integer begins with a sign or a digit. -/
theorem signed_ne_cons (i : Int) {c : Char} (hminus : c ≠ '-') (hdigit : c.isDigit = false)
    (cs : List Char) : signed i ≠ c :: cs := by
  intro heq
  obtain rfl | hc := char_of_mem_signed (heq ▸ List.mem_cons_self)
  · exact hminus rfl
  · simp [hdigit] at hc

theorem exists_signed_cons_ne (i : Int) : ∃ c cs, signed i = c :: cs ∧
    ∀ d : Char, d ≠ '-' → d.isDigit = false → c ≠ d := by
  obtain ⟨c, cs, hcons, -⟩ := exists_signed_cons i
  refine ⟨c, cs, hcons, ?_⟩
  rintro d hminus hdigit rfl
  exact signed_ne_cons i hminus hdigit cs hcons

/-- An integer in decimal is read as such. -/
theorem atom?_signed (i : Int) : atom? (signed i) = some (.integer i) := by
  have hmoment : isMoment (signed i) = false := by
    simp [isMoment, afterDate?_signed i]
  rw [atom?, if_neg (signed_ne_cons i (by decide) (by decide) _),
    if_neg (signed_ne_cons i (by decide) (by decide) _), hmoment, number?, decimalInteger?_signed]
  rfl

theorem spanAtom_signed (i : Int) {rest : List Char} (h : EndsAtom rest) :
    spanAtom (signed i ++ rest) = (signed i, rest) := by
  have hdate : isDate (signed i) = false := by
    simp [isDate, afterDate?_signed i]
  have hinside : ∀ c ∈ signed i, (!endsAtom c) = true := fun c hc => by
    simp [endsAtom_of_number (char_of_mem_signed hc)]
  have hstop : ∀ c ∈ rest.head?, (!endsAtom c) = false := fun c hc => by simp [h c hc]
  unfold spanAtom
  rw [takeWhile_append_of_head hinside hstop, dropWhile_append_of_head hinside hstop]
  dsimp only
  split
  case h_1 => simp [hdate]
  case h_2 => rfl

end CrashReports.Toml
