import CrashReports.Calendar.Layout
import CrashReports.Proofs.Calendar.DayText
import CrashReports.Proofs.Outcome
import Mathlib.Data.List.TakeWhile

/-!
# Reading by a layout

What reading one part of a layout tells about the text before it: a number stands where it
was read, and no NUL is ever passed over.  A layout whose parts are all parts of a time
leaves the day as it is.
-/

namespace CrashReports

open Text

/-! ### Digits -/

/-- The digits of a number. -/
structure IsNumber (digits : List Char) : Prop where
  ne_nil : digits ≠ []
  isDigit : ∀ c ∈ digits, c.isDigit = true

theorem exists_of_readDigits {width n : Nat} {cs rest : List Char}
    (h : readDigits width cs = .ok (n, rest)) :
    ∃ digits, IsNumber digits ∧ digits.length ≤ width ∧ digitsValue digits = n ∧
      cs = digits ++ rest := by
  unfold readDigits at h
  split at h
  case h_1 => cases h
  case h_2 =>
    dsimp only at h
    split at h
    case isTrue => cases h
    case isFalse hne =>
      obtain ⟨hvalue, rfl⟩ := Prod.mk.inj (Except.ok.inj h)
      have hlength : ((cs.take width).takeWhile Char.isDigit).length ≤ width :=
        (List.takeWhile_prefix _).length_le.trans (List.length_take_le _ _)
      refine ⟨_, ⟨hne, fun c hc => List.mem_takeWhile_imp hc⟩, hlength, hvalue, ?_⟩
      have hprefix := (List.takeWhile_prefix Char.isDigit).trans (List.take_prefix width cs)
      exact (List.prefix_iff_eq_append.1 hprefix).symm

/-- Digits are read as far as they go, or up to the width. -/
theorem readDigits_append {width : Nat} {digits rest : List Char} (hne : digits ≠ [])
    (hd : ∀ c ∈ digits, c.isDigit = true) (hlen : digits.length ≤ width)
    (hstop : ∀ c ∈ (rest.take (width - digits.length)).head?, c.isDigit = false) :
    readDigits width (digits ++ rest) = .ok (digitsValue digits, rest) := by
  have htake : ((digits ++ rest).take width).takeWhile Char.isDigit = digits := by
    rw [List.take_append, List.take_of_length_le hlen, List.takeWhile_append_of_pos hd]
    cases hrest : rest.take (width - digits.length) with
    | nil => simp
    | cons c cs =>
      rw [hrest] at hstop
      rw [List.takeWhile_cons_of_neg (by simp [hstop c rfl]), List.append_nil]
  unfold readDigits
  split
  case h_1 hnil => exact absurd (List.append_eq_nil_iff.1 hnil).1 hne
  case h_2 =>
    dsimp only
    rw [htake, if_neg hne, List.drop_left]

/-- A number of at most so many digits is read up to what is no digit. -/
theorem IsNumber.readDigits_append {width : Nat} {digits rest : List Char} (h : IsNumber digits)
    (hlen : digits.length ≤ width) (hstop : ∀ c ∈ rest.head?, c.isDigit = false) :
    readDigits width (digits ++ rest) = .ok (digitsValue digits, rest) := by
  refine CrashReports.readDigits_append h.ne_nil h.isDigit hlen fun c hc => hstop c ?_
  cases rest with
  | nil => simp at hc
  | cons d rest =>
    rw [List.head?_take] at hc
    split at hc
    · cases hc
    · exact hc

theorem readDigits_padded {width n : Nat} (hw : 0 < width) (hn : n < 10 ^ width)
    (rest : List Char) : readDigits width (padded width n ++ rest) = .ok (n, rest) := by
  have hlen := length_padded hw hn
  have hread := @readDigits_append width (padded width n) rest
    (List.ne_nil_of_length_pos (by omega)) (fun c hc => isDigit_of_mem_padded hc) (by omega)
    (by rw [hlen, Nat.sub_self]; exact fun c hc => by cases hc)
  rw [digitsValue_padded] at hread
  exact hread

/-! ### Texts without NUL -/

/-- A text is read up to a rest, and what is read holds no NUL. -/
def ReadsTo (cs rest : List Char) : Prop :=
  ∃ used, cs = used ++ rest ∧ '\x00' ∉ used

theorem ReadsTo.refl (cs : List Char) : ReadsTo cs cs :=
  ⟨[], rfl, List.not_mem_nil⟩

theorem ReadsTo.trans {cs ds es : List Char} (h : ReadsTo cs ds) (h' : ReadsTo ds es) :
    ReadsTo cs es := by
  obtain ⟨used, rfl, hused⟩ := h
  obtain ⟨used', rfl, hused'⟩ := h'
  refine ⟨used ++ used', (List.append_assoc _ _ _).symm, ?_⟩
  rw [List.mem_append]
  exact fun hmem => hmem.elim hused hused'

theorem ReadsTo.cons {c : Char} (hc : c ≠ '\x00') (cs : List Char) : ReadsTo (c :: cs) cs := by
  refine ⟨[c], rfl, ?_⟩
  rw [List.mem_singleton]
  exact hc.symm

theorem readsTo_dropWhile {p : Char → Bool} (hp : p '\x00' = false) (cs : List Char) :
    ReadsTo cs (cs.dropWhile p) := by
  refine ⟨cs.takeWhile p, List.takeWhile_append_dropWhile.symm, fun hmem => ?_⟩
  rw [List.mem_takeWhile_imp hmem] at hp
  cases hp

theorem readsTo_skipBlanks (cs : List Char) : ReadsTo cs (skipBlanks cs) :=
  readsTo_dropWhile (by decide) cs

theorem readsTo_of_readDigits {width n : Nat} {cs rest : List Char}
    (h : readDigits width cs = .ok (n, rest)) : ReadsTo cs rest := by
  obtain ⟨digits, hdigits, -, -, rfl⟩ := exists_of_readDigits h
  exact ⟨digits, rfl, fun hmem => absurd (hdigits.isDigit _ hmem) (by decide)⟩

theorem readsTo_of_readWithin {width low high n : Nat} {cs rest : List Char}
    (h : readWithin width low high cs = .ok (n, rest)) : ReadsTo cs rest := by
  obtain ⟨⟨m, tail⟩, hdigits, hbounds⟩ := bind_eq_ok_iff.1 h
  dsimp only at hbounds
  split at hbounds
  case isTrue =>
    obtain ⟨-, rfl⟩ := Prod.mk.inj (Except.ok.inj hbounds)
    exact (readsTo_skipBlanks cs).trans (readsTo_of_readDigits hdigits)
  case isFalse => cases hbounds

/-- The text of a year: four digits at most, or a sign and any number of digits. -/
inductive IsYearText : List Char → Int → Prop
  | unsigned {digits : List Char} (h : IsNumber digits) (hlen : digits.length ≤ 4) :
      IsYearText digits (digitsValue digits)
  | plus {digits : List Char} (h : IsNumber digits) :
      IsYearText ('+' :: digits) (digitsValue digits)
  | minus {digits : List Char} (h : IsNumber digits) :
      IsYearText ('-' :: digits) (-(digitsValue digits : Int))

/-- The text of a year is its digits, which a sign may precede. -/
theorem IsYearText.exists_digits {text : List Char} {year : Int} (h : IsYearText text year) :
    ∃ sign digits, text = sign ++ digits ∧ (sign = [] ∨ sign = ['-'] ∨ sign = ['+']) ∧
      IsNumber digits := by
  cases h with
  | unsigned hd => exact ⟨[], _, rfl, .inl rfl, hd⟩
  | plus hd => exact ⟨['+'], _, rfl, .inr (.inr rfl), hd⟩
  | minus hd => exact ⟨['-'], _, rfl, .inr (.inl rfl), hd⟩

/-- The number of a year is read before its sign and its bounds are looked at. -/
theorem readDigits_of_bounded {width : Nat} {year : Int} {cs rest : List Char} {f : Nat → Int}
    (h : (readDigits width cs >>= fun x =>
      if -2147483648 ≤ f x.1 ∧ f x.1 ≤ 2147483647 then pure (f x.1, x.2)
      else throw DateFault.outOfRange) = .ok (year, rest)) :
    ∃ n, readDigits width cs = .ok (n, rest) ∧ f n = year := by
  obtain ⟨⟨n, tail⟩, hread, hbounds⟩ := bind_eq_ok_iff.1 h
  dsimp only at hbounds
  split at hbounds
  case isTrue =>
    obtain ⟨hyear, rfl⟩ := Prod.mk.inj (Except.ok.inj hbounds)
    exact ⟨n, hread, hyear⟩
  case isFalse => cases hbounds

/-- A year is read from its text, which blanks may precede. -/
theorem exists_of_readYear {year : Int} {cs rest : List Char}
    (h : readYear cs = .ok (year, rest)) :
    ∃ text, IsYearText text year ∧ skipBlanks cs = text ++ rest := by
  unfold readYear at h
  dsimp only at h
  -- a minus sign, a plus sign, or none
  split at h
  case h_1 after hskip =>
    obtain ⟨n, hread, rfl⟩ := @readDigits_of_bounded _ _ _ _ (fun n => -(n : Int)) h
    obtain ⟨digits, hdigits, -, rfl, rfl⟩ := exists_of_readDigits hread
    exact ⟨'-' :: digits, .minus hdigits, hskip⟩
  case h_2 after hskip =>
    obtain ⟨n, hread, rfl⟩ := @readDigits_of_bounded _ _ _ _ (fun n => (n : Int)) h
    obtain ⟨digits, hdigits, -, rfl, rfl⟩ := exists_of_readDigits hread
    exact ⟨'+' :: digits, .plus hdigits, hskip⟩
  case h_3 =>
    obtain ⟨n, hread, rfl⟩ := @readDigits_of_bounded _ _ _ _ (fun n => (n : Int)) h
    obtain ⟨digits, hdigits, hlen, rfl, hsplit⟩ := exists_of_readDigits hread
    exact ⟨digits, .unsigned hdigits hlen, hsplit⟩

theorem readsTo_of_readYear {year : Int} {cs rest : List Char}
    (h : readYear cs = .ok (year, rest)) : ReadsTo cs rest := by
  obtain ⟨text, htext, hskip⟩ := exists_of_readYear h
  obtain ⟨sign, digits, rfl, hsign, hdigits⟩ := htext.exists_digits
  refine (readsTo_skipBlanks cs).trans ⟨sign ++ digits, hskip, ?_⟩
  rw [List.mem_append]
  rintro (hmem | hmem)
  · rcases hsign with rfl | rfl | rfl <;> exact absurd hmem (by decide)
  · exact absurd (hdigits.isDigit _ hmem) (by decide)

theorem readsTo_of_readFraction {n : Nat} {cs rest : List Char}
    (h : readFraction cs = .ok (n, rest)) : ReadsTo cs rest := by
  unfold readFraction at h
  split at h
  case h_1 after =>
    obtain ⟨⟨m, tail⟩, hdigits, hpair⟩ := bind_eq_ok_iff.1 h
    obtain ⟨-, rfl⟩ := Prod.mk.inj (Except.ok.inj hpair)
    exact (ReadsTo.cons (by decide) after).trans
      ((readsTo_of_readDigits hdigits).trans (readsTo_dropWhile (by decide) tail))
  case h_2 =>
    obtain ⟨-, rfl⟩ := Prod.mk.inj (Except.ok.inj h)
    exact .refl cs

theorem readsTo_of_readPair {n : Nat} {cs rest : List Char}
    (h : readPair cs = .ok (n, rest)) : ReadsTo cs rest := by
  unfold readPair at h
  split at h
  case h_1 a b tail =>
    split at h
    case isTrue hdigits =>
      obtain ⟨-, rfl⟩ := Prod.mk.inj (Except.ok.inj h)
      have hne : ∀ c : Char, c.isDigit = true → c ≠ '\x00' := by
        rintro c hc rfl
        exact absurd hc (by decide)
      exact (ReadsTo.cons (hne a hdigits.1) _).trans (.cons (hne b hdigits.2) _)
    case isFalse => cases h
  case h_2 => cases h

theorem readsTo_of_offsetParts {sign offset : Int} {cs rest : List Char}
    (h : (do
      let (hours, cs) ← readPair cs
      let (minutes, cs) ← readPair (cs.dropWhile isOffsetSeparator)
      if minutes < 60 then pure (sign * ((hours * 60 + minutes : Nat) : Int), cs)
      else throw DateFault.outOfRange) = .ok (offset, rest)) : ReadsTo cs rest := by
  obtain ⟨⟨hours, tail⟩, hhours, hafter⟩ := bind_eq_ok_iff.1 h
  obtain ⟨⟨minutes, tail'⟩, hminutes, hbounds⟩ := bind_eq_ok_iff.1 hafter
  dsimp only at hbounds
  split at hbounds
  case isTrue =>
    obtain ⟨-, rfl⟩ := Prod.mk.inj (Except.ok.inj hbounds)
    exact (readsTo_of_readPair hhours).trans
      ((readsTo_dropWhile (by decide) tail).trans (readsTo_of_readPair hminutes))
  case isFalse => cases hbounds

theorem readsTo_of_readOffset {offset : Int} {cs rest : List Char}
    (h : readOffset cs = .ok (offset, rest)) : ReadsTo cs rest := by
  have hskip := readsTo_skipBlanks cs
  unfold readOffset at h
  dsimp only at h
  split at h
  case h_1 after heq =>
    rw [heq] at hskip
    exact hskip.trans ((ReadsTo.cons (by decide) after).trans (readsTo_of_offsetParts h))
  case h_2 after heq =>
    rw [heq] at hskip
    exact hskip.trans ((ReadsTo.cons (by decide) after).trans (readsTo_of_offsetParts h))
  case h_3 after heq =>
    rw [heq] at hskip
    exact hskip.trans ((ReadsTo.cons (by decide) after).trans (readsTo_of_offsetParts h))
  case h_4 => cases h
  case h_5 => cases h

/-! ### Whole layouts -/

theorem read_mark (c : Char) (p : DateParts) (rest : List Char) :
    (LayoutItem.mark c).read p (c :: rest) = .ok (p, rest) :=
  if_pos rfl

theorem of_read_mark {c : Char} {p q : DateParts} {cs rest : List Char}
    (h : (LayoutItem.mark c).read p cs = .ok (q, rest)) : q = p ∧ cs = c :: rest := by
  cases cs with
  | nil => cases h
  | cons d tail =>
    rw [LayoutItem.read] at h
    split at h
    case isTrue heq =>
      obtain ⟨rfl, rfl⟩ := Prod.mk.inj (Except.ok.inj h)
      exact ⟨rfl, by rw [heq]⟩
    case isFalse => cases h

/-- A part of a layout is read up to a rest. -/
theorem readsTo_of_read {item : LayoutItem} {p q : DateParts} {cs rest : List Char}
    (hitem : item ≠ .mark '\x00') (h : item.read p cs = .ok (q, rest)) : ReadsTo cs rest := by
  cases item with
  | mark c =>
    obtain ⟨-, rfl⟩ := of_read_mark h
    refine .cons ?_ rest
    rintro rfl
    exact hitem rfl
  | gap =>
    obtain ⟨-, rfl⟩ := Prod.mk.inj (Except.ok.inj h)
    exact readsTo_skipBlanks cs
  | year =>
    obtain ⟨⟨n, tail⟩, hread, hpair⟩ := bind_eq_ok_iff.1 h
    obtain ⟨-, rfl⟩ := Prod.mk.inj (Except.ok.inj hpair)
    exact readsTo_of_readYear hread
  | fraction =>
    obtain ⟨⟨n, tail⟩, hread, hpair⟩ := bind_eq_ok_iff.1 h
    obtain ⟨-, rfl⟩ := Prod.mk.inj (Except.ok.inj hpair)
    exact readsTo_of_readFraction hread
  | offset =>
    obtain ⟨⟨n, tail⟩, hread, hpair⟩ := bind_eq_ok_iff.1 h
    obtain ⟨-, rfl⟩ := Prod.mk.inj (Except.ok.inj hpair)
    exact readsTo_of_readOffset hread
  -- the bounds differ, but nothing depends on them
  | month | day | hour | minute | second =>
    obtain ⟨⟨n, tail⟩, hread, hpair⟩ := bind_eq_ok_iff.1 h
    obtain ⟨-, rfl⟩ := Prod.mk.inj (Except.ok.inj hpair)
    exact readsTo_of_readWithin hread

/-- What a layout reads to its end holds no NUL. -/
theorem not_mem_of_readFrom {layout : Layout} (hlayout : .mark '\x00' ∉ layout) {p q : DateParts}
    {cs : List Char} (h : layout.readFrom p cs = .ok q) : '\x00' ∉ cs := by
  -- each part reads a piece without NUL and leaves the rest to the parts after it
  induction layout generalizing p cs with
  | nil =>
    cases cs with
    | nil => exact List.not_mem_nil
    | cons c cs => cases h
  | cons item layout ih =>
    rw [List.mem_cons, not_or] at hlayout
    rw [Layout.readFrom] at h
    obtain ⟨⟨p', rest⟩, hread, hrest⟩ := bind_eq_ok_iff.1 h
    obtain ⟨used, rfl, hused⟩ := readsTo_of_read (Ne.symm hlayout.1) hread
    rw [List.mem_append]
    exact fun hmem => hmem.elim hused (ih hlayout.2 hrest)

/-- Read the parts of a layout from the start of a text, up to a rest. -/
def Layout.readStart : Layout → DateParts → List Char → Except DateFault (DateParts × List Char)
  | [], p, cs => pure (p, cs)
  | item :: layout, p, cs => do
    let (p, rest) ← item.read p cs
    readStart layout p rest

/-- Reading by a layout goes on where its first parts have stopped. -/
theorem Layout.readFrom_append (layout tail : Layout) (p : DateParts) (cs : List Char) :
    (layout ++ tail).readFrom p cs = layout.readStart p cs >>= fun x => tail.readFrom x.1 x.2 := by
  induction layout generalizing p cs with
  | nil => rfl
  | cons item layout ih =>
    rw [List.cons_append, readFrom, readStart]
    cases item.read p cs with
    | error e => rfl
    | ok x => exact ih x.1 x.2

/-- Layouts that begin alike read on from the same rest of a text, with the same numbers. -/
theorem Layout.exists_rest_of_readFrom {layout tail tail' : Layout} {p q q' : DateParts}
    {cs : List Char} (h : (layout ++ tail).readFrom p cs = .ok q)
    (h' : (layout ++ tail').readFrom p cs = .ok q') :
    ∃ p' rest, tail.readFrom p' rest = .ok q ∧ tail'.readFrom p' rest = .ok q' := by
  rw [readFrom_append] at h h'
  obtain ⟨x, hstart, htail⟩ := bind_eq_ok_iff.1 h
  obtain ⟨x', hstart', htail'⟩ := bind_eq_ok_iff.1 h'
  obtain rfl : x = x' := Except.ok.inj (hstart.symm.trans hstart')
  exact ⟨x.1, x.2, htail, htail'⟩

/-- Whether a part of a layout belongs to the day. -/
def LayoutItem.isDate : LayoutItem → Bool
  | .year | .month | .day => true
  | _ => false

/-- The numbers of a day. -/
def DateParts.date (p : DateParts) : Int × Nat × Nat :=
  (p.year, p.month, p.day)

/-- Parts name the day that has their numbers. -/
theorem toDay_eq_ok_iff {p : DateParts} {d : Day} :
    p.toDay = .ok d ↔ p.date = (d.year, d.month, d.day) := by
  have hnumbers : p.date = (d.year, d.month, d.day) ↔ Day.ofYmd? p.year p.month p.day = some d := by
    rw [Day.ofYmd?_eq_some_iff, DateParts.date, Prod.mk.injEq, Prod.mk.injEq, eq_comm,
      @eq_comm _ p.month, @eq_comm _ p.day]
  rw [hnumbers, DateParts.toDay]
  cases Day.ofYmd? p.year p.month p.day with
  | none => simp [throw, throwThe, MonadExceptOf.throw]
  | some e => simp

theorem date_of_read {item : LayoutItem} (hitem : item.isDate = false) {p q : DateParts}
    {cs rest : List Char} (h : item.read p cs = .ok (q, rest)) : q.date = p.date := by
  cases item with
  | mark c =>
    obtain ⟨rfl, -⟩ := of_read_mark h
    rfl
  | gap =>
    obtain ⟨rfl, -⟩ := Prod.mk.inj (Except.ok.inj h)
    rfl
  | year | month | day => cases hitem
  | hour | minute | second | fraction | offset =>
    obtain ⟨⟨n, tail⟩, hread, hpair⟩ := bind_eq_ok_iff.1 h
    obtain ⟨rfl, -⟩ := Prod.mk.inj (Except.ok.inj hpair)
    rfl

/-- Parts of a time leave the day as it is. -/
theorem date_of_readFrom {layout : Layout} (hlayout : ∀ item ∈ layout, item.isDate = false)
    {p q : DateParts} {cs : List Char} (h : layout.readFrom p cs = .ok q) : q.date = p.date := by
  induction layout generalizing p cs with
  | nil =>
    cases cs with
    | nil =>
      obtain rfl := Except.ok.inj h
      rfl
    | cons c cs => cases h
  | cons item layout ih =>
    rw [Layout.readFrom] at h
    obtain ⟨⟨p', rest⟩, hread, hrest⟩ := bind_eq_ok_iff.1 h
    rw [ih (fun i hi => hlayout i (List.mem_cons_of_mem _ hi)) hrest]
    exact date_of_read (hlayout item List.mem_cons_self) hread

/-! ### Days in exact widths -/

theorem isBlank_of_isDigit {c : Char} (h : c.isDigit = true) : isBlank c = false := by
  obtain ⟨hlow, hhigh⟩ := digit_bounds h
  simp only [isBlank]
  simp
  omega

theorem skipBlanks_padded (width n : Nat) (rest : List Char) :
    skipBlanks (padded width n ++ rest) = padded width n ++ rest := by
  obtain ⟨c, cs, hpadded, hc⟩ := exists_padded_cons width n
  rw [hpadded, List.cons_append]
  exact skipBlanks_cons_of_not_isBlank (isBlank_of_isDigit hc) _

theorem readWithin_padded {width low high n : Nat} (hw : 0 < width) (hhigh : high < 10 ^ width)
    (hn : low ≤ n ∧ n ≤ high) (rest : List Char) :
    readWithin width low high (padded width n ++ rest) = .ok (n, rest) := by
  have hdigits := readDigits_padded hw (show n < 10 ^ width by omega) rest
  unfold readWithin
  rw [skipBlanks_padded, hdigits]
  exact if_pos hn

theorem readYear_padded {n : Nat} (hn : n < 10 ^ 4) (rest : List Char) :
    readYear (padded 4 n ++ rest) = .ok ((n : Int), rest) := by
  have hdigits := readDigits_padded (by decide) hn rest
  have hskip := skipBlanks_padded 4 n rest
  obtain ⟨c, cs, hpadded, hc⟩ := exists_padded_cons 4 n
  rw [hpadded, List.cons_append] at hdigits hskip
  rw [hpadded, List.cons_append]
  unfold readYear
  dsimp only
  rw [hskip]
  -- a digit is neither of the signs
  split
  case h_1 heq => exact absurd ((List.cons.inj heq).1 ▸ hc) (by decide)
  case h_2 heq => exact absurd ((List.cons.inj heq).1 ▸ hc) (by decide)
  case h_3 =>
    rw [hdigits]
    exact if_pos (by dsimp only; omega)

/-- A year is read from its text up to what is no digit. -/
theorem IsYearText.readYear_append {text rest : List Char} {year : Int} (h : IsYearText text year)
    (hbounds : -2147483648 ≤ year ∧ year ≤ 2147483647)
    (hstop : ∀ c ∈ rest.head?, c.isDigit = false) : readYear (text ++ rest) = .ok (year, rest) := by
  have hfits {digits : List Char} : digits.length ≤ (digits ++ rest).length := by simp
  unfold readYear
  dsimp only
  cases h with
  | @unsigned digits hdigits hlen =>
    obtain ⟨c, cs, rfl⟩ := List.exists_cons_of_ne_nil hdigits.ne_nil
    have hc : c.isDigit = true := hdigits.isDigit c List.mem_cons_self
    rw [List.cons_append, skipBlanks_cons_of_not_isBlank (isBlank_of_isDigit hc)]
    -- a digit is neither of the signs
    split
    case h_1 heq => exact absurd ((List.cons.inj heq).1 ▸ hc) (by decide)
    case h_2 heq => exact absurd ((List.cons.inj heq).1 ▸ hc) (by decide)
    case h_3 =>
      rw [← List.cons_append, hdigits.readDigits_append hlen hstop]
      exact if_pos hbounds
  | @plus digits hdigits =>
    rw [List.cons_append, skipBlanks_cons_of_not_isBlank (by decide)]
    simp only [hdigits.readDigits_append hfits hstop]
    exact if_pos hbounds
  | @minus digits hdigits =>
    rw [List.cons_append, skipBlanks_cons_of_not_isBlank (by decide)]
    simp only [hdigits.readDigits_append hfits hstop]
    exact if_pos hbounds

theorem isNumber_padded (width n : Nat) : IsNumber (padded width n) := by
  obtain ⟨c, cs, hpadded, -⟩ := exists_padded_cons width n
  exact ⟨by simp [hpadded], fun c hc => isDigit_of_mem_padded hc⟩

theorem readYear_minus {n : Nat} (hn : n ≤ 2147483648) {rest : List Char}
    (hstop : ∀ c ∈ rest.head?, c.isDigit = false) :
    readYear ('-' :: (padded 4 n ++ rest)) = .ok (-(n : Int), rest) := by
  have htext := IsYearText.minus (isNumber_padded 4 n)
  rw [digitsValue_padded] at htext
  exact htext.readYear_append (by omega) hstop

/-- A layout that begins with a day reads a day in exact widths, and then the rest. -/
theorem readFrom_plainDay (layout : Layout) {yearText rest : List Char} {year : Int}
    {month day : Nat} (hy : ∀ after, readYear (yearText ++ '-' :: after) = .ok (year, '-' :: after))
    (hm : 1 ≤ month ∧ month ≤ 12) (hd : 1 ≤ day ∧ day ≤ 31) (p : DateParts) :
    Layout.readFrom (Layout.plainDay ++ layout) p
        (yearText ++ '-' :: (padded 2 month ++ '-' :: (padded 2 day ++ rest))) =
      layout.readFrom { p with year := year, month := month, day := day } rest := by
  have hmonth := @readWithin_padded 2 1 12 month (by decide) (by decide) hm
  have hday := @readWithin_padded 2 1 31 day (by decide) (by decide) hd
  simp only [Layout.plainDay, List.cons_append, List.nil_append, Layout.readFrom, LayoutItem.read,
    hy, hmonth, hday, bind, Except.bind, pure, Except.pure, if_true]

end CrashReports
