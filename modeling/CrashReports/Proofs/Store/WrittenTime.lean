import CrashReports.Proofs.Text.Digits
import CrashReports.Store.StoredDay
import Mathlib.Data.List.TakeWhile

/-!
# The written form of stored times

What a text must look like for the store to read a day and a time from it: every number
in its exact width, the parts of a day joined by hyphens, blanks or the letter `T` before
the time, a point only between a second and its digits, and blanks around the zone.  The
forms are stated without the readers, and the readers accept exactly them:
`readTime_eq_some_iff` and `readDayAndTime_eq_some_iff`.

The leaves come first.  Each part is read off the front of a text, and what follows it
must not be able to continue it; for a zone nothing can follow.
-/

namespace CrashReports.Store

open Text

/-! ### Numbers and marks -/

theorem readExact_eq_some_iff {width n : Nat} (hw : 0 < width) {cs rest : List Char} :
    readExact width cs = some (n, rest) ↔ n < 10 ^ width ∧ cs = padded width n ++ rest := by
  unfold readExact
  dsimp only
  constructor
  · intro h
    split at h
    case isTrue hdigits =>
      obtain ⟨rfl, rfl⟩ := Prod.mk.inj (Option.some.inj h)
      obtain ⟨hlen, hall⟩ := hdigits
      have hall := List.all_eq_true.1 hall
      have hne : cs.take width ≠ [] := List.ne_nil_of_length_pos (by omega)
      have hpadded := padded_digitsValue hne hall
      have hlt := digitsValue_lt hall
      rw [hlen] at hpadded hlt
      exact ⟨hlt, by rw [hpadded, List.take_append_drop]⟩
    case isFalse => cases h
  · rintro ⟨hlt, rfl⟩
    have hlen := length_padded hw hlt
    have hall : (padded width n).all Char.isDigit = true :=
      List.all_eq_true.2 fun c hc => isDigit_of_mem_padded hc
    rw [List.take_left' hlen, List.drop_left' hlen, if_pos ⟨hlen, hall⟩, digitsValue_padded]

theorem readBounded_eq_some_iff {width low high n : Nat} (hw : 0 < width)
    (hhigh : high < 10 ^ width) {cs rest : List Char} :
    readBounded width low high cs = some (n, rest) ↔
      (low ≤ n ∧ n ≤ high) ∧ cs = padded width n ++ rest := by
  unfold readBounded
  constructor
  · intro h
    obtain ⟨⟨m, tail⟩, hm, hbounds⟩ := Option.bind_eq_some_iff.1 h
    dsimp only at hbounds
    split at hbounds
    case isTrue hle =>
      obtain ⟨rfl, rfl⟩ := Prod.mk.inj (Option.some.inj hbounds)
      exact ⟨hle, ((readExact_eq_some_iff hw).1 hm).2⟩
    case isFalse => cases hbounds
  · rintro ⟨hle, hcs⟩
    have hexact := (readExact_eq_some_iff hw).2 ⟨by omega, hcs⟩
    exact Option.bind_eq_some_iff.2 ⟨_, hexact, if_pos hle⟩

theorem readBounded_two {high n : Nat} (hhigh : high < 100) (hn : n ≤ high) (rest : List Char) :
    readBounded 2 0 high (padded 2 n ++ rest) = some (n, rest) :=
  (readBounded_eq_some_iff (by decide) hhigh).2 ⟨⟨by omega, hn⟩, rfl⟩

theorem readMark_eq_some_iff {c : Char} {cs rest : List Char} :
    readMark c cs = some rest ↔ cs = c :: rest := by
  cases cs with
  | nil => simp [readMark]
  | cons d ds => simp [readMark, eq_comm]

theorem isStoreBlank_iff {c : Char} :
    isStoreBlank c = true ↔ c.toNat = 32 ∨ 9 ≤ c.toNat ∧ c.toNat ≤ 13 := by
  have hspace : c = ' ' ↔ c.toNat = 32 := Char.toNat_inj.symm
  simp only [isStoreBlank, Bool.or_eq_true, Bool.and_eq_true, beq_iff_eq, decide_eq_true_eq,
    Char.le_def, UInt32.le_iff_toNat_le, hspace]
  rfl

/-- A text of blanks of the store. -/
def IsBlankText (cs : List Char) : Prop :=
  ∀ c ∈ cs, isStoreBlank c = true

theorem skipStoreBlanks_eq_nil_iff {cs : List Char} : skipStoreBlanks cs = [] ↔ IsBlankText cs :=
  List.dropWhile_eq_nil_iff

theorem exists_skipStoreBlanks (cs : List Char) :
    ∃ blanks, IsBlankText blanks ∧ cs = blanks ++ skipStoreBlanks cs :=
  ⟨cs.takeWhile isStoreBlank, fun _ hc => List.mem_takeWhile_imp hc,
    List.takeWhile_append_dropWhile.symm⟩

theorem skipStoreBlanks_append {blanks : List Char} (h : IsBlankText blanks) {c : Char}
    (hc : isStoreBlank c = false) (cs : List Char) :
    skipStoreBlanks (blanks ++ c :: cs) = c :: cs := by
  unfold skipStoreBlanks
  rw [List.dropWhile_append_of_pos h, List.dropWhile_cons_of_neg (by simp [hc])]

/-! ### Zones -/

/-- The text of a zone at the end of a time, with the minutes it is ahead. -/
inductive IsZone : List Char → Int → Prop
  | missing {blanks : List Char} (h : IsBlankText blanks) : IsZone blanks 0
  | universal {before after : List Char} {c : Char} (hb : IsBlankText before)
      (hc : c = 'Z' ∨ c = 'z') (ha : IsBlankText after) : IsZone (before ++ c :: after) 0
  | ahead {before after : List Char} {hours minutes : Nat} (hb : IsBlankText before)
      (hh : hours ≤ 14) (hm : minutes ≤ 59) (ha : IsBlankText after) :
      IsZone (before ++ '+' :: (padded 2 hours ++ ':' :: (padded 2 minutes ++ after)))
        ((hours * 60 + minutes : Nat) : Int)
  | behind {before after : List Char} {hours minutes : Nat} (hb : IsBlankText before)
      (hh : hours ≤ 14) (hm : minutes ≤ 59) (ha : IsBlankText after) :
      IsZone (before ++ '-' :: (padded 2 hours ++ ':' :: (padded 2 minutes ++ after)))
        (-((hours * 60 + minutes : Nat) : Int))

theorem readZone_shift {before after : List Char} {hours minutes : Nat} {c : Char}
    (hb : IsBlankText before) (hc : c = '+' ∨ c = '-') (hh : hours ≤ 14) (hm : minutes ≤ 59)
    (ha : IsBlankText after) :
    readZone (before ++ c :: (padded 2 hours ++ ':' :: (padded 2 minutes ++ after))) =
      some (if c = '-' then -((hours * 60 + minutes : Nat) : Int)
        else ((hours * 60 + minutes : Nat) : Int)) := by
  have hblank : isStoreBlank c = false := by
    rcases hc with rfl | rfl <;> decide
  have hletter : ¬ (c = 'Z' ∨ c = 'z') := by
    rcases hc with rfl | rfl <;> decide
  unfold readZone
  rw [skipStoreBlanks_append hb hblank]
  dsimp only
  rw [if_neg hletter, if_pos hc, readBounded_two (by decide) hh]
  simp only [Option.bind_eq_bind, Option.bind_some]
  rw [readMark_eq_some_iff.2 rfl]
  simp only [Option.bind_some]
  rw [readBounded_two (by decide) hm]
  simp only [Option.bind_some]
  rw [if_pos (skipStoreBlanks_eq_nil_iff.2 ha)]

theorem readZone_eq_some_iff {cs : List Char} {zone : Int} :
    readZone cs = some zone ↔ IsZone cs zone := by
  constructor
  · intro h
    obtain ⟨blanks, hblanks, hcs⟩ := exists_skipStoreBlanks cs
    unfold readZone at h
    split at h
    case h_1 hnil =>
      obtain rfl := Option.some.inj h
      exact .missing (skipStoreBlanks_eq_nil_iff.1 hnil)
    case h_2 c rest hcons =>
      rw [hcons] at hcs
      subst hcs
      split at h
      case isTrue hletter =>
        split at h
        case isTrue hrest =>
          obtain rfl := Option.some.inj h
          exact .universal hblanks hletter (skipStoreBlanks_eq_nil_iff.1 hrest)
        case isFalse => cases h
      case isFalse =>
        split at h
        case isTrue hsign =>
          obtain ⟨⟨hours, rest'⟩, hhours, hafter⟩ := Option.bind_eq_some_iff.1 h
          obtain ⟨rest'', hmark, hminutes⟩ := Option.bind_eq_some_iff.1 hafter
          obtain ⟨⟨minutes, last⟩, hminutes, hzone⟩ := Option.bind_eq_some_iff.1 hminutes
          dsimp only at hmark hminutes hzone
          clear h hafter
          -- each reader says what stood before its rest; put together they are the text
          obtain ⟨⟨-, hh⟩, rfl⟩ := (readBounded_eq_some_iff (by decide) (by decide)).1 hhours
          obtain rfl := readMark_eq_some_iff.1 hmark
          obtain ⟨⟨-, hm⟩, rfl⟩ := (readBounded_eq_some_iff (by decide) (by decide)).1 hminutes
          by_cases hlast : skipStoreBlanks last = []
          · rw [if_pos hlast] at hzone
            have hlast := skipStoreBlanks_eq_nil_iff.1 hlast
            obtain rfl := Option.some.inj hzone
            rcases hsign with rfl | rfl
            · exact .ahead hblanks hh hm hlast
            · exact .behind hblanks hh hm hlast
          · rw [if_neg hlast] at hzone
            cases hzone
        case isFalse => cases h
  · intro h
    cases h with
    | missing h =>
      unfold readZone
      rw [skipStoreBlanks_eq_nil_iff.2 h]
    | @universal before after c hb hc ha =>
      have hblank : isStoreBlank c = false := by
        rcases hc with rfl | rfl <;> decide
      unfold readZone
      rw [skipStoreBlanks_append hb hblank]
      dsimp only
      rw [if_pos hc, if_pos (skipStoreBlanks_eq_nil_iff.2 ha)]
    | ahead hb hh hm ha => exact readZone_shift hb (.inl rfl) hh hm ha
    | behind hb hh hm ha => exact readZone_shift hb (.inr rfl) hh hm ha

/-- A character that the text of a second cannot go on with. -/
def EndsSeconds (c : Char) : Prop :=
  c ≠ ':' ∧ c ≠ '.' ∧ c.isDigit = false

instance (c : Char) : Decidable (EndsSeconds c) :=
  inferInstanceAs (Decidable (_ ∧ _))

theorem endsSeconds_of_isStoreBlank {c : Char} (h : isStoreBlank c = true) : EndsSeconds c := by
  have hne : ∀ d : Char, isStoreBlank d = false → c ≠ d := by
    rintro d hd rfl
    rw [h] at hd
    cases hd
  refine ⟨hne _ (by decide), hne _ (by decide), ?_⟩
  by_contra hdigit
  rw [Bool.not_eq_false] at hdigit
  have hbounds := digit_bounds hdigit
  have hblank := isStoreBlank_iff.1 h
  omega

/-- After blanks as well as without them the first character ends a second. -/
theorem endsSeconds_of_mem_head? {blanks : List Char} (hblanks : IsBlankText blanks) {c : Char}
    (hc : EndsSeconds c) (rest : List Char) :
    ∀ d ∈ (blanks ++ c :: rest).head?, EndsSeconds d := by
  intro d hd
  cases blanks with
  | nil =>
    obtain rfl := Option.some.inj hd
    exact hc
  | cons b bs =>
    obtain rfl := Option.some.inj hd
    exact endsSeconds_of_isStoreBlank (hblanks b List.mem_cons_self)

/-- What a zone begins with cannot go on with a second. -/
theorem IsZone.endsSeconds {cs : List Char} {zone : Int} (h : IsZone cs zone) :
    ∀ c ∈ cs.head?, EndsSeconds c := by
  cases h with
  | missing h =>
    intro c hc
    exact endsSeconds_of_isStoreBlank (h c (List.mem_of_mem_head? hc))
  | @universal before after c hb hc ha =>
    apply endsSeconds_of_mem_head? hb
    rcases hc with rfl | rfl <;> decide
  | ahead hb hh hm ha => exact endsSeconds_of_mem_head? hb (by decide) _
  | behind hb hh hm ha => exact endsSeconds_of_mem_head? hb (by decide) _

/-! ### Times -/

/-- The text of the seconds of a time, with their milliseconds. -/
inductive IsSeconds : List Char → Nat → Prop
  | missing : IsSeconds [] 0
  | whole {seconds : Nat} (h : seconds ≤ 59) : IsSeconds (':' :: padded 2 seconds) (seconds * 1000)
  | fraction {seconds millis : Nat} {digits : List Char} (h : seconds ≤ 59) (hne : digits ≠ [])
      (hd : ∀ c ∈ digits, c.isDigit = true) (hm : millisOf seconds digits = some millis) :
      IsSeconds (':' :: (padded 2 seconds ++ '.' :: digits)) millis

theorem exists_isSeconds_of_readSeconds {cs rest : List Char} {millis : Nat}
    (h : readSeconds cs = some (millis, rest)) :
    ∃ text, IsSeconds text millis ∧ cs = text ++ rest := by
  unfold readSeconds at h
  split at h
  case h_1 tail =>
    obtain ⟨⟨seconds, after⟩, hseconds, hmillis⟩ := Option.bind_eq_some_iff.1 h
    obtain ⟨⟨-, hle⟩, rfl⟩ := (readBounded_eq_some_iff (by decide) (by decide)).1 hseconds
    dsimp only at hmillis
    have hwhole : IsSeconds (':' :: padded 2 seconds) (seconds * 1000) := .whole hle
    split at hmillis
    case h_1 fraction =>
      split at hmillis
      case isTrue =>
        obtain ⟨rfl, rfl⟩ := Prod.mk.inj (Option.some.inj hmillis)
        exact ⟨_, hwhole, rfl⟩
      case isFalse hne =>
        obtain ⟨n, hn, hpair⟩ := Option.map_eq_some_iff.1 hmillis
        obtain ⟨rfl, rfl⟩ := Prod.mk.inj hpair
        refine ⟨_, .fraction hle hne (fun c hc => List.mem_takeWhile_imp hc) hn, ?_⟩
        simp only [spanDigits, List.cons_append, List.append_assoc,
          List.takeWhile_append_dropWhile]
    case h_2 =>
      obtain ⟨rfl, rfl⟩ := Prod.mk.inj (Option.some.inj hmillis)
      exact ⟨_, hwhole, rfl⟩
  case h_2 =>
    obtain ⟨rfl, rfl⟩ := Prod.mk.inj (Option.some.inj h)
    exact ⟨[], .missing, rfl⟩

theorem readSeconds_append {text rest : List Char} {millis : Nat} (h : IsSeconds text millis)
    (hrest : ∀ c ∈ rest.head?, EndsSeconds c) :
    readSeconds (text ++ rest) = some (millis, rest) := by
  -- with seconds or without them, what is read ends where the rest cannot go on
  cases h with
  | missing =>
    rw [List.nil_append]
    unfold readSeconds
    split
    case h_1 tail => exact absurd rfl (hrest ':' rfl).1
    case h_2 => rfl
  | @whole seconds h =>
    rw [List.cons_append]
    simp only [readSeconds, readBounded_two (by decide : 59 < 100) h, Option.bind_eq_bind,
      Option.bind_some]
    split
    case h_1 after => exact absurd rfl (hrest '.' rfl).2.1
    case h_2 => rfl
  | @fraction seconds millis digits h hne hd hm =>
    have hspan : spanDigits (digits ++ rest) = (digits, rest) := by
      have htail : rest.takeWhile Char.isDigit = [] ∧ rest.dropWhile Char.isDigit = rest := by
        cases rest with
        | nil => exact ⟨rfl, rfl⟩
        | cons c cs =>
          have hc := (hrest c rfl).2.2
          exact ⟨List.takeWhile_cons_of_neg (by simp [hc]),
            List.dropWhile_cons_of_neg (by simp [hc])⟩
      rw [spanDigits, List.takeWhile_append_of_pos hd, List.dropWhile_append_of_pos hd, htail.1,
        htail.2, List.append_nil]
    rw [List.cons_append, List.append_assoc, List.cons_append]
    simp only [readSeconds, readBounded_two (by decide : 59 < 100) h, Option.bind_eq_bind,
      Option.bind_some, hspan]
    rw [if_neg hne, hm]
    rfl

/-- The text of a time of day. -/
inductive IsTime : List Char → StatedTime → Prop
  | mk {hours minutes millis : Nat} {seconds zoneText : List Char} {zone : Int} (hh : hours ≤ 24)
      (hm : minutes ≤ 59) (hs : IsSeconds seconds millis) (hz : IsZone zoneText zone) :
      IsTime (padded 2 hours ++ ':' :: (padded 2 minutes ++ (seconds ++ zoneText)))
        ⟨hours * 3600000 + minutes * 60000 + millis, zone⟩

/-- A time of day is read exactly from its written form. -/
theorem readTime_eq_some_iff {cs : List Char} {t : StatedTime} :
    readTime cs = some t ↔ IsTime cs t := by
  constructor
  · intro h
    unfold readTime at h
    obtain ⟨⟨hours, rest⟩, hhours, hafter⟩ := Option.bind_eq_some_iff.1 h
    obtain ⟨rest', hmark, hafter'⟩ := Option.bind_eq_some_iff.1 hafter
    obtain ⟨⟨minutes, rest''⟩, hminutes, hafter''⟩ := Option.bind_eq_some_iff.1 hafter'
    obtain ⟨⟨millis, last⟩, hseconds, hlast⟩ := Option.bind_eq_some_iff.1 hafter''
    obtain ⟨zone, hzone, htime⟩ := Option.bind_eq_some_iff.1 hlast
    clear h hafter hafter' hafter'' hlast
    obtain ⟨⟨-, hh⟩, rfl⟩ := (readBounded_eq_some_iff (by decide) (by decide)).1 hhours
    obtain rfl := readMark_eq_some_iff.1 hmark
    obtain ⟨⟨-, hm⟩, rfl⟩ := (readBounded_eq_some_iff (by decide) (by decide)).1 hminutes
    obtain ⟨text, htext, rfl⟩ := exists_isSeconds_of_readSeconds hseconds
    obtain rfl := Option.some.inj htime
    exact .mk hh hm htext (readZone_eq_some_iff.1 hzone)
  · rintro ⟨hh, hm, hs, hz⟩
    unfold readTime
    rw [readBounded_two (by decide) hh]
    simp only [Option.bind_eq_bind, Option.bind_some]
    rw [readMark_eq_some_iff.2 rfl]
    simp only [Option.bind_some]
    rw [readBounded_two (by decide) hm]
    simp only [Option.bind_some]
    rw [readSeconds_append hs hz.endsSeconds]
    simp only [Option.bind_some]
    rw [readZone_eq_some_iff.2 hz]
    rfl

end CrashReports.Store
