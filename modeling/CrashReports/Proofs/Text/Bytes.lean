import CrashReports.Proofs.Text.Utf8

/-!
# Bytes that are a text

Bytes are read as a text only if they are the bytes of that text (`readUtf8_eq_ok_iff`): the
bounds that the reader sets for each byte leave nothing but the bytes of characters.

A store that takes bytes for characters one by one sees the same text only if it is ASCII;
any other character gives it bytes that are not.
-/

namespace CrashReports.Text

theorem toNat_ofNat_of_valid {n : Nat} (h : n < 0xD800 ∨ 0xDFFF < n ∧ n < 0x110000) :
    (Char.ofNat n).toNat = n := by
  unfold Char.ofNat
  rw [dif_pos h]
  rfl

theorem lt_of_whole {b : UInt8} {c : Char} (h : FirstByte.of b = .whole c) :
    b.toNat < 0x80 ∧ Char.ofNat b.toNat = c := by
  unfold FirstByte.of at h
  dsimp only at h
  split at h
  case isTrue hsmall => exact ⟨hsmall, FirstByte.whole.inj h⟩
  -- all other bytes open a character or are faulty
  repeat'
    split at h
    case isTrue => cases h
  cases h

/-- The bounds of the bytes after the first one of a character. -/
theorem bounds_of_opens {b : UInt8} {p : Begun} (h : FirstByte.of b = .opens p) :
    0x80 ≤ p.low.toNat ∧ p.high.toNat ≤ 0xBF ∧
      (p.missing = 1 ∧ 0xC2 ≤ b.toNat ∧ b.toNat < 0xE0 ∨
        p.missing = 2 ∧ 0xE0 ≤ b.toNat ∧ b.toNat < 0xF0 ∧
          (b.toNat = 0xE0 → 0xA0 ≤ p.low.toNat) ∧ (b.toNat = 0xED → p.high.toNat ≤ 0x9F) ∨
        p.missing = 3 ∧ 0xF0 ≤ b.toNat ∧ b.toNat ≤ 0xF4 ∧
          (b.toNat = 0xF0 → 0x90 ≤ p.low.toNat) ∧ (b.toNat = 0xF4 → p.high.toNat ≤ 0x8F)) := by
  unfold FirstByte.of at h
  dsimp only at h
  split at h
  case isTrue => cases h
  split at h
  case isTrue => cases h
  repeat'
    split at h
    case isTrue =>
      obtain rfl := FirstByte.opens.inj h
      dsimp only [UInt8.toNat_ofNat]
      simp
      omega
  cases h

/-- Without a fault a character that has begun goes on with a byte in its bounds, and then
with the next one unless that was the last. -/
theorem exists_continuation {p : Begun} {bs : List UInt8} {index read : Nat}
    (h : utf8Fault? index read (some p) bs = none) :
    ∃ b rest, bs = b :: rest ∧ p.low.toNat ≤ b.toNat ∧ b.toNat ≤ p.high.toNat ∧
      if p.missing ≤ 1 then ∃ next, utf8Fault? next 0 none rest = none
      else ∃ bits,
        utf8Fault? index (read + 1) (some ⟨p.missing - 1, 0x80, 0xBF, bits⟩) rest = none := by
  cases bs with
  | nil => cases h
  | cons b rest =>
    rw [utf8Fault?] at h
    split at h
    case isTrue hbounds =>
      refine ⟨b, rest, rfl, hbounds.1, hbounds.2, ?_⟩
      split at h
      case isTrue hlast =>
        rw [if_pos hlast]
        exact ⟨_, h⟩
      case isFalse hmore =>
        rw [if_neg hmore]
        exact ⟨_, h⟩
    case isFalse => cases h

/-- After the second byte of a character the bounds are always the same. -/
theorem exists_laterContinuation {missing bits : Nat} {bs : List UInt8} {index read : Nat}
    (h : utf8Fault? index read (some ⟨missing, 0x80, 0xBF, bits⟩) bs = none) :
    ∃ b rest, bs = b :: rest ∧ 0x80 ≤ b.toNat ∧ b.toNat ≤ 0xBF ∧
      if missing ≤ 1 then ∃ next, utf8Fault? next 0 none rest = none
      else ∃ bits',
        utf8Fault? index (read + 1) (some ⟨missing - 1, 0x80, 0xBF, bits'⟩) rest = none :=
  exists_continuation h

theorem eq_ofNat_of_toNat_eq {b : UInt8} {n : Nat} (h : b.toNat = n) : b = UInt8.ofNat n := by
  rw [← h, UInt8.ofNat_toNat]

theorem utf8EncodeChar_ofNat {n : Nat} (h : n < 0xD800 ∨ 0xDFFF < n ∧ n < 0x110000) :
    String.utf8EncodeChar (Char.ofNat n) =
      if n ≤ 0x7f then [UInt8.ofNat n]
      else if n ≤ 0x7ff then [UInt8.ofNat (n / 64 % 0x20 + 0xc0), UInt8.ofNat (n % 0x40 + 0x80)]
      else if n ≤ 0xffff then
        [UInt8.ofNat (n / 4096 % 0x10 + 0xe0), UInt8.ofNat (n / 64 % 0x40 + 0x80),
          UInt8.ofNat (n % 0x40 + 0x80)]
      else
        [UInt8.ofNat (n / 262144 % 0x08 + 0xf0), UInt8.ofNat (n / 4096 % 0x40 + 0x80),
          UInt8.ofNat (n / 64 % 0x40 + 0x80), UInt8.ofNat (n % 0x40 + 0x80)] := by
  have hval : (Char.ofNat n).val.toNat = n := toNat_ofNat_of_valid h
  unfold String.utf8EncodeChar
  rw [hval]

/-- Bytes without a fault begin with the bytes of a character. -/
theorem exists_char_of_noFault {b : UInt8} {bs : List UInt8} {index : Nat}
    (h : utf8Fault? index 0 none (b :: bs) = none) :
    ∃ c rest next, b :: bs = String.utf8EncodeChar c ++ rest ∧
      utf8Fault? next 0 none rest = none := by
  rw [utf8Fault?] at h
  cases hfirst : FirstByte.of b with
  | faulty =>
    rw [hfirst] at h
    cases h
  | whole c =>
    rw [hfirst] at h
    refine ⟨c, bs, index + 1, ?_, h⟩
    obtain ⟨hsmall, rfl⟩ := lt_of_whole hfirst
    rw [utf8EncodeChar_ofNat (by omega), if_pos (by omega), UInt8.ofNat_toNat]
    rfl
  | opens p =>
    rw [hfirst] at h
    obtain ⟨hlow, hhigh, hshape⟩ := bounds_of_opens hfirst
    obtain ⟨b₁, bs₁, rfl, hlow₁, hhigh₁, hrest₁⟩ := exists_continuation h
    -- by the number of bytes; the code point is put together from what they carry
    rcases hshape with ⟨hmissing, hb⟩ | ⟨hmissing, hb⟩ | ⟨hmissing, hb⟩
    · rw [if_pos (by omega)] at hrest₁
      obtain ⟨next, hnext⟩ := hrest₁
      refine ⟨Char.ofNat ((b.toNat - 0xC0) * 64 + (b₁.toNat - 0x80)), bs₁, next, ?_, hnext⟩
      rw [utf8EncodeChar_ofNat (by omega), if_neg (by omega), if_pos (by omega),
        ← eq_ofNat_of_toNat_eq (b := b) (by omega), ← eq_ofNat_of_toNat_eq (b := b₁) (by omega)]
      rfl
    · rw [if_neg (by omega)] at hrest₁
      obtain ⟨bits, hrest₁⟩ := hrest₁
      obtain ⟨b₂, bs₂, rfl, hlow₂, hhigh₂, hrest₂⟩ := exists_laterContinuation hrest₁
      rw [if_pos (by omega)] at hrest₂
      obtain ⟨next, hnext⟩ := hrest₂
      refine ⟨Char.ofNat ((b.toNat - 0xE0) * 4096 + (b₁.toNat - 0x80) * 64 + (b₂.toNat - 0x80)),
        bs₂, next, ?_, hnext⟩
      rw [utf8EncodeChar_ofNat (by omega), if_neg (by omega), if_neg (by omega), if_pos (by omega),
        ← eq_ofNat_of_toNat_eq (b := b) (by omega), ← eq_ofNat_of_toNat_eq (b := b₁) (by omega),
        ← eq_ofNat_of_toNat_eq (b := b₂) (by omega)]
      rfl
    · rw [if_neg (by omega)] at hrest₁
      obtain ⟨bits, hrest₁⟩ := hrest₁
      obtain ⟨b₂, bs₂, rfl, hlow₂, hhigh₂, hrest₂⟩ := exists_laterContinuation hrest₁
      rw [if_neg (by omega)] at hrest₂
      obtain ⟨bits', hrest₂⟩ := hrest₂
      obtain ⟨b₃, bs₃, rfl, hlow₃, hhigh₃, hrest₃⟩ := exists_laterContinuation hrest₂
      rw [if_pos (by omega)] at hrest₃
      obtain ⟨next, hnext⟩ := hrest₃
      refine ⟨Char.ofNat ((b.toNat - 0xF0) * 262144 + (b₁.toNat - 0x80) * 4096 +
        (b₂.toNat - 0x80) * 64 + (b₃.toNat - 0x80)), bs₃, next, ?_, hnext⟩
      rw [utf8EncodeChar_ofNat (by omega), if_neg (by omega), if_neg (by omega), if_neg (by omega),
        ← eq_ofNat_of_toNat_eq (b := b) (by omega), ← eq_ofNat_of_toNat_eq (b := b₁) (by omega),
        ← eq_ofNat_of_toNat_eq (b := b₂) (by omega), ← eq_ofNat_of_toNat_eq (b := b₃) (by omega)]
      rfl

theorem exists_utf8_of_noFault {bs : List UInt8} {index : Nat}
    (h : utf8Fault? index 0 none bs = none) : ∃ s, bs = utf8 s := by
  match bs with
  | [] => exact ⟨"", rfl⟩
  | b :: bs =>
    obtain ⟨c, rest, next, hsplit, hrest⟩ := exists_char_of_noFault h
    have hshorter : rest.length < (b :: bs).length := by
      have hpos := String.length_utf8EncodeChar c
      have hsize := c.utf8Size_pos
      rw [hsplit, List.length_append]
      omega
    obtain ⟨s, hs⟩ := exists_utf8_of_noFault hrest
    refine ⟨String.ofList (c :: s.toList), ?_⟩
    rw [utf8_cons, String.ofList_toList, ← hs, hsplit]
termination_by bs.length
decreasing_by exact hshorter

/-- Bytes read as a text exactly if they are the bytes of that text. -/
theorem readUtf8_eq_ok_iff {bs : List UInt8} {s : String} : readUtf8 bs = .ok s ↔ bs = utf8 s := by
  constructor
  · intro h
    cases hfault : utf8Fault? 0 0 none bs with
    | some fault =>
      unfold readUtf8 at h
      rw [hfault] at h
      cases h
    | none =>
      obtain ⟨s', rfl⟩ := exists_utf8_of_noFault hfault
      rw [readUtf8_utf8] at h
      rw [Except.ok.inj h]
  · rintro rfl
    exact readUtf8_utf8 s

/-! ### Bytes taken for characters -/

theorem le_of_mem_utf8EncodeChar {c : Char} (hc : 128 ≤ c.toNat) {b : UInt8}
    (hb : b ∈ String.utf8EncodeChar c) : 128 ≤ b.toNat := by
  have hvalid := toNat_le_or c
  have hsplit := utf8EncodeChar_ofNat (n := c.toNat) (by omega)
  rw [Char.ofNat_toNat] at hsplit
  -- first bytes begin at 0xC0, and the others at 0x80
  have hmember : ∃ k, 128 ≤ k ∧ k ≤ 255 ∧ b = UInt8.ofNat k := by
    rw [hsplit, if_neg (by omega)] at hb
    split at hb
    · simp only [List.mem_cons, List.not_mem_nil, or_false] at hb
      rcases hb with rfl | rfl <;> exact ⟨_, by omega, by omega, rfl⟩
    · split at hb
      · simp only [List.mem_cons, List.not_mem_nil, or_false] at hb
        rcases hb with rfl | rfl | rfl <;> exact ⟨_, by omega, by omega, rfl⟩
      · simp only [List.mem_cons, List.not_mem_nil, or_false] at hb
        rcases hb with rfl | rfl | rfl | rfl <;> exact ⟨_, by omega, by omega, rfl⟩
  obtain ⟨k, hlow, hhigh, rfl⟩ := hmember
  rw [toNat_ofNat_of_le hhigh]
  exact hlow

theorem mem_utf8 {s : String} {b : UInt8} :
    b ∈ utf8 s ↔ ∃ c ∈ s.toList, b ∈ String.utf8EncodeChar c := by
  rw [utf8, List.mem_flatMap]

/-- A byte of a text that is ASCII stands for itself. -/
theorem mem_of_mem_utf8 {s : String} {b : UInt8} (hb : b ∈ utf8 s) (h : b.toNat < 128) :
    Char.ofNat b.toNat ∈ s.toList := by
  obtain ⟨c, hc, hb⟩ := mem_utf8.1 hb
  obtain hascii | hlarge := Nat.lt_or_ge c.toNat 128
  · rw [utf8EncodeChar_of_ascii hascii, List.mem_singleton] at hb
    rw [hb, toNat_ofNat_of_le (by omega), Char.ofNat_toNat]
    exact hc
  · have := le_of_mem_utf8EncodeChar hlarge hb
    omega

/-- A text is ASCII if its bytes are. -/
theorem ascii_of_utf8 {s : String} (h : ∀ b ∈ utf8 s, b.toNat < 128) :
    ∀ c ∈ s.toList, c.toNat < 128 := by
  intro c hc
  refine Decidable.byContradiction fun hlarge => ?_
  have hne : String.utf8EncodeChar c ≠ [] := by
    have hpos := c.utf8Size_pos
    have hsize := String.length_utf8EncodeChar c
    exact List.ne_nil_of_length_pos (by omega)
  obtain ⟨b, hb⟩ := List.exists_mem_of_ne_nil _ hne
  have hbound := le_of_mem_utf8EncodeChar (by omega) hb
  have hsmall := h b (mem_utf8.2 ⟨c, hc, hb⟩)
  omega

theorem map_utf8_of_ascii {s : String} (h : ∀ c ∈ s.toList, c.toNat < 128) :
    ((utf8 s).map fun b => Char.ofNat b.toNat) = s.toList := by
  unfold utf8
  generalize s.toList = cs at h
  induction cs with
  | nil => rfl
  | cons c cs ih =>
    have hc := h c List.mem_cons_self
    rw [List.flatMap_cons, List.map_append, ih fun d hd => h d (List.mem_cons_of_mem _ hd),
      utf8EncodeChar_of_ascii hc, List.map_singleton, toNat_ofNat_of_le (by omega),
      Char.ofNat_toNat, List.singleton_append]

end CrashReports.Text
