import CrashReports.Text.Utf8

/-!
# Text survives its bytes

Reading the UTF-8 bytes of a text gives the text back.  The reader is followed byte by
byte through one character; that the second byte of a character lies within the bounds
that the first one sets is where the gaps of the code points matter.
-/

namespace CrashReports.Text

theorem utf8_cons (c : Char) (cs : List Char) :
    utf8 (String.ofList (c :: cs)) = String.utf8EncodeChar c ++ utf8 (String.ofList cs) := by
  simp [utf8]

theorem toNat_le_or (c : Char) : c.toNat < 0xD800 ∨ 0xDFFF < c.toNat ∧ c.toNat < 0x110000 :=
  c.valid

theorem toNat_ofNat_of_le {n : Nat} (h : n ≤ 255) : (UInt8.ofNat n).toNat = n := by
  rw [UInt8.toNat_ofNat']
  exact Nat.mod_eq_of_lt (by omega)

theorem ofNat_le_ofNat {m n : Nat} (hn : n ≤ 255) (h : m ≤ n) : UInt8.ofNat m ≤ UInt8.ofNat n := by
  rw [UInt8.le_iff_toNat_le, toNat_ofNat_of_le hn, toNat_ofNat_of_le (by omega)]
  exact h

/-! ### First bytes -/

theorem firstByte_of_one {n : Nat} (h : n ≤ 0x7f) :
    FirstByte.of (UInt8.ofNat n) = .whole (Char.ofNat n) := by
  unfold FirstByte.of
  rw [toNat_ofNat_of_le (by omega)]
  exact if_pos (by omega)

theorem firstByte_of_two {n : Nat} (h : 0x7f < n) (h' : n ≤ 0x7ff) :
    FirstByte.of (UInt8.ofNat (n / 64 % 0x20 + 0xc0)) = .opens ⟨1, 0x80, 0xBF, n / 64⟩ := by
  unfold FirstByte.of
  rw [toNat_ofNat_of_le (by omega)]
  dsimp only
  rw [if_neg (by omega), if_neg (by omega), if_pos (by omega),
    show n / 64 % 0x20 + 0xc0 - 0xc0 = n / 64 by omega]

theorem firstByte_of_three {n : Nat} (h : 0x7ff < n) (h' : n ≤ 0xffff)
    (hvalid : n < 0xD800 ∨ 0xDFFF < n) :
    ∃ low high, FirstByte.of (UInt8.ofNat (n / 4096 % 0x10 + 0xe0)) =
        .opens ⟨2, low, high, n / 4096⟩ ∧
      low ≤ UInt8.ofNat (n / 64 % 0x40 + 0x80) ∧ UInt8.ofNat (n / 64 % 0x40 + 0x80) ≤ high := by
  unfold FirstByte.of
  rw [toNat_ofNat_of_le (by omega)]
  dsimp only
  rw [if_neg (by omega), if_neg (by omega), if_neg (by omega)]
  -- the least first byte keeps out what two bytes can say, and 0xED the gap of the code points
  by_cases hfirst : n / 4096 % 0x10 + 0xe0 = 0xE0
  · rw [if_pos hfirst]
    exact ⟨.ofNat 0xA0, .ofNat 0xBF, by rw [show n / 4096 = 0 by omega]; rfl,
      ofNat_le_ofNat (by omega) (by omega), ofNat_le_ofNat (by omega) (by omega)⟩
  · rw [if_neg hfirst]
    by_cases hgap : n / 4096 % 0x10 + 0xe0 = 0xED
    · rw [if_pos hgap]
      exact ⟨.ofNat 0x80, .ofNat 0x9F, by rw [show n / 4096 = 0xD by omega]; rfl,
        ofNat_le_ofNat (by omega) (by omega), ofNat_le_ofNat (by omega) (by omega)⟩
    · rw [if_neg hgap, if_pos (by omega)]
      have hbits : n / 4096 % 0x10 + 0xe0 - 0xe0 = n / 4096 := by omega
      exact ⟨.ofNat 0x80, .ofNat 0xBF, by rw [hbits]; rfl,
        ofNat_le_ofNat (by omega) (by omega), ofNat_le_ofNat (by omega) (by omega)⟩

theorem firstByte_of_four {n : Nat} (h : 0xffff < n) (h' : n < 0x110000) :
    ∃ low high, FirstByte.of (UInt8.ofNat (n / 262144 % 0x08 + 0xf0)) =
        .opens ⟨3, low, high, n / 262144⟩ ∧
      low ≤ UInt8.ofNat (n / 4096 % 0x40 + 0x80) ∧
      UInt8.ofNat (n / 4096 % 0x40 + 0x80) ≤ high := by
  unfold FirstByte.of
  rw [toNat_ofNat_of_le (by omega)]
  dsimp only
  rw [if_neg (by omega), if_neg (by omega), if_neg (by omega), if_neg (by omega), if_neg (by omega),
    if_neg (by omega)]
  -- the least first byte keeps out what three bytes can say, and 0xF4 what is no code point
  by_cases hfirst : n / 262144 % 0x08 + 0xf0 = 0xF0
  · rw [if_pos hfirst]
    exact ⟨.ofNat 0x90, .ofNat 0xBF, by rw [show n / 262144 = 0 by omega]; rfl,
      ofNat_le_ofNat (by omega) (by omega), ofNat_le_ofNat (by omega) (by omega)⟩
  · rw [if_neg hfirst]
    by_cases hmiddle : n / 262144 % 0x08 + 0xf0 < 0xF4
    · rw [if_pos hmiddle]
      have hbits : n / 262144 % 0x08 + 0xf0 - 0xf0 = n / 262144 := by omega
      exact ⟨.ofNat 0x80, .ofNat 0xBF, by rw [hbits]; rfl,
        ofNat_le_ofNat (by omega) (by omega), ofNat_le_ofNat (by omega) (by omega)⟩
    · rw [if_neg hmiddle, if_pos (by omega)]
      exact ⟨.ofNat 0x80, .ofNat 0x8F, by rw [show n / 262144 = 4 by omega]; rfl,
        ofNat_le_ofNat (by omega) (by omega), ofNat_le_ofNat (by omega) (by omega)⟩

/-! ### Whole characters -/

/-- A byte that continues a character. -/
theorem continuation_bounds (n : Nat) :
    UInt8.ofNat 0x80 ≤ UInt8.ofNat (n % 0x40 + 0x80) ∧
      UInt8.ofNat (n % 0x40 + 0x80) ≤ UInt8.ofNat 0xBF ∧
      (UInt8.ofNat (n % 0x40 + 0x80)).toNat - 0x80 = n % 0x40 := by
  refine ⟨ofNat_le_ofNat (by omega) (by omega), ofNat_le_ofNat (by omega) (by omega), ?_⟩
  rw [toNat_ofNat_of_le (by omega)]
  omega

/-- The reader gets over one character: it finds no fault in it, and it marks it whole. -/
theorem read_utf8EncodeChar (c : Char) (index : Nat) (bs : List UInt8) :
    (∃ next, utf8Fault? index 0 none (String.utf8EncodeChar c ++ bs) =
        utf8Fault? next 0 none bs) ∧
      utf8Marks none (String.utf8EncodeChar c ++ bs) = some c :: utf8Marks none bs := by
  have hvalid := toNat_le_or c
  have hc : Char.ofNat c.toNat = c := Char.ofNat_toNat c
  have hval : c.val.toNat = c.toNat := rfl
  unfold String.utf8EncodeChar
  rw [hval]
  generalize c.toNat = n at hvalid hc
  subst hc
  dsimp only
  obtain ⟨hlow, hhigh, hbits⟩ := continuation_bounds n
  obtain ⟨hlow', hhigh', hbits'⟩ := continuation_bounds (n / 64)
  obtain ⟨-, -, hbits''⟩ := continuation_bounds (n / 4096)
  have h80 : UInt8.ofNat 0x80 = 0x80 := rfl
  have hBF : UInt8.ofNat 0xBF = 0xBF := rfl
  rw [h80] at hlow hlow'
  rw [hBF] at hhigh hhigh'
  -- by the number of bytes; what they carry adds up to the code point again
  by_cases hone : n ≤ 0x7f
  · rw [if_pos hone]
    have hfirst := firstByte_of_one hone
    constructor
    · exact ⟨index + 1, by rw [List.cons_append, utf8Fault?, hfirst]; rfl⟩
    · rw [List.cons_append, utf8Marks, utf8Marks.start, hfirst]
      rfl
  · rw [if_neg hone]
    by_cases htwo : n ≤ 0x7ff
    · rw [if_pos htwo]
      have hfirst := firstByte_of_two (by omega) htwo
      have hsum : n / 64 * 64 + n % 64 = n := by omega
      constructor
      · refine ⟨index + 1 + 1, ?_⟩
        simp only [List.cons_append, List.nil_append, utf8Fault?, hfirst, hlow, hhigh, and_self,
          if_true, Nat.le_refl]
      · simp only [List.cons_append, List.nil_append, utf8Marks, utf8Marks.start, hfirst, hlow,
          hhigh, and_self, if_true, Nat.le_refl, hbits, hsum]
    · rw [if_neg htwo]
      by_cases hthree : n ≤ 0xffff
      · rw [if_pos hthree]
        obtain ⟨low, high, hfirst, hsecond, hsecond'⟩ :=
          firstByte_of_three (by omega) hthree (by omega)
        have hsum : (n / 4096 * 64 + n / 64 % 64) * 64 + n % 64 = n := by omega
        constructor
        · refine ⟨index + 1 + 1 + 1, ?_⟩
          simp only [List.cons_append, List.nil_append, utf8Fault?, hfirst, hsecond, hsecond',
            hlow, hhigh, and_self, if_true, Nat.reduceLeDiff, Nat.reduceSub, if_false]
        · simp only [List.cons_append, List.nil_append, utf8Marks, utf8Marks.start, hfirst, hsecond,
            hsecond', hlow, hhigh, and_self, if_true, Nat.reduceLeDiff, Nat.reduceSub, if_false,
            hbits, hbits', hsum]
      · rw [if_neg hthree]
        obtain ⟨low, high, hfirst, hsecond, hsecond'⟩ :=
          firstByte_of_four (n := n) (by omega) (by omega)
        have hsum : ((n / 262144 * 64 + n / 4096 % 64) * 64 + n / 64 % 64) * 64 + n % 64 = n := by
          omega
        constructor
        · refine ⟨index + 1 + 1 + 1 + 1, ?_⟩
          simp only [List.cons_append, List.nil_append, utf8Fault?, hfirst, hsecond, hsecond',
            hlow, hhigh, hlow', hhigh', and_self, if_true, Nat.reduceLeDiff, Nat.reduceSub, if_false]
        · simp only [List.cons_append, List.nil_append, utf8Marks, utf8Marks.start, hfirst, hsecond,
            hsecond', hlow, hhigh, hlow', hhigh', and_self, if_true, Nat.reduceLeDiff,
            Nat.reduceSub, if_false, hbits, hbits', hbits'', hsum]

theorem utf8Fault?_utf8 (cs : List Char) (index : Nat) :
    utf8Fault? index 0 none (utf8 (String.ofList cs)) = none := by
  induction cs generalizing index with
  | nil => simp [utf8, utf8Fault?]
  | cons c cs ih =>
    obtain ⟨⟨next, hnext⟩, -⟩ := read_utf8EncodeChar c index (utf8 (String.ofList cs))
    rw [utf8_cons, hnext, ih]

theorem utf8Marks_utf8 (cs : List Char) :
    utf8Marks none (utf8 (String.ofList cs)) = cs.map some := by
  induction cs with
  | nil => simp [utf8, utf8Marks]
  | cons c cs ih =>
    rw [utf8_cons, (read_utf8EncodeChar c 0 _).2, ih, List.map_cons]

/-- The bytes of a text read as that text. -/
theorem readUtf8_utf8 (s : String) : readUtf8 (utf8 s) = .ok s := by
  have hs : String.ofList s.toList = s := String.ofList_toList
  have hfault := utf8Fault?_utf8 s.toList 0
  have hmarks := utf8Marks_utf8 s.toList
  rw [hs] at hfault hmarks
  unfold readUtf8 ofUtf8Lossy
  rw [hfault, hmarks]
  dsimp only
  simp [Function.comp_def]

@[simp]
theorem utf8_inj {s t : String} : utf8 s = utf8 t ↔ s = t := by
  constructor
  · intro h
    have hread := readUtf8_utf8 s
    rw [h, readUtf8_utf8] at hread
    exact (Except.ok.inj hread).symm
  · rintro rfl
    rfl

/-! ### Text of ASCII -/

theorem utf8EncodeChar_of_ascii {c : Char} (h : c.toNat < 128) :
    String.utf8EncodeChar c = [UInt8.ofNat c.toNat] :=
  if_pos (show c.toNat ≤ 127 by omega)

/-- Texts of ASCII are ordered like their bytes. -/
theorem utf8_lt_iff {cs ds : List Char} (hc : ∀ c ∈ cs, c.toNat < 128)
    (hd : ∀ c ∈ ds, c.toNat < 128) :
    utf8 (String.ofList cs) < utf8 (String.ofList ds) ↔ cs < ds := by
  induction cs generalizing ds with
  | nil =>
    cases ds with
    | nil => simp [utf8]
    | cons d ds =>
      rw [utf8_cons, utf8EncodeChar_of_ascii (hd d (by simp))]
      simp [utf8]
  | cons c cs ih =>
    have hc' := hc c (by simp)
    rw [utf8_cons, utf8EncodeChar_of_ascii hc']
    cases ds with
    | nil => simp [utf8]
    | cons d ds =>
      have hd' := hd d (by simp)
      have ih := @ih ds (fun x hx => hc x (by simp [hx])) (fun x hx => hd x (by simp [hx]))
      have hlt : UInt8.ofNat c.toNat < UInt8.ofNat d.toNat ↔ c < d := by
        rw [UInt8.lt_iff_toNat_lt, toNat_ofNat_of_le (by omega), toNat_ofNat_of_le (by omega),
          Char.lt_def, UInt32.lt_iff_toNat_lt]
        rfl
      have heq : UInt8.ofNat c.toNat = UInt8.ofNat d.toNat ↔ c = d := by
        rw [← UInt8.toNat_inj, toNat_ofNat_of_le (by omega), toNat_ofNat_of_le (by omega),
          Char.toNat_inj]
      rw [utf8_cons, utf8EncodeChar_of_ascii hd', List.singleton_append, List.singleton_append,
        List.cons_lt_cons_iff, List.cons_lt_cons_iff, hlt, heq, ih]

end CrashReports.Text
