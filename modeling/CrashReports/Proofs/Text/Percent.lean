import CrashReports.Proofs.Text.Bytes
import CrashReports.Text.Form

/-!
# Texts with percent escapes

A text without an escape is read as its own bytes (`percentBytes_of_not_hasEscape`).  An escape
takes three characters to write one byte, so a text with one is read as fewer bytes than it has
(`length_percentBytes_lt`).
-/

namespace CrashReports.Text

/-- Somewhere in a text two hexadecimal digits follow a percent sign. -/
inductive HasEscape : List Char → Prop
  | here {a b : Char} {byte : UInt8} (h : hexByte? a b = some byte) (cs : List Char) :
      HasEscape ('%' :: a :: b :: cs)
  | later (c : Char) {cs : List Char} (h : HasEscape cs) : HasEscape (c :: cs)

theorem percentBytes_cons_of_hexByte? {a b : Char} {byte : UInt8} (h : hexByte? a b = some byte)
    (cs : List Char) : percentBytes ('%' :: a :: b :: cs) = byte :: percentBytes cs := by
  rw [percentBytes]
  exact h

/-- A character that begins no escape is read as its bytes. -/
theorem percentBytes_cons {c : Char} {cs : List Char}
    (h : ∀ a b rest byte, c = '%' → cs = a :: b :: rest → hexByte? a b ≠ some byte) :
    percentBytes (c :: cs) = String.utf8EncodeChar c ++ percentBytes cs := by
  match cs with
  | [] => rfl
  | [a] => rfl
  | a :: b :: rest =>
    rw [percentBytes]
    exact fun byte hc hbyte => h a b rest byte hc rfl hbyte

theorem percentBytes_cons_of_ne {c : Char} (hc : c ≠ '%') (cs : List Char) :
    percentBytes (c :: cs) = String.utf8EncodeChar c ++ percentBytes cs :=
  percentBytes_cons fun _ _ _ _ heq => absurd heq hc

theorem percentBytes_of_not_hasEscape {cs : List Char} (h : ¬ HasEscape cs) :
    percentBytes cs = utf8 (String.ofList cs) := by
  induction cs with
  | nil => rfl
  | cons c cs ih =>
    have hrest : ¬ HasEscape cs := fun hcs => h (.later c hcs)
    rw [percentBytes_cons, ih hrest, utf8_cons]
    rintro a b rest byte rfl rfl hbyte
    exact h (.here hbyte rest)

/-! ### How many bytes there are -/

theorem length_utf8_cons (c : Char) (cs : List Char) :
    (utf8 (String.ofList (c :: cs))).length = c.utf8Size + (utf8 (String.ofList cs)).length := by
  rw [utf8_cons, List.length_append, String.length_utf8EncodeChar]

theorem length_percentBytes_le (cs : List Char) :
    (percentBytes cs).length ≤ (utf8 (String.ofList cs)).length := by
  fun_induction percentBytes cs with
  | case1 => exact Nat.le_refl 0
  | case2 a b rest byte hbyte ih =>
    have hpos := a.utf8Size_pos
    simp only [length_utf8_cons, List.length_cons]
    omega
  | case3 c a b rest hbyte ih =>
    rw [length_utf8_cons, List.length_append, String.length_utf8EncodeChar]
    omega
  | case4 c cs hcs ih =>
    rw [length_utf8_cons, List.length_append, String.length_utf8EncodeChar]
    omega

theorem length_percentBytes_lt {cs : List Char} (h : HasEscape cs) :
    (percentBytes cs).length < (utf8 (String.ofList cs)).length := by
  have hescape {a b : Char} {byte : UInt8} (hbyte : hexByte? a b = some byte) (rest : List Char) :
      (percentBytes ('%' :: a :: b :: rest)).length <
        (utf8 (String.ofList ('%' :: a :: b :: rest))).length := by
    have hle := length_percentBytes_le rest
    have hpos := a.utf8Size_pos
    have hpos' := b.utf8Size_pos
    rw [percentBytes_cons_of_hexByte? hbyte]
    simp only [length_utf8_cons, List.length_cons]
    omega
  induction h with
  | here hbyte rest => exact hescape hbyte rest
  | @later c cs _ ih =>
    -- the character before may begin an escape itself
    by_cases hfirst : ∃ a b rest byte, c = '%' ∧ cs = a :: b :: rest ∧ hexByte? a b = some byte
    · obtain ⟨a, b, rest, byte, rfl, rfl, hbyte⟩ := hfirst
      exact hescape hbyte rest
    · rw [percentBytes_cons fun a b rest byte hc hcs hbyte =>
        hfirst ⟨a, b, rest, byte, hc, hcs, hbyte⟩, length_utf8_cons, List.length_append,
        String.length_utf8EncodeChar]
      omega

/-- A text whose bytes begin with those of a character begins with that character. -/
theorem exists_cons_of_utf8_eq {s : String} {c : Char} {bs : List UInt8}
    (h : utf8 s = String.utf8EncodeChar c ++ bs) : ∃ cs, s.toList = c :: cs := by
  have hmarks := utf8Marks_utf8 s.toList
  rw [String.ofList_toList, h, (read_utf8EncodeChar c 0 bs).2] at hmarks
  obtain ⟨d, cs, hcs, hd, -⟩ := List.map_eq_cons_iff.1 hmarks.symm
  exact ⟨cs, by rw [hcs, Option.some.inj hd]⟩

end CrashReports.Text
