import CrashReports.Proofs.Text.Percent
import CrashReports.Text.Form
import Mathlib.Data.List.TakeWhile

/-!
# Form-encoded text

A text can be written in many ways as a name or a value of a form.  Every character can be
escaped by the percent escapes of its bytes, with digits of either case; a blank can be
written as a plus sign; and characters that mean nothing to the form can stand for
themselves.  Whichever way is chosen, reading gives the text back
(`decodeComponent_of_encodes`).

A query is cut at `&` into parts and each part at its first `=`, so no part may hold the one
and no name the other.
-/

namespace CrashReports.Text

/-! ### Percent escapes -/

/-- A hexadecimal digit, in either case, writes a number. -/
def WritesNibble (c : Char) (n : Nat) : Prop :=
  c = Nat.digitChar n ∨ c = (Nat.digitChar n).toUpper

/-- The percent escapes of bytes. -/
inductive Escapes : List Char → List UInt8 → Prop
  | nil : Escapes [] []
  | cons {a b : Char} {byte : UInt8} {w : List Char} {bs : List UInt8}
      (ha : WritesNibble a (byte.toNat / 16)) (hb : WritesNibble b (byte.toNat % 16))
      (h : Escapes w bs) : Escapes ('%' :: a :: b :: w) (byte :: bs)

/-- The written forms of a text in a form, where some characters can stand for themselves. -/
inductive Encodes (plain : Char → Bool) : List Char → List Char → Prop
  | nil : Encodes plain [] []
  | plain {c : Char} {w s : List Char} (hc : plain c = true) (h : Encodes plain w s) :
      Encodes plain (c :: w) (c :: s)
  | blank {w s : List Char} (h : Encodes plain w s) : Encodes plain ('+' :: w) (' ' :: s)
  | escaped {c : Char} {e w s : List Char} (he : Escapes e (String.utf8EncodeChar c))
      (h : Encodes plain w s) : Encodes plain (e ++ w) (c :: s)

/-- A character that can stand for itself in a value. -/
def isValueChar (c : Char) : Bool :=
  c != '&' && c != '#' && c != '%' && c != '+'

/-- A character that can stand for itself in a name. -/
def isNameChar (c : Char) : Bool :=
  isValueChar c && c != '='

theorem Encodes.append {plain : Char → Bool} {w w' s s' : List Char} (h : Encodes plain w s)
    (h' : Encodes plain w' s') : Encodes plain (w ++ w') (s ++ s') := by
  induction h with
  | nil => exact h'
  | plain hc _ ih => exact .plain hc ih
  | blank _ ih => exact .blank ih
  | escaped he _ ih =>
    rw [List.append_assoc]
    exact .escaped he ih

theorem exists_escapes (bs : List UInt8) : ∃ e, Escapes e bs := by
  induction bs with
  | nil => exact ⟨[], .nil⟩
  | cons byte bs ih =>
    obtain ⟨e, he⟩ := ih
    exact ⟨_, .cons (.inl rfl) (.inl rfl) he⟩

/-- Every text has a written form, if need be one in which all its characters are escaped. -/
theorem exists_encodes (plain : Char → Bool) (s : List Char) : ∃ w, Encodes plain w s := by
  induction s with
  | nil => exact ⟨[], .nil⟩
  | cons c s ih =>
    obtain ⟨w, hw⟩ := ih
    obtain ⟨e, he⟩ := exists_escapes (String.utf8EncodeChar c)
    exact ⟨e ++ w, .escaped he hw⟩

theorem hexDigit?_of_writesNibble {c : Char} {n : Nat} (hn : n < 16) (h : WritesNibble c n) :
    hexDigit? c = some n ∧ c ≠ '+' := by
  have hlower : ∀ n : Fin 16, hexDigit? (Nat.digitChar n) = some n.val ∧
      Nat.digitChar n ≠ '+' := by
    decide +kernel
  have hupper : ∀ n : Fin 16, hexDigit? (Nat.digitChar n).toUpper = some n.val ∧
      (Nat.digitChar n).toUpper ≠ '+' := by
    decide +kernel
  rcases h with rfl | rfl
  · exact hlower ⟨n, hn⟩
  · exact hupper ⟨n, hn⟩

theorem hexByte?_of_writesNibble {a b : Char} {byte : UInt8}
    (ha : WritesNibble a (byte.toNat / 16)) (hb : WritesNibble b (byte.toNat % 16)) :
    hexByte? a b = some byte := by
  have hbyte := byte.toNat_lt
  have hvalue : byte.toNat / 16 * 16 + byte.toNat % 16 = byte.toNat := by omega
  unfold hexByte?
  rw [(hexDigit?_of_writesNibble (by omega) ha).1, (hexDigit?_of_writesNibble (by omega) hb).1]
  simp only [Option.bind_eq_bind, Option.bind_some, hvalue, UInt8.ofNat_toNat]

/-- A character as it is read: a plus sign stands for a blank. -/
def unplus (c : Char) : Char :=
  if c = '+' then ' ' else c

theorem percentBytes_of_escapes {e : List Char} {bs : List UInt8} (h : Escapes e bs)
    (w : List Char) :
    percentBytes ((e ++ w).map unplus) = bs ++ percentBytes (w.map unplus) := by
  induction h with
  | nil => rfl
  | @cons a b byte w' bs ha hb _ ih =>
    have hbyte := byte.toNat_lt
    have hplus : unplus '%' = '%' := rfl
    have ha' : unplus a = a := if_neg (hexDigit?_of_writesNibble (by omega) ha).2
    have hb' : unplus b = b := if_neg (hexDigit?_of_writesNibble (by omega) hb).2
    simp only [List.cons_append, List.map_cons, hplus, ha', hb']
    rw [percentBytes_cons_of_hexByte? (hexByte?_of_writesNibble ha hb), ih]

theorem percentBytes_of_encodes {w s : List Char} (h : Encodes isValueChar w s) :
    percentBytes (w.map unplus) = utf8 (String.ofList s) := by
  induction h with
  | nil => rfl
  | @plain c w s hc _ ih =>
    have hchar : c ≠ '%' ∧ c ≠ '+' := by
      simp only [isValueChar, Bool.and_eq_true, bne_iff_ne] at hc
      exact ⟨hc.1.2, hc.2⟩
    have hsame : unplus c = c := if_neg hchar.2
    rw [List.map_cons, hsame, percentBytes_cons_of_ne hchar.1, ih, utf8_cons]
  | blank _ ih =>
    have hblank : unplus '+' = ' ' := rfl
    rw [List.map_cons, hblank, percentBytes_cons_of_ne (by decide), ih, utf8_cons]
  | escaped he _ ih => rw [percentBytes_of_escapes he, ih, utf8_cons]

theorem ofUtf8Lossy_utf8 (s : String) : ofUtf8Lossy (utf8 s) = s := by
  have hmarks := utf8Marks_utf8 s.toList
  rw [String.ofList_toList] at hmarks
  unfold ofUtf8Lossy
  rw [hmarks]
  simp [Function.comp_def]

/-- A text is read from each of its written forms. -/
theorem decodeComponent_of_encodes {w : List Char} {s : String}
    (h : Encodes isValueChar w s.toList) : decodeComponent w = s := by
  have hbytes := percentBytes_of_encodes h
  rw [String.ofList_toList] at hbytes
  have hdecode : decodeComponent w = ofUtf8Lossy (percentBytes (w.map unplus)) := rfl
  rw [hdecode, hbytes, ofUtf8Lossy_utf8]

/-! ### What a written form does not hold -/

theorem Encodes.mono {plain plain' : Char → Bool} (hsub : ∀ c, plain c = true → plain' c = true)
    {w s : List Char} (h : Encodes plain w s) : Encodes plain' w s := by
  induction h with
  | nil => exact .nil
  | plain hc _ ih => exact .plain (hsub _ hc) ih
  | blank _ ih => exact .blank ih
  | escaped he _ ih => exact .escaped he ih

theorem Encodes.value {w s : List Char} (h : Encodes isNameChar w s) : Encodes isValueChar w s :=
  h.mono fun _ hc => (Bool.and_eq_true_iff.1 hc).1

theorem not_mem_of_escapes {c : Char} (hc : hexDigit? c = none) (hpercent : c ≠ '%')
    {e : List Char} {bs : List UInt8} (h : Escapes e bs) : c ∉ e := by
  induction h with
  | nil => exact List.not_mem_nil
  | @cons a b byte w bs ha hb _ ih =>
    have hbyte := byte.toNat_lt
    have hnibble : ∀ {d : Char} {n : Nat}, n < 16 → WritesNibble d n → c ≠ d := by
      rintro d n hn hd rfl
      rw [(hexDigit?_of_writesNibble hn hd).1] at hc
      cases hc
    simp only [List.mem_cons, not_or]
    exact ⟨hpercent, hnibble (by omega) ha, hnibble (by omega) hb, ih⟩

/-- A written form holds no character that means something to the form. -/
theorem Encodes.not_mem {plain : Char → Bool} {c : Char} (hc : hexDigit? c = none)
    (hpercent : c ≠ '%') (hplus : c ≠ '+') (hplain : plain c = false) {w s : List Char}
    (h : Encodes plain w s) : c ∉ w := by
  induction h with
  | nil => exact List.not_mem_nil
  | plain hd _ ih =>
    rw [List.mem_cons, not_or]
    refine ⟨?_, ih⟩
    rintro rfl
    rw [hd] at hplain
    cases hplain
  | blank _ ih =>
    rw [List.mem_cons, not_or]
    exact ⟨hplus, ih⟩
  | escaped he _ ih =>
    rw [List.mem_append, not_or]
    exact ⟨not_mem_of_escapes hc hpercent he, ih⟩

/-! ### Parts of a query -/

theorem bne_of_mem {c d : Char} {cs : List Char} (h : c ∉ cs) (hd : d ∈ cs) : (d != c) = true := by
  rw [bne_iff_ne]
  rintro rfl
  exact h hd

theorem takeWhile_of_not_mem {c : Char} {cs : List Char} (h : c ∉ cs) :
    cs.takeWhile (· != c) = cs :=
  List.takeWhile_eq_self_iff.2 fun _ hd => bne_of_mem h hd

theorem splitFirst_append {c : Char} {name : List Char} (h : c ∉ name) (value : List Char) :
    splitFirst c (name ++ c :: value) = (name, some value) := by
  have hname : ∀ d ∈ name, (d != c) = true := fun d hd => bne_of_mem h hd
  unfold splitFirst
  rw [List.dropWhile_append_of_pos hname, List.takeWhile_append_of_pos hname,
    List.dropWhile_cons_of_neg (by simp), List.takeWhile_cons_of_neg (by simp), List.append_nil]

theorem splitFirst_of_not_mem {c : Char} {name : List Char} (h : c ∉ name) :
    splitFirst c name = (name, none) := by
  have hname : name.dropWhile (· != c) = [] :=
    List.dropWhile_eq_nil_iff.2 fun d hd => bne_of_mem h hd
  unfold splitFirst
  rw [hname]

theorem fst_splitFirst (c : Char) (cs : List Char) :
    (splitFirst c cs).1 = cs.takeWhile (· != c) := by
  unfold splitFirst
  split
  case h_1 hdrop =>
    have hsplit := @List.takeWhile_append_dropWhile _ (· != c) cs
    rw [hdrop, List.append_nil] at hsplit
    exact hsplit.symm
  case h_2 => rfl

theorem splitAt_of_not_mem {c : Char} {part : List Char} (h : c ∉ part) :
    splitAt c part = [part] := by
  induction part with
  | nil => rfl
  | cons d part ih =>
    rw [List.mem_cons, not_or] at h
    rw [splitAt, if_neg (Ne.symm h.1), ih h.2]

theorem splitAt_append {c : Char} {part : List Char} (h : c ∉ part) (rest : List Char) :
    splitAt c (part ++ c :: rest) = part :: splitAt c rest := by
  induction part with
  | nil => rw [List.nil_append, splitAt, if_pos rfl]
  | cons d part ih =>
    rw [List.mem_cons, not_or] at h
    rw [List.cons_append, splitAt, if_neg (Ne.symm h.1), ih h.2]

end CrashReports.Text
