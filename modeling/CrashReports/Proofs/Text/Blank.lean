import CrashReports.Text.Character
import Mathlib.Data.List.TakeWhile

/-!
# Blanks at the ends of a text

A text without the blanks at its ends is the one text that stands in it between blanks and
neither begins nor ends with a blank itself (`trimBlanks_eq_iff`).
-/

namespace CrashReports.Text

theorem exists_trimBlanks (cs : List Char) :
    ∃ before after, cs = before ++ (trimBlanks cs ++ after) ∧
      (∀ c ∈ before, isBlank c = true) ∧ ∀ c ∈ after, isBlank c = true := by
  refine ⟨cs.takeWhile isBlank, ((skipBlanks cs).reverse.takeWhile isBlank).reverse, ?_,
    fun c hc => List.mem_takeWhile_imp hc,
    fun c hc => List.mem_takeWhile_imp (List.mem_reverse.1 hc)⟩
  have hsplit := @List.takeWhile_append_dropWhile _ isBlank (skipBlanks cs).reverse
  unfold trimBlanks
  rw [← List.reverse_append]
  show cs = _ ++ ((skipBlanks cs).reverse.takeWhile isBlank ++
    (skipBlanks cs).reverse.dropWhile isBlank).reverse
  rw [hsplit, List.reverse_reverse]
  exact List.takeWhile_append_dropWhile.symm

/-- A text without the blanks at its end. -/
def trimEnd (cs : List Char) : List Char :=
  (skipBlanks cs.reverse).reverse

theorem exists_trimEnd (cs : List Char) :
    ∃ after, cs = trimEnd cs ++ after ∧ ∀ c ∈ after, isBlank c = true := by
  refine ⟨(cs.reverse.takeWhile isBlank).reverse, ?_,
    fun c hc => List.mem_takeWhile_imp (List.mem_reverse.1 hc)⟩
  have hsplit := @List.takeWhile_append_dropWhile _ isBlank cs.reverse
  show cs = (cs.reverse.dropWhile isBlank).reverse ++ (cs.reverse.takeWhile isBlank).reverse
  rw [← List.reverse_append, hsplit, List.reverse_reverse]

/-- What ends with something other than a blank is kept. -/
theorem trimEnd_append {d : Char} (hd : isBlank d = false) {text middle : List Char}
    (hlast : text = middle ++ [d]) (rest : List Char) :
    trimEnd (text ++ rest) = text ++ trimEnd rest := by
  have hreverse : text.reverse = d :: middle.reverse := by
    rw [hlast, List.reverse_append]
    rfl
  have hstop : text.reverse.dropWhile isBlank = text.reverse := by
    rw [hreverse]
    exact List.dropWhile_cons_of_neg (by simp [hd])
  unfold trimEnd
  rw [skipBlanks, skipBlanks, List.reverse_append, List.dropWhile_append, hstop]
  split
  case isTrue hnil =>
    rw [List.isEmpty_iff.1 hnil]
    simp
  case isFalse => simp

/-- What begins and ends with something other than a blank is kept. -/
theorem trimBlanks_append {c d : Char} (hc : isBlank c = false) (hd : isBlank d = false)
    {text middle middle' : List Char} (hfirst : text = c :: middle) (hlast : text = middle' ++ [d])
    (rest : List Char) : trimBlanks (text ++ rest) = text ++ trimEnd rest := by
  have hskip : skipBlanks (text ++ rest) = text ++ rest := by
    rw [hfirst, List.cons_append]
    exact skipBlanks_cons_of_not_isBlank hc _
  show trimEnd (skipBlanks (text ++ rest)) = _
  rw [hskip, trimEnd_append hd hlast]

theorem mem_head?_of_trimEnd {cs : List Char} {c : Char} (h : c ∈ (trimEnd cs).head?) :
    c ∈ cs.head? := by
  obtain ⟨after, hsplit, -⟩ := exists_trimEnd cs
  rw [hsplit, List.head?_append, Option.mem_def.1 h]
  rfl

theorem trimEnd_of_isBlank {cs : List Char} (h : ∀ c ∈ cs, isBlank c = true) : trimEnd cs = [] := by
  have hskip : cs.reverse.dropWhile isBlank = [] :=
    List.dropWhile_eq_nil_iff.2 fun c hc => h c (List.mem_reverse.1 hc)
  rw [trimEnd, skipBlanks, hskip, List.reverse_nil]

theorem isBlank_of_mem_head?_skipBlanks {cs : List Char} {c : Char}
    (h : c ∈ (skipBlanks cs).head?) : isBlank c = false := by
  have hfirst := List.head?_dropWhile_not isBlank cs
  rw [show (cs.dropWhile isBlank).head? = some c from h] at hfirst
  simpa using hfirst

/-- A text stands between blanks in another one, and neither begins nor ends with a blank. -/
structure Trims (cs trimmed : List Char) : Prop where
  split : ∃ before after, cs = before ++ (trimmed ++ after) ∧
    (∀ c ∈ before, isBlank c = true) ∧ ∀ c ∈ after, isBlank c = true
  head : ∀ c ∈ trimmed.head?, isBlank c = false
  last : ∀ c ∈ trimmed.getLast?, isBlank c = false

theorem trims_trimBlanks (cs : List Char) : Trims cs (trimBlanks cs) where
  split := exists_trimBlanks cs
  head := by
    intro c hc
    have htrim : trimBlanks cs = trimEnd (skipBlanks cs) := rfl
    rw [htrim] at hc
    exact isBlank_of_mem_head?_skipBlanks (mem_head?_of_trimEnd hc)
  last := by
    intro c hc
    rw [trimBlanks, List.getLast?_reverse] at hc
    exact isBlank_of_mem_head?_skipBlanks hc

/-- What is left without the blanks at the ends is determined by what it may not begin and
end with. -/
theorem trimBlanks_eq_iff {cs trimmed : List Char} :
    trimBlanks cs = trimmed ↔ Trims cs trimmed := by
  refine ⟨fun h => h ▸ trims_trimBlanks cs, fun h => ?_⟩
  obtain ⟨before, after, rfl, hbefore, hafter⟩ := h.split
  have hskip : trimBlanks (before ++ (trimmed ++ after)) = trimBlanks (trimmed ++ after) := by
    simp only [trimBlanks, skipBlanks, List.dropWhile_append_of_pos hbefore]
  rw [hskip]
  cases htrimmed : trimmed with
  | nil =>
    have hnil : skipBlanks after = [] := List.dropWhile_eq_nil_iff.2 hafter
    rw [List.nil_append, trimBlanks, hnil]
    rfl
  | cons c rest =>
    have hne : trimmed ≠ [] := by simp [htrimmed]
    have hfirst : isBlank c = false := h.head c (by simp [htrimmed])
    have hlast : isBlank (trimmed.getLast hne) = false :=
      h.last _ (List.getLast?_eq_some_getLast hne)
    have hconcat := (List.dropLast_concat_getLast hne).symm
    rw [← htrimmed, trimBlanks_append hfirst hlast htrimmed hconcat, trimEnd_of_isBlank hafter,
      List.append_nil]

theorem trimBlanks_eq_nil_iff {cs : List Char} :
    trimBlanks cs = [] ↔ ∀ c ∈ cs, isBlank c = true := by
  constructor
  · intro h
    obtain ⟨before, after, hsplit, hbefore, hafter⟩ := exists_trimBlanks cs
    rw [h, List.nil_append] at hsplit
    rw [hsplit]
    exact fun c hc => (List.mem_append.1 hc).elim (hbefore c) (hafter c)
  · intro h
    exact trimBlanks_eq_iff.2 ⟨⟨cs, [], by simp, h, by simp⟩, by simp, by simp⟩

/-- A text stands in another one with nothing but blanks around it. -/
def Frames (cs inner : List Char) : Prop :=
  ∃ before after, cs = before ++ (inner ++ after) ∧ (∀ c ∈ before, isBlank c = true) ∧
    ∀ c ∈ after, isBlank c = true

/-- Blanks around a text that neither begins nor ends with one are left out. -/
theorem Frames.trimBlanks_eq {cs inner : List Char} (h : Frames cs inner)
    (hinner : Trims inner inner) : trimBlanks cs = inner :=
  trimBlanks_eq_iff.2 ⟨h, hinner.head, hinner.last⟩

end CrashReports.Text
