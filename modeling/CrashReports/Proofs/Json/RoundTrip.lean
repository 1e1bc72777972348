import CrashReports.Json.Decode
import CrashReports.Proofs.Json.Scalar

/-!
# Written JSON is read again

The text of a value is read as that value, whatever follows that cannot go on with a number
(`readValue_write`), and a whole text is used up (`Parsed.ofText_render`).

The readers spend one step on a value, an item or a member.  A written text has a character for
each of them, so as many steps as there are characters are enough; the induction is on the
number of steps, and each reader is led back to the readers with one step less.
-/

namespace CrashReports.Json

open Text

mutual

/-- What is read from the text of a value. -/
def parsed : Json → Parsed
  | .null => .null
  | .bool b => .bool b
  | .integer i => .number (integerNumeral i)
  | .string s => .string (some s)
  | .array vs => .array (parsedItems vs) true
  | .object ms => .object (parsedMembers ms) true

/-- What is read from the items of an array. -/
def parsedItems : List Json → List Parsed
  | [] => []
  | v :: vs => parsed v :: parsedItems vs

/-- What is read from the members of an object. -/
def parsedMembers : List (String × Json) → List (Option String × Parsed)
  | [] => []
  | (k, v) :: ms => (some k, parsed v) :: parsedMembers ms

end

/-! ### First characters -/

/-- A character that a value can begin with: no blank, and no end of an array. -/
def BeginsValue (c : Char) : Prop :=
  isSpace c = false ∧ c ≠ ']'

theorem skipSpace_cons {c : Char} (h : isSpace c = false) (cs : List Char) :
    skipSpace (c :: cs) = c :: cs :=
  List.dropWhile_cons_of_neg (by simp [h])

theorem isSpace_of_number {c : Char} (h : c = '-' ∨ c.isDigit = true) : isSpace c = false := by
  obtain rfl | hdigit := h
  · decide
  · obtain ⟨hlow, hhigh⟩ := digit_bounds hdigit
    simp only [isSpace, Bool.or_eq_false_iff, beq_eq_false_iff_ne, ne_eq, ← Char.toNat_inj]
    refine ⟨⟨⟨?_, ?_⟩, ?_⟩, ?_⟩ <;> simp <;> omega

theorem exists_write_cons (v : Json) : ∃ c cs, write v = c :: cs ∧ BeginsValue c := by
  cases v with
  | null => exact ⟨_, _, rfl, by decide, by decide⟩
  | bool b => cases b <;> exact ⟨_, _, rfl, by decide, by decide⟩
  | integer i =>
    obtain ⟨c, cs, hcons, hc⟩ := exists_signed_cons i
    refine ⟨c, cs, hcons, isSpace_of_number hc, ?_⟩
    rintro rfl
    simp at hc
  | string s => exact ⟨_, _, rfl, by decide, by decide⟩
  | array vs => cases vs <;> exact ⟨_, _, rfl, by decide, by decide⟩
  | object ms => cases ms <;> exact ⟨_, _, rfl, by decide, by decide⟩

/-! ### Single steps of the readers -/

theorem readValue_integer (fuel : Nat) (i : Int) {rest : List Char} (h : EndsNumber rest) :
    readValue (fuel + 1) (signed i ++ rest) = (.number (integerNumeral i), some rest) := by
  have hread := readNumeral_signed i h
  obtain ⟨c, cs, hcons, hc⟩ := exists_signed_cons i
  have hne : ∀ d : Char, d ≠ '-' → d.isDigit = false → c ≠ d := by
    rintro d hminus hdigit rfl
    exact hc.elim hminus fun h => by simp [hdigit] at h
  rw [hcons, List.cons_append] at hread ⊢
  rw [readValue, skipSpace_cons (isSpace_of_number hc)]
  split
  case h_7 => rw [hread]
  -- no other kind of value begins with a sign or a digit
  all_goals
    rename_i heq
    exact absurd (List.cons.inj heq).1 (hne _ (by decide) (by decide))

theorem writeString_append (s : String) (rest : List Char) :
    writeString s ++ rest = '"' :: (s.toList.flatMap escapeChar ++ '"' :: rest) := by
  simp [writeString]

theorem readValue_string (fuel : Nat) (s : String) (rest : List Char) :
    readValue (fuel + 1) (writeString s ++ rest) = (.string (some s), some rest) := by
  simp [writeString_append, readValue, skipSpace, isSpace, readString_flatMap]

theorem readValue_array {fuel : Nat} {c : Char} {cs rest : List Char} {items : List Parsed}
    (hc : BeginsValue c) (h : readItems fuel (c :: cs) = (items, some rest)) :
    readValue (fuel + 1) ('[' :: c :: cs) = (.array items true, some rest) := by
  have hopen : skipSpace ('[' :: c :: cs) = '[' :: c :: cs := skipSpace_cons (by decide) _
  simp [readValue, hopen, skipSpace_cons hc.1, hc.2, h]

theorem readValue_object {fuel : Nat} {cs rest : List Char}
    {members : List (Option String × Parsed)}
    (h : readMembers fuel ('"' :: cs) = (members, some rest)) :
    readValue (fuel + 1) ('\x7b' :: '"' :: cs) = (.object members true, some rest) := by
  simp [readValue, skipSpace, isSpace, h]

theorem readItems_last {fuel : Nat} {cs rest : List Char} {v : Parsed}
    (h : readValue fuel cs = (v, some (']' :: rest))) :
    readItems (fuel + 1) cs = ([v], some rest) := by
  simp [readItems, h, skipSpace, isSpace]

theorem readItems_next {fuel : Nat} {cs after : List Char} {v : Parsed} {vs : List Parsed}
    {rest : Option (List Char)} (h : readValue fuel cs = (v, some (',' :: after)))
    (hvs : readItems fuel after = (vs, rest)) :
    readItems (fuel + 1) cs = (v :: vs, rest) := by
  simp [readItems, h, skipSpace, isSpace, hvs]

theorem readMembers_last {fuel : Nat} (k : String) {cs rest : List Char} {v : Parsed}
    (h : readValue fuel cs = (v, some ('\x7d' :: rest))) :
    readMembers (fuel + 1) (writeString k ++ ':' :: cs) = ([(some k, v)], some rest) := by
  simp [writeString_append, readMembers, skipSpace, isSpace, readString_flatMap, h]

theorem readMembers_next {fuel : Nat} (k : String) {cs after : List Char} {v : Parsed}
    {ms : List (Option String × Parsed)} {rest : Option (List Char)}
    (h : readValue fuel cs = (v, some (',' :: after)))
    (hms : readMembers fuel after = (ms, rest)) :
    readMembers (fuel + 1) (writeString k ++ ':' :: cs) = ((some k, v) :: ms, rest) := by
  simp [writeString_append, readMembers, skipSpace, isSpace, readString_flatMap, h, hms]

/-! ### All readers together -/

/-- In so many steps every value is read whose text is no longer. -/
def ReadsValues (fuel : Nat) : Prop :=
  ∀ (v : Json) (rest : List Char), (write v).length ≤ fuel → EndsNumber rest →
    readValue fuel (write v ++ rest) = (parsed v, some rest)

/-- In so many steps all items of an array are read if their text is no longer. -/
def ReadsItems (fuel : Nat) : Prop :=
  ∀ (v : Json) (vs : List Json) (rest : List Char), (write v ++ writeItems vs).length ≤ fuel →
    readItems fuel (write v ++ (writeItems vs ++ rest)) = (parsedItems (v :: vs), some rest)

/-- In so many steps all members of an object are read if their text is no longer. -/
def ReadsMembers (fuel : Nat) : Prop :=
  ∀ (k : String) (v : Json) (ms : List (String × Json)) (rest : List Char),
    (writeString k ++ ':' :: (write v ++ writeMembers ms)).length ≤ fuel →
    readMembers fuel (writeString k ++ ':' :: (write v ++ (writeMembers ms ++ rest))) =
      (parsedMembers ((k, v) :: ms), some rest)

theorem length_write_pos (v : Json) : 0 < (write v).length := by
  obtain ⟨c, cs, hcons, -⟩ := exists_write_cons v
  simp [hcons]

theorem endsNumber_cons {c : Char} (h : c.isDigit = false ∧ c ≠ '.' ∧ c ≠ 'e' ∧ c ≠ 'E')
    (rest : List Char) : EndsNumber (c :: rest) := by
  intro d hd
  cases hd
  exact h

variable {fuel : Nat}

theorem readsValues_zero : ReadsValues 0 := by
  intro v rest hlen
  have := length_write_pos v
  omega

theorem readsItems_zero : ReadsItems 0 := by
  intro v vs rest hlen
  have := length_write_pos v
  rw [List.length_append] at hlen
  omega

theorem readsMembers_zero : ReadsMembers 0 := by
  intro k v ms rest hlen
  simp [writeString] at hlen

theorem ReadsItems.succ (hvalues : ReadsValues fuel) (hitems : ReadsItems fuel) :
    ReadsItems (fuel + 1) := by
  intro v vs rest hlen
  have hpos := length_write_pos v
  cases vs with
  | nil =>
    simp only [writeItems, List.length_append, List.length_singleton] at hlen
    exact readItems_last (hvalues v (']' :: rest) (by omega) (endsNumber_cons (by decide) rest))
  | cons w ws =>
    simp only [writeItems, List.cons_append, List.append_assoc, List.length_append,
      List.length_cons] at hlen ⊢
    have hhead := hvalues v (',' :: (write w ++ (writeItems ws ++ rest))) (by omega)
      (endsNumber_cons (by decide) _)
    have htail := hitems w ws rest (by rw [List.length_append]; omega)
    exact readItems_next hhead htail

theorem ReadsMembers.succ (hvalues : ReadsValues fuel) (hmembers : ReadsMembers fuel) :
    ReadsMembers (fuel + 1) := by
  intro k v ms rest hlen
  have hpos := length_write_pos v
  cases ms with
  | nil =>
    simp only [writeMembers, List.length_append, List.length_cons, List.length_nil] at hlen
    exact readMembers_last k
      (hvalues v ('\x7d' :: rest) (by omega) (endsNumber_cons (by decide) rest))
  | cons m ms =>
    obtain ⟨l, w⟩ := m
    simp only [writeMembers, List.cons_append, List.append_assoc, List.length_append,
      List.length_cons] at hlen ⊢
    have hhead := hvalues v
      (',' :: (writeString l ++ ':' :: (write w ++ (writeMembers ms ++ rest)))) (by omega)
      (endsNumber_cons (by decide) _)
    have htail := hmembers l w ms rest (by
      simp only [List.length_append, List.length_cons]
      omega)
    exact readMembers_next k hhead htail

theorem ReadsValues.succ (hitems : ReadsItems fuel) (hmembers : ReadsMembers fuel) :
    ReadsValues (fuel + 1) := by
  intro v rest hlen hrest
  cases v with
  | null => rfl
  | bool b => cases b <;> rfl
  | integer i => exact readValue_integer fuel i hrest
  | string s => exact readValue_string fuel s rest
  | array vs =>
    cases vs with
    | nil => rfl
    | cons v vs =>
      simp only [write, List.cons_append, List.append_assoc, List.length_cons] at hlen ⊢
      obtain ⟨c, cs, hcons, hc⟩ := exists_write_cons v
      have hread := hitems v vs rest (by omega)
      rw [hcons, List.cons_append] at hread ⊢
      exact readValue_array hc hread
  | object ms =>
    cases ms with
    | nil => rfl
    | cons m ms =>
      obtain ⟨k, v⟩ := m
      simp only [write, List.cons_append, List.append_assoc, List.length_cons] at hlen ⊢
      have hread := hmembers k v ms rest (by omega)
      rw [writeString_append] at hread ⊢
      exact readValue_object hread

theorem reads_all (fuel : Nat) : ReadsValues fuel ∧ ReadsItems fuel ∧ ReadsMembers fuel := by
  induction fuel with
  | zero => exact ⟨readsValues_zero, readsItems_zero, readsMembers_zero⟩
  | succ fuel ih =>
    obtain ⟨hvalues, hitems, hmembers⟩ := ih
    exact ⟨.succ hitems hmembers, .succ hvalues hitems, .succ hvalues hmembers⟩

/-- The text of a value is read as that value, up to what follows it. -/
theorem readValue_write (v : Json) {fuel : Nat} {rest : List Char} (h : (write v).length ≤ fuel)
    (hrest : EndsNumber rest) : readValue fuel (write v ++ rest) = (parsed v, some rest) :=
  (reads_all fuel).1 v rest h hrest

/-- A written value is read from its text, and nothing is left. -/
theorem ofText_render (v : Json) : Parsed.ofText v.render = (parsed v, true) := by
  have hlen : v.write.length ≤ 2 * v.write.length + 2 := by omega
  have hread := readValue_write v hlen (show EndsNumber [] from nofun)
  rw [List.append_nil] at hread
  simp [Parsed.ofText, render, hread, skipSpace]

/-- A decoder that reads a value reads it from its text. -/
theorem decode_render {α : Type} {f : Decoder α} {v : Json} {x : α} (h : f (parsed v) = .ok x) :
    decode f v.render = .ok x := by
  simp [decode, ofText_render, h]

end CrashReports.Json
