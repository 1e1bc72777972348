import CrashReports.Proofs.Toml.Scalar

/-!
# Documents of simple statements

The grammar of documents whose statements are headers and pairs of one name each, with a string
or a decimal integer as the value of a pair (`IsDocument`).  Blanks may stand around every token,
and between two statements there may be any number of lines with nothing but blanks or a
comment.  A document is read as the statements it is made of (`readDocument_of_isDocument`).
-/

namespace CrashReports.Toml

open Text

/-! ### Blanks, line ends and comments -/

/-- The end of a line. -/
inductive IsLineEnd : List Char → Prop
  | feed : IsLineEnd ['\n']
  | returnFeed : IsLineEnd ['\r', '\n']

/-- Blanks inside a line. -/
def IsSpaces (cs : List Char) : Prop :=
  ∀ c ∈ cs, isSpace c = true

/-- The rest of a line that holds no more data. -/
inductive IsLineRest : List Char → Prop
  | bare {s e : List Char} (hs : IsSpaces s) (he : IsLineEnd e) : IsLineRest (s ++ e)
  | comment {s text e : List Char} (hs : IsSpaces s) (ht : ∀ c ∈ text, isPlain c = true)
      (he : IsLineEnd e) : IsLineRest (s ++ '#' :: (text ++ e))

/-- Lines without data, and the blanks after them. -/
inductive IsGap : List Char → Prop
  | spaces {s : List Char} (hs : IsSpaces s) : IsGap s
  | line {l g : List Char} (hl : IsLineRest l) (h : IsGap g) : IsGap (l ++ g)

theorem isSpaces_nil : IsSpaces [] :=
  fun _ hc => absurd hc List.not_mem_nil

theorem isSpaces_one : IsSpaces [' '] := by
  simp [IsSpaces, isSpace]

theorem skipGap_spaces {s : List Char} (hs : IsSpaces s) (rest : List Char) :
    skipGap false (s ++ rest) = skipGap false rest := by
  induction s with
  | nil => rfl
  | cons c s ih =>
    obtain ⟨hc, hs⟩ := List.forall_mem_cons.1 hs
    simp [skipGap, hc, ih hs]

theorem skipGap_lineEnd {e : List Char} (he : IsLineEnd e) (inComment : Bool)
    (rest : List Char) : skipGap inComment (e ++ rest) = skipGap false rest := by
  cases he <;> simp [skipGap, isPlain, isSpace, beginsLineEnd]

theorem skipGap_comment {text : List Char} (ht : ∀ c ∈ text, isPlain c = true)
    (rest : List Char) : skipGap true (text ++ rest) = skipGap true rest := by
  induction text with
  | nil => rfl
  | cons c text ih =>
    obtain ⟨hc, ht⟩ := List.forall_mem_cons.1 ht
    simp [skipGap, hc, ih ht]

theorem skipGap_lineRest {l : List Char} (hl : IsLineRest l) (rest : List Char) :
    skipGap false (l ++ rest) = skipGap false rest := by
  cases hl with
  | bare hs he => rw [List.append_assoc, skipGap_spaces hs, skipGap_lineEnd he]
  | comment hs ht he =>
    have hmark : ∀ cs, skipGap false ('#' :: cs) = skipGap true cs := by
      simp [skipGap, isSpace, beginsLineEnd]
    rw [List.append_assoc, skipGap_spaces hs, List.cons_append, hmark, List.append_assoc,
      skipGap_comment ht, skipGap_lineEnd he]

theorem skipGap_gap {g : List Char} (hg : IsGap g) (rest : List Char) :
    skipGap false (g ++ rest) = skipGap false rest := by
  induction hg with
  | spaces hs => exact skipGap_spaces hs rest
  | line hl _ ih => rw [List.append_assoc, skipGap_lineRest hl, ih]

theorem skipSpace_append {s rest : List Char} (hs : IsSpaces s)
    (hrest : ∀ c ∈ rest.head?, isSpace c = false) : skipSpace (s ++ rest) = rest :=
  dropWhile_append_of_head hs hrest

theorem IsLineEnd.head?_eq {e rest : List Char} (he : IsLineEnd e) {c : Char}
    (hc : c ∈ (e ++ rest).head?) : c = '\n' ∨ c = '\r' := by
  cases he with
  | feed => exact .inl (by simpa using hc.symm)
  | returnFeed => exact .inr (by simpa using hc.symm)

/-- A line end is neither a blank nor a part of a comment. -/
theorem IsLineEnd.stops {e rest : List Char} (he : IsLineEnd e) {c : Char}
    (hc : c ∈ (e ++ rest).head?) : isSpace c = false ∧ isPlain c = false := by
  obtain rfl | rfl := he.head?_eq hc <;> decide

theorem endLine?_eq_some {cs e rest : List Char} (he : IsLineEnd e)
    (h : skipComment (skipSpace cs) = e ++ rest) : endLine? cs = some rest := by
  unfold endLine?
  rw [h]
  cases he <;> rfl

theorem endLine?_lineRest {l : List Char} (hl : IsLineRest l) (rest : List Char) :
    endLine? (l ++ rest) = some rest := by
  cases hl with
  | bare hs he =>
    refine endLine?_eq_some he ?_
    rw [List.append_assoc, skipSpace_append hs fun c hc => (he.stops hc).1]
    cases he <;> rfl
  | @comment s text e hs ht he =>
    refine endLine?_eq_some he ?_
    rw [List.append_assoc, List.cons_append, List.append_assoc,
      skipSpace_append hs (by simp [isSpace])]
    exact dropWhile_append_of_head ht fun c hc => (he.stops hc).2

/-- A value ends where the rest of its line begins. -/
theorem IsLineRest.endsAtom {l : List Char} (hl : IsLineRest l) (rest : List Char) :
    EndsAtom (l ++ rest) := by
  have hspace : ∀ {s cs : List Char}, IsSpaces s → EndsAtom cs → EndsAtom (s ++ cs) := by
    intro s cs hs hcs c hc
    cases s with
    | nil => exact hcs c hc
    | cons d s =>
      obtain rfl : d = c := by simpa using hc
      have hd : d = ' ' ∨ d = '\t' := by simpa [isSpace] using hs d List.mem_cons_self
      obtain rfl | rfl := hd <;> decide
  cases hl with
  | bare hs he =>
    rw [List.append_assoc]
    refine hspace hs fun c hc => ?_
    obtain rfl | rfl := he.head?_eq hc <;> decide
  | comment hs _ _ =>
    rw [List.append_assoc]
    refine hspace hs fun c hc => ?_
    obtain rfl : '#' = c := by simpa using hc
    decide

/-! ### Keys and values -/

/-- A name that can be written without quotes. -/
structure IsBareKey (name : String) : Prop where
  ne_nil : name.toList ≠ []
  bare : ∀ c ∈ name.toList, isBareKeyChar c = true

instance (name : String) : Decidable (IsBareKey name) :=
  decidable_of_iff (name.toList ≠ [] ∧ name.toList.all isBareKeyChar = true)
    ⟨fun h => ⟨h.1, List.all_eq_true.1 h.2⟩, fun h => ⟨h.ne_nil, List.all_eq_true.2 h.bare⟩⟩

/-- A character of a name is none of the signs that stand around it. -/
theorem ne_of_isBareKeyChar {c d : Char} (hc : isBareKeyChar c = true)
    (hd : isBareKeyChar d = false) : c ≠ d := by
  rintro rfl
  rw [hc] at hd
  cases hd

theorem isSpace_of_isBareKeyChar {c : Char} (hc : isBareKeyChar c = true) : isSpace c = false := by
  have hblank := ne_of_isBareKeyChar hc (d := ' ') (by decide)
  have htab := ne_of_isBareKeyChar hc (d := '\t') (by decide)
  simp [isSpace, hblank, htab]

theorem isBareKeyChar_of_isSpace {c : Char} (hc : isSpace c = true) : isBareKeyChar c = false := by
  by_contra hbare
  rw [isSpace_of_isBareKeyChar (by simpa using hbare)] at hc
  cases hc

theorem readKey_bare {name : String} (hk : IsBareKey name) {rest : List Char}
    (hrest : ∀ c ∈ rest.head?, isBareKeyChar c = false) :
    readKey (name.toList ++ rest) = some (name, rest) := by
  obtain ⟨c, cs, hcons⟩ := List.exists_cons_of_ne_nil hk.ne_nil
  have hc : isBareKeyChar c = true := hk.bare c (hcons ▸ List.mem_cons_self)
  have hdouble := ne_of_isBareKeyChar hc (d := '"') (by decide)
  have hsingle := ne_of_isBareKeyChar hc (d := '\x27') (by decide)
  have hquote : readLineText (name.toList ++ rest) = none := by
    simp [hcons, readLineText, hdouble, hsingle]
  have hname : String.ofList (c :: cs) = name := by rw [← hcons, String.ofList_toList]
  unfold readKey
  rw [hquote, takeWhile_append_of_head hk.bare hrest, dropWhile_append_of_head hk.bare hrest, hcons]
  simp [hname]

/-- A name is read up to the sign after it, with the blanks on both sides. -/
theorem readDottedKey_bare {name : String} (hk : IsBareKey name) {s s' : List Char}
    (hs : IsSpaces s) (hs' : IsSpaces s') {c : Char} (hbare : isBareKeyChar c = false)
    (hspace : isSpace c = false) (hdot : c ≠ '.') (rest : List Char) :
    readDottedKey (s ++ (name.toList ++ (s' ++ c :: rest))) = some (⟨[], name⟩, c :: rest) := by
  have hopen : skipSpace (s ++ (name.toList ++ (s' ++ c :: rest))) =
      name.toList ++ (s' ++ c :: rest) := by
    obtain ⟨d, ds, hcons⟩ := List.exists_cons_of_ne_nil hk.ne_nil
    have hd : isBareKeyChar d = true := hk.bare d (hcons ▸ List.mem_cons_self)
    refine skipSpace_append hs ?_
    simp [hcons, isSpace_of_isBareKeyChar hd]
  have hclose : skipSpace (s' ++ c :: rest) = c :: rest := skipSpace_append hs' (by simp [hspace])
  have hstop : ∀ e ∈ (s' ++ c :: rest).head?, isBareKeyChar e = false := by
    intro e he
    cases s' with
    | nil =>
      obtain rfl : c = e := by simpa using he
      exact hbare
    | cons f s' =>
      obtain rfl : f = e := by simpa using he
      exact isBareKeyChar_of_isSpace (hs' f List.mem_cons_self)
  unfold readDottedKey deepest readPath
  rw [hopen, readKey_bare hk hstop]
  simp only [Option.bind_eq_bind, Option.bind_some, hclose]
  split
  case h_1 heq => exact absurd (List.cons.inj heq).1 hdot
  case h_2 => rfl

/-- The written forms of a value. -/
inductive WritesValue : Value → List Char → Prop
  | string {s : String} {w : List Char} (h : SpellsText s.toList w) :
      WritesValue (.string s) ('"' :: w ++ ['"'])
  | integer (i : Int) : WritesValue (.integer i) (signed i)

theorem WritesValue.exists_cons {v : Value} {w : List Char} (h : WritesValue v w) :
    ∃ c cs, w = c :: cs ∧ isSpace c = false ∧ c ≠ '[' ∧ c ≠ '\x7b' := by
  cases h with
  | string _ => exact ⟨_, _, rfl, by decide, by decide, by decide⟩
  | integer i =>
    obtain ⟨c, cs, hcons, hne⟩ := exists_signed_cons_ne i
    have hblank := hne ' ' (by decide) (by decide)
    have htab := hne '\t' (by decide) (by decide)
    exact ⟨c, cs, hcons, by simp [isSpace, hblank, htab], hne _ (by decide) (by decide),
      hne _ (by decide) (by decide)⟩

theorem readScalar_writes {v : Value} {w rest : List Char} (h : WritesValue v w)
    (hrest : EndsAtom rest) : readScalar (w ++ rest) = some (v, rest) := by
  unfold readScalar
  cases h with
  | @string s w h =>
    have hquote : '"' ∉ rest.head? := fun hc => absurd (hrest _ hc) (by decide)
    have hread := readText_quoted h hquote
    rw [List.append_assoc, List.singleton_append, hread]
    simp
  | integer i =>
    obtain ⟨c, cs, hcons, hne⟩ := exists_signed_cons_ne i
    have hread : readText (signed i ++ rest) = none := by
      simp [hcons, readText, readLineText, hne '"' (by decide) (by decide),
        hne '\x27' (by decide) (by decide)]
    rw [hread]
    dsimp only
    rw [spanAtom_signed i hrest]
    simp [atom?_signed]

theorem readValue_writes {v : Value} {w rest : List Char} (h : WritesValue v w)
    (hrest : EndsAtom rest) (depth : Nat) : readValue depth (w ++ rest) = some (v, rest) := by
  have hscalar := readScalar_writes h hrest
  cases depth with
  | zero => exact hscalar
  | succ depth =>
    obtain ⟨c, cs, rfl, -, hbracket, hbrace⟩ := h.exists_cons
    rw [List.cons_append] at hscalar ⊢
    rw [readValue.eq_4 _ _ (fun _ heq => hbracket (List.cons.inj heq).1) fun _ heq =>
      hbrace (List.cons.inj heq).1]
    exact hscalar

/-! ### Statements -/

/-- The written forms of a statement with one name. -/
inductive Writes : Statement → List Char → Prop
  | header {name : String} {s s' : List Char} (hk : IsBareKey name) (hs : IsSpaces s)
      (hs' : IsSpaces s') :
      Writes (.table ⟨[], name⟩) ('[' :: (s ++ (name.toList ++ (s' ++ [']']))))
  | pair {key : String} {s s' w : List Char} {v : Value} (hk : IsBareKey key) (hs : IsSpaces s)
      (hs' : IsSpaces s') (hv : WritesValue v w) :
      Writes (.pair ⟨[], key⟩ v) (key.toList ++ (s ++ '=' :: (s' ++ w)))

/-- A header in double brackets is not taken for anything else. -/
theorem ne_bracket_of_readDottedKey {cs : List Char} {r : Path × List Char}
    (h : readDottedKey cs = some r) (ds : List Char) : cs ≠ '[' :: ds := by
  rintro rfl
  have hkey : readKey (skipSpace ('[' :: ds)) = none := rfl
  unfold readDottedKey deepest readPath at h
  simp [hkey] at h

theorem readStatement_writes {st : Statement} {w rest : List Char} (h : Writes st w)
    (hrest : EndsAtom rest) : readStatement (w ++ rest) = some (st, rest) := by
  cases h with
  | @header name s s' hk hs hs' =>
    have hread := readDottedKey_bare hk hs hs' (c := ']') (by decide) (by decide) (by decide) rest
    simp only [List.cons_append, List.append_assoc, List.nil_append]
    rw [readStatement.eq_2 _ fun cs heq => ne_bracket_of_readDottedKey hread cs heq]
    simp [hread]
  | @pair key s s' w v hk hs hs' hv =>
    have hread := readDottedKey_bare hk isSpaces_nil hs (c := '=') (by decide) (by decide)
      (by decide) (s' ++ (w ++ rest))
    rw [List.nil_append] at hread
    have hvalue := readValue_writes hv hrest deepest
    obtain ⟨c, cs, hcons, hspace, -⟩ := hv.exists_cons
    have hskip : skipSpace (s' ++ (w ++ rest)) = w ++ rest :=
      skipSpace_append hs' (by simp [hcons, hspace])
    have hsign : skipSpace ('=' :: (s' ++ (w ++ rest))) = '=' :: (s' ++ (w ++ rest)) := rfl
    have hpair : readPair skipSpace (readValue deepest)
        (key.toList ++ (s ++ '=' :: (s' ++ (w ++ rest)))) = some ((⟨[], key⟩, v), rest) := by
      unfold readPair
      simp [hread, hsign, hskip, hvalue]
    simp only [List.cons_append, List.append_assoc]
    rw [readStatement.eq_3 _ (fun cs heq => ne_bracket_of_readDottedKey hread _ heq) fun cs heq =>
      ne_bracket_of_readDottedKey hread _ heq]
    simp [hpair]

/-! ### Documents -/

/-- The texts that hold the given statements, one a line. -/
inductive IsDocument : List Statement → List Char → Prop
  | nil {g : List Char} (hg : IsGap g) : IsDocument [] g
  | cons {st : Statement} {sts : List Statement} {g w l cs : List Char} (hg : IsGap g)
      (hw : Writes st w) (hl : IsLineRest l) (h : IsDocument sts cs) :
      IsDocument (st :: sts) (g ++ (w ++ (l ++ cs)))

theorem Writes.exists_cons {st : Statement} {w : List Char} (h : Writes st w) :
    ∃ c cs, w = c :: cs ∧ ∀ d : Char, d ≠ '[' → isBareKeyChar d = false → c ≠ d := by
  cases h with
  | header _ _ _ => exact ⟨_, _, rfl, fun _ hd _ => hd.symm⟩
  | @pair key _ _ _ _ hk _ _ _ =>
    obtain ⟨c, cs, hcons⟩ := List.exists_cons_of_ne_nil hk.ne_nil
    refine ⟨c, _, by rw [hcons]; rfl, fun _ _ => ne_of_isBareKeyChar ?_⟩
    exact hk.bare c (hcons ▸ List.mem_cons_self)

theorem skipGap_writes {st : Statement} {w : List Char} (h : Writes st w) (rest : List Char) :
    skipGap false (w ++ rest) = w ++ rest := by
  obtain ⟨c, cs, rfl, hne⟩ := h.exists_cons
  have hblank := hne ' ' (by decide) (by decide)
  have htab := hne '\t' (by decide) (by decide)
  have hfeed := hne '\n' (by decide) (by decide)
  have hreturn := hne '\r' (by decide) (by decide)
  have hmark := hne '#' (by decide) (by decide)
  simp [skipGap, isSpace, beginsLineEnd, hblank, htab, hfeed, hreturn, hmark]

theorem IsDocument.readStatements {sts : List Statement} {cs : List Char}
    (h : IsDocument sts cs) {fuel : Nat} (hfuel : sts.length < fuel) :
    readStatements fuel cs = some sts := by
  induction h generalizing fuel with
  | @nil g hg =>
    obtain ⟨fuel, rfl⟩ := Nat.exists_eq_add_one_of_ne_zero (Nat.ne_zero_of_lt hfuel)
    have hskip := skipGap_gap hg []
    rw [List.append_nil] at hskip
    rw [Toml.readStatements, hskip]
    rfl
  | @cons st sts g w l cs hg hw hl _ ih =>
    obtain ⟨fuel, rfl⟩ := Nat.exists_eq_add_one_of_ne_zero (Nat.ne_zero_of_lt hfuel)
    have hstatement := readStatement_writes hw (hl.endsAtom cs)
    have hrest := ih (Nat.lt_of_succ_lt_succ hfuel)
    rw [Toml.readStatements, skipGap_gap hg, skipGap_writes hw]
    split
    case h_1 heq =>
      obtain ⟨c, cs, rfl, -⟩ := hw.exists_cons
      cases heq
    case h_2 => simp [hstatement, endLine?_lineRest hl, hrest]

theorem IsDocument.length_le {sts : List Statement} {cs : List Char} (h : IsDocument sts cs) :
    sts.length ≤ cs.length := by
  induction h with
  | nil _ => exact Nat.zero_le _
  | cons _ hw _ _ ih =>
    obtain ⟨c, ds, rfl, -⟩ := hw.exists_cons
    simp only [List.length_cons, List.length_append]
    omega

/-- A document does not begin with a byte order mark: nothing that may stand at its beginning
does. -/
theorem IsDocument.skipMark_eq {sts : List Statement} {cs : List Char} (h : IsDocument sts cs) :
    skipMark cs = cs := by
  unfold skipMark
  split
  case h_2 => rfl
  case h_1 ds =>
    exfalso
    have hskip : skipGap false ('\uFEFF' :: ds) = '\uFEFF' :: ds := by
      simp [skipGap, isSpace, beginsLineEnd]
    generalize hcs : '\uFEFF' :: ds = cs at h hskip
    cases h with
    | nil hg =>
      have hgap := skipGap_gap hg []
      rw [List.append_nil, hskip, ← hcs] at hgap
      cases hgap
    | cons hg hw _ _ =>
      obtain ⟨c, ws, rfl, hne⟩ := hw.exists_cons
      rw [skipGap_gap hg, skipGap_writes hw, ← hcs] at hskip
      exact hne '\uFEFF' (by decide) (by decide) (List.cons.inj hskip).1

/-- A document is read as the tables that its statements make. -/
theorem readDocument_of_isDocument {sts : List Statement} {text : String}
    (h : IsDocument sts text.toList) : readDocument text = Table.ofStatements sts := by
  have hread := h.readStatements (Nat.lt_succ_of_le h.length_le)
  unfold readDocument
  rw [h.skipMark_eq]
  simp [hread]

end CrashReports.Toml
