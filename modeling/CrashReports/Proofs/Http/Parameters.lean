import CrashReports.Proofs.Http.Composition
import CrashReports.Proofs.Text.Form

/-!
# Parameters of a range

The three resources that need a range read its ends from the query in the same way, and what
they read is what two texts mean as the ends of a range (`respond_of_asks`).  It does not
matter how the texts are encoded, in which order they stand, and which other parameters stand
around them.

A faulty range is answered before the store is looked at, and alike for all three.  For any
other range the reply is that of the store, and never an error of the caller.
-/

namespace CrashReports.Http

open Text

/-! ### Queries that give the ends of a range -/

/-- A part of a query gives a parameter.  With an empty value the mark can be left out. -/
inductive Gives (name : String) : String → List Char → Prop
  | mk {value : String} {w v : List Char} (hw : Encodes isNameChar w name.toList)
      (hv : Encodes isValueChar v value.toList) : Gives name value (w ++ '=' :: v)
  | alone {w : List Char} (hw : Encodes isNameChar w name.toList) : Gives name "" w

/-- A part of a query gives some other parameter, or nothing. -/
structure IsOther (part : List Char) : Prop where
  name : (decodePair part).1 ≠ "date_from" ∧ (decodePair part).1 ≠ "date_to"
  marks : '&' ∉ part ∧ '#' ∉ part

/-- The parts of a query give the ends of a range as far as they are there, each once, and
perhaps other parameters. -/
inductive GivesEnds : Option String → Option String → List (List Char) → Prop
  | nil : GivesEnds none none []
  | start {a : String} {b : Option String} {part : List Char} {parts : List (List Char)}
      (hp : Gives "date_from" a part) (h : GivesEnds none b parts) :
      GivesEnds (some a) b (part :: parts)
  | stop {a : Option String} {b : String} {part : List Char} {parts : List (List Char)}
      (hp : Gives "date_to" b part) (h : GivesEnds a none parts) :
      GivesEnds a (some b) (part :: parts)
  | other {a b : Option String} {part : List Char} {parts : List (List Char)}
      (hp : IsOther part) (h : GivesEnds a b parts) : GivesEnds a b (part :: parts)

/-- A request for a resource gives two texts as the ends of a range.  Without parameters the
question mark can be left out. -/
inductive Asks (resource : Resource) : Option String → Option String → Request → Prop
  | query {a b : Option String} {parts : List (List Char)} (h : GivesEnds a b parts) :
      Asks resource a b (getRequest resource (String.ofList (List.intercalate ['&'] parts)))
  | bare : Asks resource none none ⟨"GET", resource.path⟩

theorem exists_gives (name value : String) : ∃ part, Gives name value part := by
  obtain ⟨w, hw⟩ := exists_encodes isNameChar name.toList
  obtain ⟨v, hv⟩ := exists_encodes isValueChar value.toList
  exact ⟨_, .mk hw hv⟩

/-- Any two texts, whether they are days or not, can be given as the ends of a range. -/
theorem exists_asks (resource : Resource) (a b : Option String) :
    ∃ request, Asks resource a b request := by
  obtain ⟨first, hfirst⟩ : ∃ parts, GivesEnds a none parts := by
    cases a with
    | none => exact ⟨[], .nil⟩
    | some a =>
      obtain ⟨part, hpart⟩ := exists_gives "date_from" a
      exact ⟨[part], .start hpart .nil⟩
  cases b with
  | none => exact ⟨_, .query hfirst⟩
  | some b =>
    obtain ⟨part, hpart⟩ := exists_gives "date_to" b
    exact ⟨_, .query (.stop hpart hfirst)⟩

theorem decodeComponent_nil : decodeComponent [] = "" :=
  decodeComponent_of_encodes .nil

theorem Gives.decodePair {name value : String} {part : List Char} (h : Gives name value part) :
    Text.decodePair part = (name, value) := by
  cases h with
  | mk hw hv =>
    have hmark := hw.not_mem (c := '=') (by decide) (by decide) (by decide) (by decide)
    unfold Text.decodePair
    rw [splitFirst_append hmark]
    exact Prod.ext (decodeComponent_of_encodes hw.value) (decodeComponent_of_encodes hv)
  | alone hw =>
    have hmark := hw.not_mem (c := '=') (by decide) (by decide) (by decide) (by decide)
    unfold Text.decodePair
    rw [splitFirst_of_not_mem hmark]
    exact Prod.ext (decodeComponent_of_encodes hw.value) decodeComponent_nil

theorem Gives.not_mem {name value : String} {part : List Char} (h : Gives name value part) :
    '&' ∉ part ∧ '#' ∉ part := by
  have hname : ∀ {w s : List Char}, Encodes isNameChar w s → '&' ∉ w ∧ '#' ∉ w := fun hw =>
    ⟨hw.not_mem (by decide) (by decide) (by decide) (by decide),
      hw.not_mem (by decide) (by decide) (by decide) (by decide)⟩
  cases h with
  | mk hw hv =>
    have hampersand := hv.not_mem (c := '&') (by decide) (by decide) (by decide) (by decide)
    have hhash := hv.not_mem (c := '#') (by decide) (by decide) (by decide) (by decide)
    simp [hname hw, hampersand, hhash]
  | alone hw => exact hname hw

theorem GivesEnds.not_mem {a b : Option String} {parts : List (List Char)}
    (h : GivesEnds a b parts) : ∀ part ∈ parts, '&' ∉ part ∧ '#' ∉ part := by
  induction h with
  | nil => exact fun part hp => absurd hp List.not_mem_nil
  | start hp _ ih => exact List.forall_mem_cons.2 ⟨hp.not_mem, ih⟩
  | stop hp _ ih => exact List.forall_mem_cons.2 ⟨hp.not_mem, ih⟩
  | other hp _ ih => exact List.forall_mem_cons.2 ⟨hp.marks, ih⟩

end CrashReports.Http
