import CrashReports.Proofs.Store.ShownTime

/-!
# The layouts of a shown time exclude each other

All layouts begin with a day, so they read the same day from a text and go on at the same
place.  What stands there decides between them: nothing is left after a day alone, a `T` leads
to the layouts with a letter, and blanks or a digit lead to those with a gap.  After the time of
day it is again what is left that decides: an offset is not read from nothing, and anything
that is left is an offset (`eq_of_read`).

So of the ways to read a text at most one succeeds, and the order in which they are tried does
not matter (`parse_unambiguous`).
-/

namespace CrashReports

/-! ### The first success of a search -/

/-- If of any two items at most one succeeds, the first success is the only one. -/
theorem findSome?_eq_some_iff_of_pairwise {α β : Type} {f : α → Option β} {xs : List α}
    (h : xs.Pairwise fun x y => f x = none ∨ f y = none) {b : β} :
    xs.findSome? f = some b ↔ ∃ x ∈ xs, f x = some b := by
  refine ⟨List.exists_of_findSome?_eq_some, ?_⟩
  rintro ⟨x, hx, hb⟩
  induction xs with
  | nil => cases hx
  | cons y ys ih =>
    obtain ⟨hy, hys⟩ := List.pairwise_cons.1 h
    rcases List.mem_cons.1 hx with rfl | hx
    · rw [List.findSome?_cons, hb]
    · have hnone : f y = none := (hy x hx).resolve_right (by simp [hb])
      rw [List.findSome?_cons, hnone]
      exact ih hys hx

/-- Then the order of the items does not matter. -/
theorem findSome?_eq_of_perm {α β : Type} {f : α → Option β} {xs ys : List α} (hperm : xs.Perm ys)
    (h : ys.Pairwise fun x y => f x = none ∨ f y = none) : xs.findSome? f = ys.findSome? f := by
  have h' : xs.Pairwise fun x y => f x = none ∨ f y = none :=
    (hperm.pairwise_iff Or.symm).2 h
  refine Option.ext fun b => ?_
  rw [findSome?_eq_some_iff_of_pairwise h', findSome?_eq_some_iff_of_pairwise h]
  simp only [hperm.mem_iff]

namespace Timestamp

open Text Store

/-! ### What a layout goes on with -/

section Tail

variable {zone : Layout} {q p : DateParts} {rest : List Char}

/-- A time of day that may follow blanks begins with a digit after them. -/
theorem exists_digit_of_readFrom_gap
    (h : Layout.readFrom (.gap :: (clock ++ zone)) q rest = .ok p) :
    ∃ c cs, skipBlanks rest = c :: cs ∧ c.isDigit = true := by
  obtain ⟨⟨q', cs⟩, hgap, hrest⟩ := bind_eq_ok_iff.1 h
  obtain ⟨-, rfl⟩ := Prod.mk.inj (Except.ok.inj hgap)
  obtain ⟨⟨q'', cs⟩, hhour, -⟩ := bind_eq_ok_iff.1 hrest
  obtain ⟨⟨n, after⟩, hnumber, -⟩ := bind_eq_ok_iff.1 hhour
  obtain ⟨⟨m, after⟩, hdigits, -⟩ := bind_eq_ok_iff.1 hnumber
  obtain ⟨digits, hnumber, -, -, hsplit⟩ := exists_of_readDigits hdigits
  obtain ⟨c, cs, rfl⟩ := List.exists_cons_of_ne_nil hnumber.ne_nil
  have hskip : skipBlanks (skipBlanks rest) = skipBlanks rest := List.dropWhile_idempotent _ _
  exact ⟨c, cs ++ after, hskip.symm.trans hsplit, hnumber.isDigit c List.mem_cons_self⟩

/-- A layout with a time goes on after the day, with a `T` exactly if it has one. -/
theorem head?_of_readFrom_lead {lead : LayoutItem} (hlead : lead = .gap ∨ lead = .mark 'T')
    (h : Layout.readFrom (lead :: (clock ++ zone)) q rest = .ok p) :
    rest ≠ [] ∧ (rest.head? = some 'T' ↔ lead = .mark 'T') := by
  rcases hlead with rfl | rfl
  · obtain ⟨c, cs, hskip, hc⟩ := exists_digit_of_readFrom_gap h
    have hne : rest ≠ [] := by
      rintro rfl
      cases hskip
    refine ⟨hne, iff_of_false ?_ (by simp)⟩
    intro hhead
    -- a letter is neither a blank nor a digit
    obtain ⟨cs', rfl⟩ := List.head?_eq_some_iff.1 hhead
    rw [skipBlanks_cons_of_not_isBlank (by decide)] at hskip
    rw [← (List.cons.inj hskip).1] at hc
    exact absurd hc (by decide)
  · obtain ⟨⟨q', cs⟩, hmark, -⟩ := bind_eq_ok_iff.1 h
    obtain ⟨-, rfl⟩ := of_read_mark hmark
    exact ⟨by simp, iff_of_true rfl rfl⟩

/-- After a time of day an offset is read exactly from what is left. -/
theorem eq_nil_iff_of_readFrom_zone (hzone : zone = [] ∨ zone = [.offset])
    (h : zone.readFrom q rest = .ok p) : rest = [] ↔ zone = [] := by
  rcases hzone with rfl | rfl
  · exact iff_of_true (of_readFrom_nil h).2 rfl
  · refine iff_of_false ?_ (by simp)
    rintro rfl
    cases h

end Tail

/-! ### One layout for each text -/

section Layouts

variable {lead lead' : LayoutItem} {zone zone' : Layout} {cs : List Char} {p p' : DateParts}

/-- A day that a time follows is not read as a day alone. -/
theorem read_plainDay_ne_ok (hlead : lead = .gap ∨ lead = .mark 'T')
    (h : (Layout.plainDay ++ lead :: (clock ++ zone)).read cs = .ok p) :
    Layout.plainDay.read cs ≠ .ok p' := by
  intro hplain
  rw [← List.append_nil Layout.plainDay] at hplain
  obtain ⟨q, rest, htail, hnil⟩ := Layout.exists_rest_of_readFrom h hplain
  exact (head?_of_readFrom_lead hlead htail).1 (of_readFrom_nil hnil).2

/-- What is left of a text after its day decides on what leads to the time. -/
theorem lead_eq_of_read (hlead : lead = .gap ∨ lead = .mark 'T')
    (hlead' : lead' = .gap ∨ lead' = .mark 'T')
    (h : (Layout.plainDay ++ lead :: (clock ++ zone)).read cs = .ok p)
    (h' : (Layout.plainDay ++ lead' :: (clock ++ zone')).read cs = .ok p') : lead = lead' := by
  obtain ⟨q, rest, htail, htail'⟩ := Layout.exists_rest_of_readFrom h h'
  have hiff : lead = .mark 'T' ↔ lead' = .mark 'T' :=
    (head?_of_readFrom_lead hlead htail).2.symm.trans (head?_of_readFrom_lead hlead' htail').2
  rcases hlead with rfl | rfl
  · exact (hlead'.resolve_right fun h => by cases hiff.2 h).symm
  · exact (hiff.1 rfl).symm

/-- What is left of a text after its time decides on whether there is an offset. -/
theorem zone_eq_of_read (hzone : zone = [] ∨ zone = [.offset])
    (hzone' : zone' = [] ∨ zone' = [.offset])
    (h : (Layout.plainDay ++ lead :: (clock ++ zone)).read cs = .ok p)
    (h' : (Layout.plainDay ++ lead :: (clock ++ zone')).read cs = .ok p') : zone = zone' := by
  have hsplit : ∀ zone, Layout.plainDay ++ lead :: (clock ++ zone) =
      Layout.plainDay ++ lead :: clock ++ zone := by
    intro zone
    rw [List.append_assoc, List.cons_append]
  rw [hsplit] at h h'
  obtain ⟨q, rest, hend, hend'⟩ := Layout.exists_rest_of_readFrom h h'
  have hiff : zone = [] ↔ zone' = [] :=
    (eq_nil_iff_of_readFrom_zone hzone hend).symm.trans (eq_nil_iff_of_readFrom_zone hzone' hend')
  rcases hzone with rfl | rfl
  · exact (hiff.1 rfl).symm
  · exact (hzone'.resolve_left fun h => by cases hiff.2 h).symm

/-- Two layouts that read the same text are the same. -/
theorem eq_of_read {layout layout' : Layout} (hl : layout ∈ layouts) (hl' : layout' ∈ layouts)
    (h : layout.read cs = .ok p) (h' : layout'.read cs = .ok p') : layout = layout' := by
  rcases exists_clock_of_mem hl with rfl | ⟨lead, zone, hlead, hzone, rfl⟩
  · rcases exists_clock_of_mem hl' with rfl | ⟨lead', zone', hlead', -, rfl⟩
    · rfl
    · exact absurd h (read_plainDay_ne_ok hlead' h')
  · rcases exists_clock_of_mem hl' with rfl | ⟨lead', zone', hlead', hzone', rfl⟩
    · exact absurd h' (read_plainDay_ne_ok hlead h)
    · obtain rfl := lead_eq_of_read hlead hlead' h h'
      obtain rfl := zone_eq_of_read hzone hzone' h h'
      rfl

end Layouts

/-! ### One way to read a text -/

/-- Each way to read a text is by a layout of its own. -/
theorem forall₂_readers_layouts (cs : List Char) :
    List.Forall₂ (fun read layout => ∀ t, read cs = some t → ∃ p, Layout.read layout cs = .ok p)
      readers layouts := by
  refine .cons ?_ (.cons ?_ (.cons ?_ (.cons ?_ (.cons ?_ .nil)))) <;> intro t h
  · exact (exists_of_readLocal h).imp fun _ hp => hp.1
  · exact (exists_of_readLocal h).imp fun _ hp => hp.1
  · exact (exists_of_readOffset h).imp fun _ hp => hp.1
  · exact (exists_of_readOffset h).imp fun _ hp => hp.1
  · exact (exists_of_readMidnight h).imp fun _ hp => hp.1

/-- Of two ways to read a text at most one succeeds. -/
theorem pairwise_readers (cs : List Char) :
    readers.Pairwise fun read read' => read cs = none ∨ read' cs = none := by
  have hlayouts : layouts.Pairwise fun layout layout' =>
      ∀ p p', layout.read cs = .ok p → layout'.read cs ≠ .ok p' := by
    have hnodup : layouts.Nodup := by decide
    refine hnodup.pairwise_of_forall_ne fun layout hl layout' hl' hne p p' h h' => hne ?_
    exact eq_of_read hl hl' h h'
  refine pairwise_of_forall₂ (forall₂_readers_layouts cs) hlayouts ?_
  intro read layout read' layout' hread hread' hexclude
  rw [or_iff_not_imp_left]
  intro hsome
  obtain ⟨t, ht⟩ := Option.ne_none_iff_exists'.1 hsome
  obtain ⟨p, hp⟩ := hread t ht
  refine Option.eq_none_iff_forall_ne_some.2 fun t' ht' => ?_
  obtain ⟨p', hp'⟩ := hread' t' ht'
  exact hexclude p p' hp hp'

/-- A text is shown as a time exactly if some way to read it gives that time. -/
theorem parse_eq_some_iff {text : String} {t : DateTime} :
    parse text = some t ↔ ∃ read ∈ readers, read (trimBlanks text.toList) = some t :=
  findSome?_eq_some_iff_of_pairwise (pairwise_readers _)

/-- At most one of the layouts reads a text without the blanks at its ends, so the result does
not depend on the order in which they are tried. -/
theorem parse_unambiguous (text : String) :
    (readers.Pairwise fun read read' =>
      read (trimBlanks text.toList) = none ∨ read' (trimBlanks text.toList) = none) ∧
    ∀ order : List (List Char → Option DateTime), order.Perm readers →
      (order.findSome? fun read => read (trimBlanks text.toList)) = parse text :=
  ⟨pairwise_readers _, fun _ horder => findSome?_eq_of_perm horder (pairwise_readers _)⟩

/-- A time with an offset is also found when the layouts are tried from the last to the first. -/
theorem parse_unambiguous_reversed :
    readers.reverse.Perm readers ∧
      (readers.reverse.findSome? fun read =>
        read (trimBlanks " 2024-05-01T08:00:00+02:00".toList)) =
          some ⟨⟨2024, 5, 1, by decide⟩, ⟨8, 0, 0, 0, by decide, by decide, by decide,
            by decide⟩⟩ :=
  ⟨List.reverse_perm _,
    ((parse_unambiguous _).2 _ (List.reverse_perm _)).trans (by decide +kernel)⟩

end Timestamp

end CrashReports
