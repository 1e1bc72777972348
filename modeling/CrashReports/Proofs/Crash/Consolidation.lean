import CrashReports.Crash.Query
import CrashReports.Proofs.Crash.Transcript
import CrashReports.Proofs.Outcome

/-!
# What the transcripts say about their events

The transcripts of a list of events in terms of the list itself (`IsConsolidationOf`): which
containers they have and in which order, and for each container the name and the text, however
its events are mixed with those of others.  Looking up a container in a report finds its
transcript if it has events, and nothing otherwise.

The transcript of a container need not be searched for at every event: a map of the slots in which
the transcripts stand can be kept beside them (`Ledger`).  The map stays in step, so no event looks
into a slot without a transcript, and the transcripts are the same (`watchEvents_eq_ok`).
-/

namespace CrashReports.Transcript

/-- The log of a container: all its fragments in the order of its events, with a blank line
between two of them. -/
def logOf (es : List Event) (id : String) : String :=
  String.intercalate "\n\n" ((es.filter fun e => decide (e.containerId = id)).map Event.logText)

/-- What the transcripts of a list of events must be. -/
structure IsConsolidationOf (ts : List Transcript) (es : List Event) : Prop where
  /-- One transcript for each container, in the order in which they first occur. -/
  ids : ts.map Transcript.containerId = (es.map Event.containerId).eraseDups
  nodup : (ts.map Transcript.containerId).Nodup
  /-- A container has the name of its first event. -/
  name : ∀ t ∈ ts, (es.find? fun e => decide (e.containerId = t.containerId)).map
    Event.containerName = some t.containerName
  logText : ∀ t ∈ ts, t.logText = logOf es t.containerId
  transcript?_eq_none_iff : ∀ series id,
    (⟨ts, series⟩ : Report).transcript? id = none ↔ ∀ e ∈ es, e.containerId ≠ id
  transcript?_eq_some_iff : ∀ series id t,
    (⟨ts, series⟩ : Report).transcript? id = some t ↔ t ∈ ts ∧ t.containerId = id

variable (es : List Event)

theorem exists_of_mem_consolidate {t : Transcript} (h : t ∈ consolidate es) :
    ∃ e ∈ es, e.containerId = t.containerId ∧
      t = ofEvents t.containerId (es.filter fun e => decide (e.containerId = t.containerId)) := by
  rw [consolidate_eq, List.mem_map] at h
  obtain ⟨id, hid, rfl⟩ := h
  obtain ⟨e, he, rfl⟩ := List.mem_map.1 (List.mem_eraseDups.1 hid)
  exact ⟨e, he, rfl, rfl⟩

theorem map_containerId_consolidate :
    (consolidate es).map Transcript.containerId = (es.map Event.containerId).eraseDups := by
  rw [consolidate_eq, List.map_map]
  exact List.map_id _

theorem containerName_of_mem_consolidate {t : Transcript} (h : t ∈ consolidate es) :
    (es.find? fun e => decide (e.containerId = t.containerId)).map Event.containerName =
      some t.containerName := by
  obtain ⟨e, he, hid, ht⟩ := exists_of_mem_consolidate es h
  obtain ⟨first, hfirst⟩ : ∃ e', (es.find? fun e => decide (e.containerId = t.containerId)) =
      some e' := by
    rw [← Option.isSome_iff_exists, List.find?_isSome]
    exact ⟨e, he, decide_eq_true hid⟩
  have hname : t.containerName = ((es.filter fun e =>
      decide (e.containerId = t.containerId)).head?.map Event.containerName).getD "" :=
    congrArg Transcript.containerName ht
  rw [hname, List.head?_filter, hfirst]
  rfl

/-- A transcript that is looked up is the one of that container. -/
theorem find?_eq_some_iff {ts : List Transcript} (h : (ts.map Transcript.containerId).Nodup)
    {id : String} {t : Transcript} : find? ts id = some t ↔ t ∈ ts ∧ t.containerId = id :=
  Gather.find?_eq_some_iff_of_nodup h fun _ => beq_iff_eq

theorem find?_consolidate_eq_none_iff {id : String} :
    find? (consolidate es) id = none ↔ ∀ e ∈ es, e.containerId ≠ id := by
  rw [← Option.not_isSome_iff_eq_none, isSome_find?_consolidate]
  simp

/-- The transcripts of a list of events are its consolidation. -/
theorem isConsolidationOf_consolidate : IsConsolidationOf (consolidate es) es where
  ids := map_containerId_consolidate es
  nodup := nodup_containerId_consolidate es
  name _ h := containerName_of_mem_consolidate es h
  logText t h := by
    obtain ⟨-, -, -, ht⟩ := exists_of_mem_consolidate es h
    exact congrArg Transcript.logText ht
  transcript?_eq_none_iff _ _ := find?_consolidate_eq_none_iff es
  transcript?_eq_some_iff _ _ _ := find?_eq_some_iff (nodup_containerId_consolidate es)

/-! ### The map of slots -/

/-- The place of the transcript of a container. -/
def slot? (ts : List Transcript) (id : String) : Option Nat :=
  (ts.map Transcript.containerId).findIdx? fun other => other == id

section Absorb

variable {ts : List Transcript} {e : Event}

theorem slot?_eq_none_iff {id : String} :
    slot? ts id = none ↔ id ∉ ts.map Transcript.containerId := by
  simp [slot?, List.findIdx?_eq_none_iff]

theorem slot?_cons (t : Transcript) (ts : List Transcript) (id : String) :
    slot? (t :: ts) id = if t.containerId = id then some 0 else (slot? ts id).map (· + 1) := by
  simp [slot?, List.findIdx?_cons]

/-- An event is added to the transcript in the slot of its container. -/
theorem absorb_eq_set {slot : Nat} (h : slot? ts e.containerId = some slot) :
    ∃ t, ts[slot]? = some t ∧ absorb e ts = ts.set slot (t.append e.logText) := by
  induction ts generalizing slot with
  | nil => cases h
  | cons t ts ih =>
    rw [slot?_cons] at h
    unfold absorb
    split at h
    case isTrue hid =>
      obtain rfl := Option.some.inj h
      exact ⟨t, rfl, if_pos hid⟩
    case isFalse hid =>
      obtain ⟨slot', hslot, rfl⟩ := Option.map_eq_some_iff.1 h
      obtain ⟨u, hu, habsorb⟩ := ih hslot
      refine ⟨u, hu, ?_⟩
      rw [if_neg hid, habsorb]
      rfl

/-- Without such a slot it starts a transcript at the end. -/
theorem absorb_eq_append (h : slot? ts e.containerId = none) :
    absorb e ts = ts ++ [ofEvent e] := by
  induction ts with
  | nil => rfl
  | cons t ts ih =>
    rw [slot?_cons] at h
    unfold absorb
    split at h
    case isTrue => cases h
    case isFalse hid =>
      rw [if_neg hid, ih (Option.map_eq_none_iff.1 h)]
      rfl

/-- A container that has a slot keeps it, and so do all others. -/
theorem slot?_absorb_of_some {slot : Nat} (h : slot? ts e.containerId = some slot) (id : String) :
    slot? (absorb e ts) id = slot? ts id := by
  have hmem : e.containerId ∈ ts.map Transcript.containerId := by
    by_contra hnot
    rw [slot?_eq_none_iff.2 hnot] at h
    cases h
  have hids : (absorb e ts).map Transcript.containerId = ts.map Transcript.containerId := by
    rw [absorb_eq_add]
    exact (transcriptGather.map_entryKey_add e ts).trans (if_pos hmem)
  unfold slot?
  rw [hids]

/-- A new container gets the slot at the end. -/
theorem slot?_absorb_of_none (h : slot? ts e.containerId = none) (id : String) :
    slot? (absorb e ts) id = if e.containerId = id then some ts.length else slot? ts id := by
  rw [absorb_eq_append h]
  unfold slot? at h ⊢
  rw [List.map_append, List.map_singleton, List.findIdx?_append, List.findIdx?_singleton,
    List.length_map]
  show Option.or _ (Option.map _ (if e.containerId == id then some 0 else none)) = _
  by_cases hid : e.containerId = id
  · rw [hid] at h
    simp [hid, h]
  · simp [hid]

end Absorb

/-- Transcripts while they are collected, and the slots of their containers. -/
structure Ledger where
  transcripts : List Transcript
  slots : Std.HashMap String Nat

/-- The map has a slot where there is no transcript. -/
structure SlotFault where
  slot : Nat

namespace Ledger

/-- Add an event to the transcript in the slot of its container, or start one at the end.  A slot
without a transcript is a fault. -/
def absorb (g : Ledger) (e : Event) : Except SlotFault Ledger :=
  match g.slots[e.containerId]? with
  | some slot =>
    match g.transcripts[slot]? with
    | some t => .ok ⟨g.transcripts.set slot (t.append e.logText), g.slots⟩
    | none => .error ⟨slot⟩
  | none =>
    .ok ⟨g.transcripts ++ [ofEvent e], g.slots.insert e.containerId g.transcripts.length⟩

/-- The map has for each container the slot of its transcript. -/
def InStep (g : Ledger) : Prop :=
  ∀ id, g.slots[id]? = slot? g.transcripts id

theorem inStep_empty : InStep ⟨[], ∅⟩ := by
  intro id
  simp [slot?]

variable {g : Ledger}

/-- With the map in step an event has no fault: the transcripts become what they become without a
map, and the map stays in step. -/
theorem InStep.absorb (h : g.InStep) (e : Event) :
    ∃ g', g.absorb e = .ok g' ∧ g'.transcripts = Transcript.absorb e g.transcripts ∧
      g'.InStep := by
  unfold Ledger.absorb
  rw [h]
  cases hslot : slot? g.transcripts e.containerId with
  | some slot =>
    obtain ⟨t, ht, habsorb⟩ := absorb_eq_set hslot
    dsimp only
    rw [ht]
    dsimp only
    rw [← habsorb]
    refine ⟨_, rfl, rfl, fun id => ?_⟩
    show g.slots[id]? = slot? (Transcript.absorb e g.transcripts) id
    rw [slot?_absorb_of_some hslot, h]
  | none =>
    dsimp only
    rw [← absorb_eq_append hslot]
    refine ⟨_, rfl, rfl, fun id => ?_⟩
    show (g.slots.insert e.containerId g.transcripts.length)[id]? =
      slot? (Transcript.absorb e g.transcripts) id
    rw [slot?_absorb_of_none hslot, Std.HashMap.getElem?_insert, h]
    simp

/-- Event after event there is no fault. -/
theorem InStep.foldlM_absorb (h : g.InStep) (es : List Event) :
    ∃ g', es.foldlM Ledger.absorb g = .ok g' ∧
      g'.transcripts = es.foldl (fun ts e => Transcript.absorb e ts) g.transcripts ∧
      g'.InStep := by
  induction es generalizing g with
  | nil => exact ⟨g, rfl, rfl, h⟩
  | cons e es ih =>
    obtain ⟨next, habsorb, htranscripts, hstep⟩ := h.absorb e
    rw [List.foldlM_cons, habsorb, ok_bind, List.foldl_cons, ← htranscripts]
    exact ih hstep

end Ledger

/-- The transcripts of a list of events, collected with a map of their slots, with an error for a
fault. -/
def watchEvents (es : List Event) : Except SlotFault (List Transcript) := do
  let g ← es.foldlM Ledger.absorb ⟨[], ∅⟩
  return g.transcripts

/-- Collecting with a map has no fault and comes to the same. -/
theorem watchEvents_eq_ok (es : List Event) : watchEvents es = .ok (consolidate es) := by
  obtain ⟨g, hrun, htranscripts, -⟩ := Ledger.inStep_empty.foldlM_absorb es
  unfold watchEvents
  rw [hrun, ok_bind, htranscripts]
  rfl

end CrashReports.Transcript
