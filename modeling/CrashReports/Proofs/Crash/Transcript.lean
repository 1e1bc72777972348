import CrashReports.Crash.Transcript
import CrashReports.Proofs.Gather

/-!
# What transcripts hold

The transcripts of a list of events, written down without going through them one by one:
one for each container, in the order of first events, with the name of its first event and
the fragments of its events joined in order (`Transcript.consolidate_eq`).
-/

namespace CrashReports.Transcript

/-- How transcripts are collected. -/
def transcriptGather : Gather Event Transcript String where
  itemKey e := e.containerId
  entryKey t := t.containerId
  start e := ofEvent e
  extend t e := t.append e.logText
  entryKey_start _ := rfl
  entryKey_extend _ _ := rfl

theorem absorb_eq_add (e : Event) (ts : List Transcript) :
    absorb e ts = transcriptGather.add e ts := by
  induction ts with
  | nil => rfl
  | cons t ts ih =>
    have hcons : transcriptGather.add e (t :: ts) =
        if t.containerId = e.containerId then t.append e.logText :: ts
        else t :: transcriptGather.add e ts := rfl
    rw [absorb, hcons, ih]

theorem consolidate_eq_collect (es : List Event) :
    consolidate es = transcriptGather.collect es := by
  unfold consolidate Gather.collect
  congr 1
  funext ts e
  exact absorb_eq_add e ts

/-- Of an event only its transcript matters, and not its time. -/
theorem absorb_eq_of_ofEvent {a b : Event} (h : ofEvent a = ofEvent b) (ts : List Transcript) :
    absorb a ts = absorb b ts := by
  have hid : a.containerId = b.containerId := congrArg containerId h
  have hlog : a.logText = b.logText := congrArg logText h
  induction ts with
  | nil => rw [absorb, absorb, h]
  | cons t ts ih => rw [absorb, absorb, hid, hlog, ih]

theorem consolidate_eq_of_map_ofEvent {xs ys : List Event}
    (h : xs.map ofEvent = ys.map ofEvent) : consolidate xs = consolidate ys := by
  have hfold (es : List Event) : consolidate es = (es.map ofEvent).foldl
      (fun ts t => absorb ⟨t.containerId, t.containerName, none, t.logText⟩ ts) [] := by
    rw [List.foldl_map, consolidate]
    congr 1
    funext ts e
    have hsame : ofEvent e =
        ofEvent ⟨(ofEvent e).containerId, (ofEvent e).containerName, none, (ofEvent e).logText⟩ :=
      rfl
    exact absorb_eq_of_ofEvent hsame ts
  rw [hfold, hfold, h]

theorem nodup_containerId_consolidate (es : List Event) :
    ((consolidate es).map Transcript.containerId).Nodup :=
  consolidate_eq_collect es ▸ transcriptGather.nodup_map_entryKey_collect es

/-- There is a transcript for each container that has an event, and for no other. -/
theorem isSome_find?_consolidate {es : List Event} {id : String} :
    (find? (consolidate es) id).isSome ↔ ∃ e ∈ es, e.containerId = id := by
  have hkeys := @Gather.mem_map_entryKey_collect _ _ _ transcriptGather _ es id
  rw [← consolidate_eq_collect, List.mem_map] at hkeys
  have hfind : (find? (consolidate es) id).isSome ↔
      ∃ t ∈ consolidate es, t.containerId = id := by
    simp [find?, List.find?_isSome]
  exact hfind.trans hkeys

/-- The transcript of a container, made of all its events at once. -/
def ofEvents (id : String) (es : List Event) : Transcript :=
  ⟨id, (es.head?.map Event.containerName).getD "",
    String.intercalate fragmentSeparator (es.map Event.logText)⟩

theorem foldl_append (t : Transcript) (es : List Event) :
    es.foldl (fun t e => t.append e.logText) t =
      ⟨t.containerId, t.containerName,
        String.intercalate fragmentSeparator (t.logText :: es.map Event.logText)⟩ := by
  induction es generalizing t with
  | nil => rfl
  | cons e es ih =>
    rw [List.foldl_cons, ih]
    rfl

theorem entry_transcriptGather {es : List Event} (hne : es ≠ []) {id : String}
    (hid : ∀ e ∈ es, e.containerId = id) :
    transcriptGather.entry es = some (ofEvents id es) := by
  cases es with
  | nil => exact absurd rfl hne
  | cons e es =>
    have hfold := foldl_append (ofEvent e) es
    rw [← hid e List.mem_cons_self]
    exact congrArg some hfold

/-- One transcript for each container, in the order of first events, made of the events of
that container. -/
theorem consolidate_eq (es : List Event) :
    consolidate es = (es.map Event.containerId).eraseDups.map fun id =>
      ofEvents id (es.filter fun e => decide (e.containerId = id)) := by
  have hentries : ∀ id ∈ (es.map Event.containerId).eraseDups,
      transcriptGather.entry (es.filter fun e => decide (e.containerId = id)) =
        some (ofEvents id (es.filter fun e => decide (e.containerId = id))) := by
    intro id hid
    obtain ⟨e, he, rfl⟩ := List.mem_map.1 (List.mem_eraseDups.1 hid)
    apply entry_transcriptGather
    · exact List.ne_nil_of_mem (List.mem_filter.2 ⟨he, decide_eq_true rfl⟩)
    · intro e' he'
      exact of_decide_eq_true (List.mem_filter.1 he').2
  rw [consolidate_eq_collect, Gather.collect_eq_filterMap]
  exact (List.filterMap_congr hentries).trans (congrFun List.filterMap_eq_map' _)

end CrashReports.Transcript
