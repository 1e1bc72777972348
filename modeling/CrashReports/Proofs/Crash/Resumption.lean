import CrashReports.Proofs.Crash.Transcript

/-!
# Transcripts can take the place of their events

A transcript is itself an event to consolidate: the whole log so far is its fragment, and its
time does not matter.  Events that were consolidated and opened again in this way have the
transcripts they came from, and stand for the events they were made of whatever comes before
or after (`consolidate_reopened`).  So a long run of events can be consolidated piece by piece,
and containers that go on after a cut are joined as if there had been none.
-/

namespace CrashReports.Transcript

/-- A transcript as one event. -/
def toEvent (t : Transcript) (time : Option DateTime) : Event :=
  ⟨t.containerId, t.containerName, time, t.logText⟩

/-- Transcripts as events, each at the time that is given for its place. -/
def reopened (times : Nat → Option DateTime) (ts : List Transcript) : List Event :=
  ts.mapIdx fun i t => t.toEvent (times i)

@[simp]
theorem ofEvent_toEvent (t : Transcript) (time : Option DateTime) :
    ofEvent (t.toEvent time) = t :=
  rfl

@[simp]
theorem map_ofEvent_reopened (times : Nat → Option DateTime) (ts : List Transcript) :
    (reopened times ts).map ofEvent = ts := by
  apply List.ext_getElem
  · simp [reopened]
  · simp [reopened]

theorem consolidate_append (xs ys : List Event) :
    consolidate (xs ++ ys) = ys.foldl (fun ts e => absorb e ts) (consolidate xs) := by
  simp [consolidate]

/-- What is kept of one container, if it has events at all. -/
theorem filter_consolidate (es : List Event) (id : String) :
    (consolidate es).filter (fun t => decide (t.containerId = id)) =
      if id ∈ es.map Event.containerId then
        [ofEvents id (es.filter fun e => decide (e.containerId = id))]
      else [] := by
  have hcount : (es.map Event.containerId).eraseDups.count id =
      if id ∈ es.map Event.containerId then 1 else 0 := by
    split
    case isTrue h =>
      exact List.count_eq_one_of_mem (Gather.nodup_eraseDups _) (List.mem_eraseDups.2 h)
    case isFalse h => exact List.count_eq_zero_of_not_mem (mt List.mem_eraseDups.1 h)
  have hids : (es.map Event.containerId).eraseDups.filter (fun i => decide (i = id)) =
      if id ∈ es.map Event.containerId then [id] else [] := by
    rw [List.filter_eq, hcount]
    split <;> rfl
  rw [consolidate_eq, List.filter_map]
  change (((es.map Event.containerId).eraseDups.filter fun i => decide (i = id)).map _) = _
  rw [hids]
  split <;> rfl

/-- The fragments of a container may be joined before they are put to others. -/
theorem ofEvents_append_of_map_ofEvent {es xs : List Event} {id : String} (hne : xs ≠ [])
    (h : es.map ofEvent = [ofEvents id xs]) (ws : List Event) :
    ofEvents id (ws ++ es) = ofEvents id (ws ++ xs) := by
  obtain ⟨e, rfl, he⟩ := List.map_eq_singleton_iff.1 h
  obtain ⟨x, xs, rfl⟩ := List.exists_cons_of_ne_nil hne
  have hname : e.containerName = x.containerName := congrArg containerName he
  have hlog : e.logText = String.intercalate fragmentSeparator ((x :: xs).map Event.logText) :=
    congrArg logText he
  cases ws with
  | nil => simp [ofEvents, hname, hlog]
  | cons w ws =>
    have hjoin : String.intercalate fragmentSeparator (((w :: ws) ++ [e]).map Event.logText) =
        String.intercalate fragmentSeparator (((w :: ws) ++ (x :: xs)).map Event.logText) := by
      rw [List.map_append, List.map_append,
        String.intercalate_append_of_ne_nil (by simp) (by simp),
        String.intercalate_append_of_ne_nil (by simp) (by simp), List.map_singleton,
        String.intercalate_singleton, hlog]
    exact Transcript.ext rfl rfl hjoin

/-- Events that have the transcripts of others as their own can take their place at the end. -/
theorem consolidate_append_of_map_ofEvent {es xs : List Event}
    (h : es.map ofEvent = consolidate xs) (ws : List Event) :
    consolidate (ws ++ es) = consolidate (ws ++ xs) := by
  have hids : es.map Event.containerId = (xs.map Event.containerId).eraseDups := by
    have hmap : es.map Event.containerId = (es.map ofEvent).map containerId := by
      rw [List.map_map]
      rfl
    rw [hmap, h, consolidate_eq_collect]
    exact transcriptGather.map_entryKey_collect xs
  have hof : ∀ id, ofEvents id ((ws ++ es).filter fun e => decide (e.containerId = id)) =
      ofEvents id ((ws ++ xs).filter fun e => decide (e.containerId = id)) := by
    intro id
    have hfilter : (es.filter fun e => decide (e.containerId = id)).map ofEvent =
        (consolidate xs).filter fun t => decide (t.containerId = id) := by
      rw [← h, List.filter_map]
      rfl
    rw [filter_consolidate] at hfilter
    rw [List.filter_append, List.filter_append]
    by_cases hid : id ∈ xs.map Event.containerId
    · rw [if_pos hid] at hfilter
      obtain ⟨x, hx, rfl⟩ := List.mem_map.1 hid
      refine ofEvents_append_of_map_ofEvent ?_ hfilter _
      exact List.ne_nil_of_mem (List.mem_filter.2 ⟨hx, decide_eq_true rfl⟩)
    · -- neither has events of this container
      rw [if_neg hid, List.map_eq_nil_iff] at hfilter
      have hnone : xs.filter (fun e => decide (e.containerId = id)) = [] := by
        simpa [List.filter_eq_nil_iff] using hid
      rw [hfilter, hnone]
  rw [consolidate_eq, consolidate_eq, List.map_append, hids, Gather.eraseDups_append_eraseDups,
    List.map_append]
  exact List.map_congr_left fun id _ => hof id

/-- Consolidation goes on from its own transcripts: opened again as events, they stand for the
events that they were made of, before and after any others, and alone they come back. -/
theorem consolidate_reopened (times : Nat → Option DateTime) (ws xs ys : List Event) :
    consolidate (reopened times (consolidate xs) ++ ys) = consolidate (xs ++ ys) ∧
      consolidate (reopened times (consolidate xs)) = consolidate xs ∧
      consolidate (ws ++ reopened times (consolidate xs) ++ ys) =
        consolidate (ws ++ xs ++ ys) := by
  have hopen := map_ofEvent_reopened times (consolidate xs)
  have hbare : consolidate (reopened times (consolidate xs)) = consolidate xs :=
    consolidate_append_of_map_ofEvent hopen []
  have hafter := consolidate_append_of_map_ofEvent hopen ws
  refine ⟨?_, hbare, ?_⟩
  · rw [consolidate_append, hbare, ← consolidate_append]
  · rw [consolidate_append (ws ++ _), hafter, ← consolidate_append]

end CrashReports.Transcript
