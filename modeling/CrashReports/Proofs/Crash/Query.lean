import CrashReports.Crash.Query
import CrashReports.Proofs.Gather

/-!
# Queries under every order of turns

A query gives each of its fetches turns until both have answered.  Whose turn it is may be
laid down by any schedule, a list of the two fetches.  A fetch is moved by its own turns
only, so the state after a schedule depends on how many turns each fetch had, and the
calls stand in the order of first turns (`Race.follow_start`).

An answer that is there is therefore the same for every schedule: the report is built from
what the fetches deliver, with nothing in place of a fetch that fails, and the warnings
come in the order events, counts (`Source.answer_of_every_schedule`).  The order in which
the calls are made is all that a schedule decides.
-/

namespace CrashReports

namespace Fetch

variable {α : Type}

/-- What a fetch adds to a report; nothing if it fails. -/
def items (f : Fetch α) : List α :=
  match f.outcome with
  | .ok xs => xs
  | .error _ => []

/-- The warnings about a fetch: one with the text of its failure, if it fails. -/
def warnings (branch : Branch) (f : Fetch α) : List Warning :=
  match f.outcome with
  | .ok _ => []
  | .error e => [.branchFailed branch e]

theorem settleBranch_answered (branch : Branch) (f : Fetch α) :
    settleBranch branch (.answered f.outcome) = (f.items, f.warnings branch) := by
  unfold settleBranch items warnings
  cases f.outcome with
  | ok xs => rfl
  | error e => rfl

end Fetch

namespace Progress

variable {α : Type}

/-- How far a fetch has come after so many turns. -/
def after (start : DayRange → Fetch α) (range : DayRange) : Nat → Progress α
  | 0 => .unstarted start
  | n + 1 =>
    if n < (start range).pending then .waiting ((start range).pending - n - 1) (start range).outcome
    else .answered (start range).outcome

theorem after_succ (start : DayRange → Fetch α) (range : DayRange) (n : Nat) :
    after start range (n + 1) =
      if n < (start range).pending then
        .waiting ((start range).pending - n - 1) (start range).outcome
      else .answered (start range).outcome :=
  rfl

theorem advance_pending_sub (start : DayRange → Fetch α) (range : DayRange) (n : Nat) :
    advance ((start range).pending - n) (start range).outcome = after start range (n + 1) := by
  rw [after_succ]
  split
  case isTrue hlt =>
    obtain ⟨k, hk⟩ := Nat.exists_eq_succ_of_ne_zero (Nat.sub_ne_zero_of_lt hlt)
    rw [hk]
    rfl
  case isFalse hge =>
    rw [Nat.sub_eq_zero_of_le (Nat.le_of_not_lt hge)]
    rfl

/-- A turn brings a fetch one turn further, and the first turn is the one that calls. -/
theorem turn_after (branch : Branch) (start : DayRange → Fetch α) (range : DayRange) (n : Nat) :
    (after start range n).turn branch range =
      (if n = 0 then [⟨branch, range⟩] else [], after start range (n + 1)) := by
  cases n with
  | zero =>
    rw [if_pos rfl, ← advance_pending_sub start range 0]
    rfl
  | succ n =>
    rw [if_neg (Nat.succ_ne_zero n)]
    by_cases hlt : n < (start range).pending
    · rw [after_succ start range n, if_pos hlt, ← advance_pending_sub start range (n + 1)]
      rfl
    · rw [after_succ start range n, if_neg hlt, after_succ, if_neg (by omega)]
      rfl

theorem after_of_pending_lt {start : DayRange → Fetch α} {range : DayRange} {n : Nat}
    (h : (start range).pending < n) : after start range n = .answered (start range).outcome := by
  cases n with
  | zero => exact absurd h (Nat.not_lt_zero _)
  | succ n => exact if_neg (by omega)

theorem after_ne_answered {start : DayRange → Fetch α} {range : DayRange} {n : Nat}
    (h : n ≤ (start range).pending) (outcome : Except String (List α)) :
    after start range n ≠ .answered outcome := by
  cases n with
  | zero => exact nofun
  | succ n =>
    rw [after_succ, if_pos (Nat.lt_of_succ_le h)]
    exact nofun

end Progress

namespace Race

/-- A turn of one of the two fetches. -/
def turn (range : DayRange) (r : Race) : Branch → Race
  | .events =>
    ⟨(r.events.turn .events range).2, r.counts, r.calls ++ (r.events.turn .events range).1⟩
  | .counts =>
    ⟨r.events, (r.counts.turn .counts range).2, r.calls ++ (r.counts.turn .counts range).1⟩

/-- Turns in the order of a schedule. -/
def follow (range : DayRange) (r : Race) (schedule : List Branch) : Race :=
  schedule.foldl (turn range) r

/-- The answer to a query, if both fetches have answered. -/
def answer? (r : Race) : Option Answer :=
  match r.events, r.counts with
  | .answered _, .answered _ =>
    let (events, warned) := settleBranch .events r.events
    let (records, warned') := settleBranch .counts r.counts
    some ⟨Report.ofLists events records, warned ++ warned', r.calls⟩
  | _, _ => none

/-- The schedule that a query follows: a turn for the events and then one for the counts,
so many times. -/
def alternating : Nat → List Branch
  | 0 => []
  | n + 1 => .events :: .counts :: alternating n

theorem rounds_eq_follow (range : DayRange) (n : Nat) (r : Race) :
    r.rounds range n = r.follow range (alternating n) := by
  induction n generalizing r with
  | zero => rfl
  | succ n ih => exact ih (r.round range)

theorem count_alternating (branch : Branch) (n : Nat) : (alternating n).count branch = n := by
  induction n with
  | zero => rfl
  | succ n ih => cases branch <;> simp [alternating, ih]

/-- Once both fetches have been called, no turn calls one again. -/
theorem eraseDups_events_counts (schedule : List Branch) :
    (.events :: .counts :: schedule).eraseDups = [.events, .counts] := by
  have hknown : schedule ⊆ [.events, .counts] := by
    intro branch _
    cases branch <;> simp
  exact Gather.eraseDups_append_of_subset hknown

theorem eraseDups_alternating (n : Nat) :
    (alternating (n + 1)).eraseDups = [.events, .counts] :=
  eraseDups_events_counts (alternating n)

/-- The state after a schedule: each fetch has had its own turns, and each one that has
had a turn was called once. -/
theorem follow_start (source : Source) (range : DayRange) (schedule : List Branch) :
    (start source).follow range schedule =
      ⟨.after source.events range (schedule.count .events),
        .after source.counts range (schedule.count .counts),
        schedule.eraseDups.map fun branch => ⟨branch, range⟩⟩ := by
  -- turns are added at the end, so the induction is on the last turn
  induction schedule using List.reverseRecOn with
  | nil => rfl
  | append_singleton schedule branch ih =>
    have hstep : (start source).follow range (schedule ++ [branch]) =
        ((start source).follow range schedule).turn range branch := by
      simp [follow]
    rw [hstep, ih, Gather.eraseDups_append_singleton]
    cases branch with
    | events =>
      simp only [turn, Progress.turn_after, List.count_append, List.count_eq_zero]
      by_cases hmem : Branch.events ∈ schedule <;> simp [hmem]
    | counts =>
      simp only [turn, Progress.turn_after, List.count_append, List.count_eq_zero]
      by_cases hmem : Branch.counts ∈ schedule <;> simp [hmem]

end Race

namespace Source

variable (source : Source) (range : DayRange)

/-- There is an answer as soon as both fetches have had more turns than they are pending,
and only its calls depend on the schedule. -/
theorem answer?_follow (schedule : List Branch) :
    ((Race.start source).follow range schedule).answer? =
      if (source.events range).pending < schedule.count .events ∧
          (source.counts range).pending < schedule.count .counts then
        some ⟨Report.ofLists (source.events range).items (source.counts range).items,
          (source.events range).warnings .events ++ (source.counts range).warnings .counts,
          schedule.eraseDups.map fun branch => ⟨branch, range⟩⟩
      else none := by
  rw [Race.follow_start]
  unfold Race.answer?
  by_cases he : (source.events range).pending < schedule.count .events
  · by_cases hc : (source.counts range).pending < schedule.count .counts
    · rw [if_pos ⟨he, hc⟩]
      simp only [Progress.after_of_pending_lt he, Progress.after_of_pending_lt hc,
        Fetch.settleBranch_answered]
    · rw [if_neg (fun h => hc h.2)]
      have hne := @Progress.after_ne_answered _ source.counts range _ (Nat.le_of_not_lt hc)
      split
      case h_1 outcome _ hcounts => exact absurd hcounts (hne _)
      case h_2 => rfl
  · rw [if_neg (fun h => he h.1)]
    have hne := @Progress.after_ne_answered _ source.events range _ (Nat.le_of_not_lt he)
    split
    case h_1 hevents _ => exact absurd hevents (hne _)
    case h_2 => rfl

/-- A query asks for events and then for counts, once each, and makes its report of what
both deliver. -/
theorem query_eq :
    source.query range =
      ⟨Report.ofLists (source.events range).items (source.counts range).items,
        (source.events range).warnings .events ++ (source.counts range).warnings .counts,
        [⟨.events, range⟩, ⟨.counts, range⟩]⟩ := by
  have he : (source.events range).pending <
      max (source.events range).pending (source.counts range).pending + 1 := by omega
  have hc : (source.counts range).pending <
      max (source.events range).pending (source.counts range).pending + 1 := by omega
  unfold query
  dsimp only
  rw [Race.rounds_eq_follow, Race.follow_start, Race.count_alternating, Race.count_alternating,
    Race.eraseDups_alternating, Progress.after_of_pending_lt he, Progress.after_of_pending_lt hc]
  simp only [Fetch.settleBranch_answered]
  rfl

/-- The report and the warnings of a query depend on what its fetches deliver and on
nothing else: neither on how long they are pending nor on whose turn it is when.  Each half of
the report is that of its own fetch, whatever becomes of the other one. -/
theorem answer_of_every_schedule :
    ((source.query range).report.transcripts =
        Transcript.consolidate (source.events range).items ∧
      (source.query range).report.series = Series.ofRecords (source.counts range).items ∧
      (source.query range).warnings =
        (source.events range).warnings .events ++ (source.counts range).warnings .counts) ∧
    (∀ schedule : List Branch,
      (((Race.start source).follow range schedule).answer?.isSome ↔
        (source.events range).pending < schedule.count .events ∧
          (source.counts range).pending < schedule.count .counts) ∧
      ∀ answer ∈ ((Race.start source).follow range schedule).answer?,
        answer.report = (source.query range).report ∧
          answer.warnings = (source.query range).warnings) ∧
    (∀ other : Source, (other.events range).outcome = (source.events range).outcome →
      (other.query range).report.transcripts = (source.query range).report.transcripts) ∧
    (∀ other : Source, (other.counts range).outcome = (source.counts range).outcome →
      (other.query range).report.series = (source.query range).report.series) := by
  refine ⟨?_, fun schedule => ?_, fun other h => ?_, fun other h => ?_⟩
  · rw [query_eq]
    exact ⟨rfl, rfl, rfl⟩
  · rw [answer?_follow, query_eq]
    by_cases hturns : (source.events range).pending < schedule.count .events ∧
        (source.counts range).pending < schedule.count .counts
    · rw [if_pos hturns]
      refine ⟨iff_of_true rfl hturns, fun answer hanswer => ?_⟩
      obtain rfl := Option.some.inj hanswer
      exact ⟨rfl, rfl⟩
    · rw [if_neg hturns]
      exact ⟨iff_of_false Bool.false_ne_true hturns, nofun⟩
  · rw [query_eq, query_eq]
    simp only [Report.ofLists, Fetch.items, h]
  · rw [query_eq, query_eq]
    simp only [Report.ofLists, Fetch.items, h]

end Source

end CrashReports
