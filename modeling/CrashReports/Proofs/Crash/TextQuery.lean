import CrashReports.Proofs.Crash.Query
import CrashReports.Proofs.DayRange

/-!
# Queries on texts, turn by turn

A query on two texts begins by reading them as a range.  If they are none the query is over
before a fetch begins; otherwise its first turn starts both fetches, and every later one gives
them turns, in an order that is not fixed (`TextQuery.turn`).  What a turn can do is said for a
query that is over and for one on its way; all later states follow by induction on the turns
(`TextQuery.turns_refused`, `TextQuery.turns_racing`).

So the two ways in which a query can go are told apart by its texts alone
(`Source.queryTexts_ends_or_asks`): either the source is never called and nothing is worth a
warning, or each fetch is called once, for the range that was read, and the query ends with a
report whatever the fetches answer.
-/

namespace CrashReports

/-- A query on two texts on its way. -/
inductive TextQuery where
  | unread (source : Source) (start stop : Option String)
  | refused (e : RangeError)
  | racing (range : DayRange) (race : Race)

namespace TextQuery

/-- A turn of a query.  The first one reads the texts and gives both fetches their first turn;
in a later one they have turns in some order. -/
def turn : TextQuery → List Branch → TextQuery
  | .unread source start stop, _ =>
    match DayRange.parse start stop with
    | .error e => .refused e
    | .ok range => .racing range ((Race.start source).round range)
  | .refused e, _ => .refused e
  | .racing range race, order => .racing range (race.follow range order)

/-- So many turns, each with its order. -/
def turns (q : TextQuery) (orders : List (List Branch)) : TextQuery :=
  orders.foldl turn q

/-- The calls of the source so far. -/
def calls : TextQuery → List Call
  | .unread _ _ _ => []
  | .refused _ => []
  | .racing _ race => race.calls

/-- What the query gives back, once it is over. -/
def result? : TextQuery → Option (Except RangeError Answer)
  | .unread _ _ _ => none
  | .refused e => some (.error e)
  | .racing _ race => race.answer?.map .ok

/-- The warnings so far. -/
def warnings (q : TextQuery) : List Warning :=
  match q.result? with
  | some (.ok answer) => answer.warnings
  | _ => []

/-- The query is over at its first turn and leaves the source alone. -/
structure EndsWith (q : TextQuery) (e : RangeError) : Prop where
  result : ∀ order orders, (q.turns (order :: orders)).result? = some (.error e)
  calls : ∀ orders, (q.turns orders).calls = []
  warnings : ∀ orders, (q.turns orders).warnings = []

/-- The query asks for the events and then for the counts of a range, once each and both at its
first turn; it gives back this answer as soon as both fetches have had more turns than they are
pending.  The first of these turns is that of the query's first one. -/
structure AsksFor (q : TextQuery) (source : Source) (range : DayRange) (answer : Answer) :
    Prop where
  calls : ∀ order orders, (q.turns (order :: orders)).calls = [⟨.events, range⟩, ⟨.counts, range⟩]
  result : ∀ order orders, (q.turns (order :: orders)).result? =
    if (source.events range).pending ≤ orders.flatten.count .events ∧
        (source.counts range).pending ≤ orders.flatten.count .counts then some (.ok answer)
    else none

/-! ### What turns do -/

theorem turns_refused (e : RangeError) (orders : List (List Branch)) :
    turns (.refused e) orders = .refused e := by
  induction orders with
  | nil => rfl
  | cons order orders ih => exact ih

theorem turns_racing (range : DayRange) (race : Race) (orders : List (List Branch)) :
    turns (.racing range race) orders = .racing range (race.follow range orders.flatten) := by
  induction orders generalizing race with
  | nil => rfl
  | cons order orders ih =>
    have hfollow : (race.follow range order).follow range orders.flatten =
        race.follow range (order ++ orders.flatten) := by
      simp only [Race.follow, List.foldl_append]
    rw [List.flatten_cons, ← hfollow]
    exact ih (race.follow range order)

section Unread

variable {source : Source} {start stop : Option String}

theorem endsWith_of_parse {e : RangeError} (h : DayRange.parse start stop = .error e) :
    EndsWith (.unread source start stop) e := by
  have hturn (order : List Branch) : turn (.unread source start stop) order = .refused e := by
    rw [turn, h]
  have hturns (order : List Branch) (orders : List (List Branch)) :
      turns (.unread source start stop) (order :: orders) = .refused e := by
    rw [turns, List.foldl_cons, hturn]
    exact turns_refused e orders
  refine ⟨fun order orders => ?_, fun orders => ?_, fun orders => ?_⟩
  · rw [hturns]
    rfl
  · cases orders with
    | nil => rfl
    | cons order orders =>
      rw [hturns]
      rfl
  · cases orders with
    | nil => rfl
    | cons order orders =>
      rw [warnings, hturns]
      rfl

/-- After its first turn a query on the texts of a range is a race that followed a schedule which
begins with the events and the counts. -/
theorem turns_of_parse {range : DayRange} (h : DayRange.parse start stop = .ok range)
    (order : List Branch) (orders : List (List Branch)) :
    turns (.unread source start stop) (order :: orders) =
      .racing range ((Race.start source).follow range
        (.events :: .counts :: orders.flatten)) := by
  have hturn : turn (.unread source start stop) order =
      .racing range ((Race.start source).follow range [.events, .counts]) := by
    rw [turn, h]
    exact congrArg _ (Race.rounds_eq_follow range 1 (Race.start source))
  rw [turns, List.foldl_cons, hturn]
  exact turns_racing range _ orders

theorem asksFor_of_parse {range : DayRange} (h : DayRange.parse start stop = .ok range) :
    AsksFor (.unread source start stop) source range (source.query range) := by
  refine ⟨fun order orders => ?_, fun order orders => ?_⟩
  · rw [turns_of_parse h, calls, Race.follow_start, Race.eraseDups_events_counts]
    rfl
  · have hevents : (Branch.events :: .counts :: orders.flatten).count .events =
        orders.flatten.count .events + 1 := by simp
    have hcounts : (Branch.events :: .counts :: orders.flatten).count .counts =
        orders.flatten.count .counts + 1 := by simp
    rw [turns_of_parse h, result?, Source.answer?_follow, Race.eraseDups_events_counts, hevents,
      hcounts, Source.query_eq]
    simp only [Nat.lt_succ_iff]
    split <;> rfl

end Unread

end TextQuery

/-- A query on two texts ends with the fault of reading them as a range, without a call of the
source and without a warning; or it asks for the events and then for the counts of the range
that was read, once each, and ends with a report of what both deliver, with nothing in place of
a fetch that fails.  The texts that are handed to the source are read as that range again. -/
theorem Source.queryTexts_ends_or_asks (source : Source) (start stop : Option String) :
    match DayRange.parse start stop with
    | .error e =>
      source.queryTexts start stop = .error e ∧ TextQuery.EndsWith (.unread source start stop) e
    | .ok range =>
      DayRange.parse (some range.bounds.1) (some range.bounds.2) = .ok range ∧
      ∃ answer : Answer, source.queryTexts start stop = .ok answer ∧
        answer.report =
          Report.ofLists (source.events range).items (source.counts range).items ∧
        answer.warnings =
          (source.events range).warnings .events ++ (source.counts range).warnings .counts ∧
        answer.calls = [⟨.events, range⟩, ⟨.counts, range⟩] ∧
        TextQuery.AsksFor (.unread source start stop) source range answer := by
  cases h : DayRange.parse start stop with
  | error e =>
    refine ⟨?_, TextQuery.endsWith_of_parse h⟩
    rw [Source.queryTexts, h]
    rfl
  | ok range =>
    refine ⟨DayRange.parse_bounds range, source.query range, ?_, ?_, ?_, ?_,
      TextQuery.asksFor_of_parse h⟩
    · rw [Source.queryTexts, h]
      rfl
    · rw [Source.query_eq]
    · rw [Source.query_eq]
    · rw [Source.query_eq]

end CrashReports
