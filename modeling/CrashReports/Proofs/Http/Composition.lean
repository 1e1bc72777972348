import CrashReports.Http.Service
import CrashReports.Proofs.Crash.Json
import CrashReports.Proofs.Store.Counts
import Mathlib

/-!
# Reports are composed of the raw replies

A report is made of the events and the daily counts that the service also hands out on
their own.  Every part of the reply for a report follows from the reply to the raw request
for the same query (`respond_report`): it is made of the list that was handed out, or it is
empty and a warning carries the error text of the failed request.

The three requests differ in what they do about a failure, not in how they read the query
or the store.
-/

namespace CrashReports.Http

/-! ### Requests -/

/-- The path of a resource. -/
def Resource.path : Resource → String
  | .greeting => "/"
  | .version => "/version"
  | .events => "/api/crashed_containers"
  | .counts => "/api/crashed_containers/chart-stats"
  | .report => "/api/crash-report"

/-- A request for a resource, with a query. -/
def getRequest (resource : Resource) (query : String) : Request :=
  ⟨"GET", resource.path ++ "?" ++ query⟩

theorem ofPath?_path (resource : Resource) : Resource.ofPath? resource.path = some resource := by
  cases resource <;> decide

theorem head?_path (resource : Resource) : resource.path.toList.head? = some '/' := by
  cases resource <;> rfl

theorem not_endsPath_of_mem_path {resource : Resource} {c : Char}
    (h : c ∈ resource.path.toList) : endsPath c = false := by
  have hpath : (resource.path.toList.any endsPath) = false := by
    cases resource <;> rfl
  exact Bool.eq_false_iff.2 (List.any_eq_false.1 hpath c h)

section Target

variable (resource : Resource) (query : String)

theorem localPart_target :
    localPart (getRequest resource query).target = resource.path.toList ++ '?' :: query.toList := by
  obtain ⟨cs, hpath⟩ := List.head?_eq_some_iff.1 (head?_path resource)
  have htarget : (getRequest resource query).target.toList =
      '/' :: (cs ++ '?' :: query.toList) := by
    simp [getRequest, hpath]
  have hscheme : ∀ rest : List Char, ('/' :: rest).dropWhile isSchemeChar = '/' :: rest :=
    fun rest => List.dropWhile_cons_of_neg (by decide)
  unfold localPart
  dsimp only
  rw [htarget, hscheme, hpath]
  rfl

theorem pathOf_target : pathOf (getRequest resource query).target = resource.path := by
  have hpath : ∀ c ∈ resource.path.toList, (!endsPath c) = true := by
    intro c hc
    rw [not_endsPath_of_mem_path hc]
    rfl
  rw [pathOf, localPart_target, List.takeWhile_append_of_pos hpath,
    List.takeWhile_cons_of_neg (by decide), List.append_nil, String.ofList_toList]

variable {query}

theorem queryOf_target (hquery : '#' ∉ query.toList) :
    queryOf (getRequest resource query).target = query.toList := by
  have hpath : ∀ c ∈ resource.path.toList, (c != '?') = true ∧ (c != '#') = true := by
    intro c hc
    simpa [endsPath] using not_endsPath_of_mem_path hc
  have hkeep : ∀ c ∈ resource.path.toList ++ '?' :: query.toList, (c != '#') = true := by
    intro c hc
    rcases List.mem_append.1 hc with hc | hc
    · exact (hpath c hc).2
    · rcases List.mem_cons.1 hc with rfl | hc
      · decide
      · exact bne_iff_ne.2 fun heq => hquery (heq ▸ hc)
  rw [queryOf, localPart_target, List.takeWhile_eq_self_iff.2 hkeep,
    List.dropWhile_append_of_pos fun c hc => (hpath c hc).1, List.dropWhile_cons_of_neg (by decide)]
  rfl

/-- A `GET` of a path and a query is answered for the resource at that path. -/
theorem respond_getRequest (store : Store) (hquery : '#' ∉ query.toList) :
    respond store (getRequest resource query) = get store resource query.toList := by
  have hmethod : (getRequest resource query).method = "GET" := rfl
  unfold respond
  dsimp only
  rw [pathOf_target, queryOf_target resource hquery, ofPath?_path, hmethod]
  rfl

end Target

/-- A query gives both ends of a range. -/
def NamesRange (query : String) (r : DayRange) : Prop :=
  ∃ params, RangeParams.ofQuery query.toList = .ok params ∧
    DayRange.parse params.dateFrom params.dateTo = .ok r

section Range

variable {store : Store} {query : String} {r : DayRange}

theorem get_events (h : NamesRange query r) :
    get store .events query.toList = replyToFetch Event.toJson (.ok (store.events r)) := by
  obtain ⟨params, hparams, hrange⟩ := h
  simp only [get, hparams, replyForRange, hrange, Except.map]

theorem get_counts (h : NamesRange query r) :
    get store .counts query.toList = replyToFetch CountRecord.toJson (.ok (store.counts r)) := by
  obtain ⟨params, hparams, hrange⟩ := h
  simp only [get, hparams, replyForRange, hrange, Except.map]

theorem get_report (h : NamesRange query r) :
    get store .report query.toList = replyToReport (.ok (store.source.query r)) := by
  obtain ⟨params, hparams, hrange⟩ := h
  simp only [get, hparams, replyForRange, Source.queryTexts, hrange, Except.map]

end Range

/-! ### Parts of a report -/

/-- How a part of a report, and the warnings about it, follow from the reply to the request
for what it is made of. -/
structure Follows {α β : Type} (branch : Branch) (toJson : α → Json) (make : List α → β)
    (blank : β) (reply : Reply) (part : β) (warned : List Warning) : Prop where
  /-- A list is handed out, or a failure is reported and logged. -/
  answered : (∃ xs, reply = (.ofJson 200 (Json.ofList toJson xs), [])) ∨
    ∃ error, reply = (.failure 500 "crash store unavailable", [.fetchFailed error])
  /-- The part is made of the list that is handed out. -/
  made : ∀ xs, reply.1 = .ofJson 200 (Json.ofList toJson xs) → part = make xs ∧ warned = []
  /-- After a failure the part is blank, and its error is in the one warning about it. -/
  missing : reply.1.status = 500 →
    part = blank ∧ ∃ error, reply.2 = [.fetchFailed error] ∧ warned = [.branchFailed branch error]

theorem follows_fetch {α β : Type} {toJson : α → Json} (branch : Branch) {make : List α → β}
    (hmake : ∀ xs ys, Json.ofList toJson xs = Json.ofList toJson ys → make xs = make ys)
    {blank : β} (hblank : make [] = blank) (x : Except Store.FetchError (List α)) :
    Follows branch toJson make blank (replyToFetch toJson (.ok x))
      (make (Store.immediate x).items) ((Store.immediate x).warnings branch) := by
  cases x with
  | ok xs =>
    refine ⟨.inl ⟨xs, rfl⟩, fun ys h => ?_, fun h => ?_⟩
    · have hbody : Json.ofList toJson xs = Json.ofList toJson ys :=
        Body.json.inj (congrArg Response.body h)
      exact ⟨hmake xs ys hbody, rfl⟩
    · have hstatus : 200 = 500 := h
      exact absurd hstatus (by decide)
  | error e =>
    refine ⟨.inr ⟨e.message, rfl⟩, fun ys h => ?_, fun _ => ⟨hblank, e.message, rfl, rfl⟩⟩
    have hstatus : 500 = 200 := congrArg Response.status h
    exact absurd hstatus (by decide)

/-- The request for a report is answered with 200 for every range and every state of the
store.  Its transcripts follow from the reply to the request for the events of the same
query, and its series from the reply to the request for the daily counts; it has no
warnings but those about the two. -/
theorem respond_report (store : Store) {query : String} (hquery : '#' ∉ query.toList)
    {r : DayRange} (hrange : NamesRange query r) :
    ∃ (report : Report) (warned warned' : List Warning),
      respond store (getRequest .report query) =
          (.ofJson 200 report.toJson, warned ++ warned') ∧
        Follows .events Event.toJson Transcript.consolidate []
          (respond store (getRequest .events query)) report.transcripts warned ∧
        Follows .counts CountRecord.toJson Series.ofRecords Series.empty
          (respond store (getRequest .counts query)) report.series warned' := by
  refine ⟨(store.source.query r).report, (store.source.events r).warnings .events,
    (store.source.counts r).warnings .counts, ?_, ?_, ?_⟩
  · rw [respond_getRequest _ _ hquery, get_report hrange, Source.query_eq]
    rfl
  · rw [respond_getRequest _ _ hquery, get_events hrange, Store.query_report]
    exact follows_fetch .events (fun _ _ => Transcript.consolidate_eq_of_toJson) rfl
      (store.events r)
  · rw [respond_getRequest _ _ hquery, get_counts hrange, Store.query_report]
    exact follows_fetch .counts
      (fun _ _ h => congrArg _ (Json.ofList_injective CountRecord.toJson_injective h)) rfl
      (store.counts r)

/-- A store with a log that is no text, so that its crashes can be counted but not read. -/
def halfReadableStore : Store :=
  ⟨some ⟨[⟨1, .text "web", .null, .bytes [255], .text "2024-05-01 08:00:00"⟩], by simp⟩,
    Store.noon⟩

/-- A query for the day of its crash, with a blank before the day. -/
def halfReadableQuery : String := "date_to=2024-05-01&page=2&date_from=+2024%2D05-01"

theorem namesRange_halfReadableQuery : NamesRange halfReadableQuery Store.mixedRange :=
  ⟨⟨some " 2024-05-01", some "2024-05-01"⟩, by cbv, by decide +kernel⟩

theorem respond_report_halfReadableStore :
    '#' ∉ halfReadableQuery.toList ∧ NamesRange halfReadableQuery Store.mixedRange ∧
      ∃ (report : Report) (warned warned' : List Warning),
        respond halfReadableStore (getRequest .report halfReadableQuery) =
            (.ofJson 200 report.toJson, warned ++ warned') ∧
          Follows .events Event.toJson Transcript.consolidate []
            (respond halfReadableStore (getRequest .events halfReadableQuery))
            report.transcripts warned ∧
          Follows .counts CountRecord.toJson Series.ofRecords Series.empty
            (respond halfReadableStore (getRequest .counts halfReadableQuery))
            report.series warned' :=
  ⟨by decide, namesRange_halfReadableQuery,
    respond_report halfReadableStore (by decide) namesRange_halfReadableQuery⟩

end CrashReports.Http
