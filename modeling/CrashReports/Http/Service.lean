import CrashReports.Crash.Json
import CrashReports.Store.Fetch
import CrashReports.Text.Form

/-!
# The web service

What the service answers to a request: a greeting, its name and version, the events of a
range, the daily counts of a range, and the report for a range.  A faulty range is
the caller's error and never reaches the store.  A store that fails is an error of
the service for events and counts; a report then has an empty part instead.

Every response allows all origins.  An `OPTIONS` request is a question about
origins and is answered at once; `HEAD` is `GET` without the body.
-/

namespace CrashReports.Identity

/-- The name of the service. -/
def name : String := "crashwatch"

/-- The version of the service. -/
def version : String := "0.3.0"

/-- Name and version in one text. -/
def banner : String := name ++ "/" ++ version

end CrashReports.Identity

namespace CrashReports.Http

/-- A request by its method and its target. -/
structure Request where
  method : String
  target : String
deriving DecidableEq

/-- The content of a response. -/
inductive Body where
  | none
  | text (s : String)
  | json (v : Json)

/-- A response; the headers common to all responses are left out. -/
structure Response where
  status : Nat
  /-- Whether the response lists the methods of its path. -/
  listsMethods : Bool
  contentType : Option String
  body : Body

/-- The resources of the service. -/
inductive Resource where
  | greeting
  | version
  | events
  | counts
  | report
deriving DecidableEq

/-- The resource at a path. -/
def Resource.ofPath? (path : String) : Option Resource :=
  if path = "/" then some .greeting
  else if path = "/version" then some .version
  else if path = "/api/crashed_containers" then some .events
  else if path = "/api/crashed_containers/chart-stats" then some .counts
  else if path = "/api/crash-report" then some .report
  else none

/-- The value of the header `access-control-allow-origin`. -/
def allowedOrigin : String := "*"

/-- The value of the header `vary`. -/
def variesBy : String :=
  "origin, access-control-request-method, access-control-request-headers"

/-- The value of the header `allow`, where it is present. -/
def allowedMethods : String := "GET,HEAD"

/-- A character of a scheme. -/
def isSchemeChar (c : Char) : Bool :=
  c.isAlphanum || c == '+' || c == '-' || c == '.'

/-- A character that ends the name of a host or a path. -/
def endsPath (c : Char) : Bool :=
  c == '?' || c == '#'

/-- A target without the scheme and the host that it may begin with.  Where nothing
follows the host, the path is that of the greeting. -/
def localPart (target : String) : List Char :=
  let cs := target.toList
  match cs.dropWhile isSchemeChar with
  | ':' :: '/' :: '/' :: rest =>
    let rest := rest.dropWhile fun c => c != '/' && !endsPath c
    if rest.head? = some '/' then rest else '/' :: rest
  | _ => cs

/-- The path of a target. -/
def pathOf (target : String) : String :=
  String.ofList ((localPart target).takeWhile fun c => !endsPath c)

/-- The query of a target, empty if there is none. -/
def queryOf (target : String) : List Char :=
  (((localPart target).takeWhile (· != '#')).dropWhile (· != '?')).drop 1

/-- The ends of a range as they stand in a query. -/
structure RangeParams where
  dateFrom : Option String
  dateTo : Option String
deriving DecidableEq

/-- Find the ends of a range among the pairs of a query.  An end that is given
twice is an error, which names it; other pairs are passed over. -/
def RangeParams.collect : RangeParams → List (String × String) → Except String RangeParams
  | params, [] => .ok params
  | params, (name, value) :: rest =>
    if name = "date_from" then
      if params.dateFrom.isSome then .error name
      else collect { params with dateFrom := some value } rest
    else if name = "date_to" then
      if params.dateTo.isSome then .error name
      else collect { params with dateTo := some value } rest
    else collect params rest

/-- The ends of a range in a query. -/
def RangeParams.ofQuery (query : List Char) : Except String RangeParams :=
  RangeParams.collect ⟨none, none⟩ (Text.formPairs query)

namespace Response

/-- A response without content. -/
def bare (status : Nat) (listsMethods : Bool) : Response :=
  ⟨status, listsMethods, none, .none⟩

/-- A response with plain text. -/
def ofText (status : Nat) (s : String) : Response :=
  ⟨status, false, some "text/plain; charset=utf-8", .text s⟩

/-- A response with a JSON value. -/
def ofJson (status : Nat) (v : Json) : Response :=
  ⟨status, false, some "application/json", .json v⟩

/-- A response with an error message. -/
def failure (status : Nat) (message : String) : Response :=
  ofJson status (.object [("error", .string message)])

/-- A response without its content. -/
def withoutBody (r : Response) : Response :=
  { r with body := .none }

end Response

/-- A response and the warnings that were logged for it. -/
abbrev Reply := Response × List Warning

/-- The reply for a fetch of events or counts. -/
def replyToFetch {α : Type} (toJson : α → Json) :
    Except RangeError (Except Store.FetchError (List α)) → Reply
  | .error e => (.failure 400 e.message, [])
  | .ok (.error e) => (.failure 500 "crash store unavailable", [.fetchFailed e.message])
  | .ok (.ok xs) => (.ofJson 200 (Json.ofList toJson xs), [])

/-- The reply for a report. -/
def replyToReport : Except RangeError Answer → Reply
  | .error e => (.failure 400 e.message, [])
  | .ok a => (.ofJson 200 a.report.toJson, a.warnings)

/-- The reply for a resource that needs a range. -/
def replyForRange (store : Store) (resource : Resource) (params : RangeParams) : Reply :=
  let range := DayRange.parse params.dateFrom params.dateTo
  match resource with
  | .events => replyToFetch Event.toJson (range.map store.events)
  | .counts => replyToFetch CountRecord.toJson (range.map store.counts)
  | _ => replyToReport (store.source.queryTexts params.dateFrom params.dateTo)

/-- The reply to a `GET` of a resource. -/
def get (store : Store) (resource : Resource) (query : List Char) : Reply :=
  match resource with
  | .greeting => (.ofText 200 "crashwatch: container crash reports", [])
  | .version =>
    (.ofJson 200 (.object [("name", .string Identity.name),
      ("version", .string Identity.version)]), [])
  | resource =>
    match RangeParams.ofQuery query with
    | .ok params => replyForRange store resource params
    | .error name =>
      (.ofText 400 ("Failed to deserialize query string: duplicate field `" ++ name ++ "`"), [])

/-- The reply to a request. -/
def respond (store : Store) (request : Request) : Reply :=
  let resource := Resource.ofPath? (pathOf request.target)
  if request.method = "OPTIONS" then (.bare 200 resource.isSome, [])
  else
    match resource with
    | none => (.bare 404 false, [])
    | some resource =>
      if request.method = "GET" then get store resource (queryOf request.target)
      else if request.method = "HEAD" then
        let (response, warnings) := get store resource (queryOf request.target)
        (response.withoutBody, warnings)
      else (.bare 405 true, [])

end CrashReports.Http
