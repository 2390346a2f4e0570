/-
Module: FeathrEvents.App.UseTrace
Purpose: The trace of one event from the browser: it is posted, then both read paths are polled until they
  have it, and each hop is timed; alone, and against the API as it runs.
Trusted boundary: translation by hand of `until` and `run` in `application/useTrace.ts`, of the calls
  of `infrastructure/api.ts` that they make, and of `GET /events` behind them.  The clock readings, what
  MongoDB finds, and which documents of the index a search finds are parameters; a search finds nothing
  that is not indexed.
Main exports: TraceStep, UseTrace.timeoutMs, UseTrace.traceBody, Timeline, Timeline.push, Timeline.fail,
  UseTrace.Clock, UseTrace.trace, UseTrace.Tracing, Tracing.timeline, Tracing.last
-/
import FeathrEvents.App.Api
import FeathrEvents.App.BrowserRecords
import FeathrEvents.App.Listing
import FeathrEvents.Lib.Polling

namespace FeathrEvents

/-- The values of `state` in a `TraceStep` that a hook ever gives it. -/
inductive StepState where
  | done
  | failed
deriving DecidableEq

structure TraceStep where
  label : String
  detail : String
  atMs : ℤ
  state : StepState
deriving DecidableEq

/-- The state of the hook, and the runs that it gave to `onRun`. -/
structure Timeline where
  steps : List TraceStep
  running : Bool
  eventId : Option String
  runs : List Run

namespace Timeline

def push (step : TraceStep) (timeline : Timeline) : Timeline :=
  { timeline with steps := timeline.steps ++ [step] }

/-- `catch` and `finally`. -/
def fail (message : String) (atMs : ℤ) (timeline : Timeline) : Timeline :=
  { timeline.push ⟨"Failed", message, atMs, .failed⟩ with running := false }

end Timeline

namespace UseTrace

/-- `TIMEOUT_MS`. -/
def timeoutMs : ℤ := 15000

/-- The body that is posted. -/
def traceBody (marker : String) : Payload where
  eventType := "pageview"
  userId := "trace-probe"
  sourceUrl := "https://shop.example.com/traced"
  metadata := [("marker", .string marker), ("origin", .string "console")]

/-- The readings of `Date.now()` outside of the two loops, in the order in which they are taken; only one of
the last three is, unless both loops begin. -/
structure Clock where
  started : ℤ
  pushed : ℤ
  accepted : ℤ
  listsFrom : ℤ
  searchesFrom : ℤ
  failed : ℤ

/-! ### The client -/

/-- `until`, which begins with a reading of its own; nothing is raised that is not an `Error`. -/
def untilHit {α β : Type} (begun : ℤ) (probe : α → Option β)
    (passes : List (Polling.Pass ℤ String α)) :
    Option (Polling.Verdict ℤ String β) :=
  Polling.poll (begun + timeoutMs) probe passes

def acceptedStep (eventId : String) (atMs : ℤ) : TraceStep where
  label := "Accepted"
  detail := "202 · " ++ .ofList (eventId.toList.take 12) ++ "… · queued, not stored"
  atMs := atMs
  state := .done

/-- The step of a loop that ended; it was hit after so many milliseconds, or its time was up. -/
def hop (label detail : String) : Option ℤ → TraceStep
  | some atMs => ⟨label, detail, atMs, .done⟩
  | none => ⟨label, "timed out", timeoutMs, .failed⟩

def mongoStep : Option ℤ → TraceStep :=
  hop "In MongoDB" ("mostly spent waiting to be picked up. Idle worker tasks poll every 50ms, " ++
    "a fixed cost that disappears once there is a queue to work through")

def searchStep : Option ℤ → TraceStep :=
  hop "Searchable" "indexed earlier, visible now. Elasticsearch's refresh_interval is 1s"

/-- How the loop over the listing stands. -/
def inMongo (clock : Clock) (eventId : String) (lists : List (Polling.Pass ℤ String (List Event))) :
    Option (Polling.Verdict ℤ String Event) :=
  untilHit clock.listsFrom (fun items => items.find? fun item => item.eventId = eventId) lists

/-- How the loop over the search stands. -/
def inES (clock : Clock) (eventId : String)
    (searches : List (Polling.Pass ℤ String (List String))) :
    Option (Polling.Verdict ℤ String String) :=
  untilHit clock.searchesFrom (fun items => items.find? fun item => item = eventId) searches

/-- The rest of `run`, once a loop has ended or as long as it goes on. -/
def afterLoop {β : Type} (clock : Clock) (verdict : Option (Polling.Verdict ℤ String β))
    (timeline : Timeline) (next : Option ℤ → Timeline) : Timeline :=
  match verdict with
  | none => timeline
  | some (.raised message) => timeline.fail message (clock.failed - clock.started)
  | some (.found _ foundAt) => next (some (foundAt - clock.started))
  | some .timedOut => next none

/-- `run`, given what comes of `api.ingest`, `none` as long as nothing does, and the passes of both loops,
as far as they got. -/
def trace (clock : Clock) (posted : Option (Except String String))
    (lists : List (Polling.Pass ℤ String (List Event)))
    (searches : List (Polling.Pass ℤ String (List String))) : Timeline :=
  let begun : Timeline := { steps := [], running := true, eventId := none, runs := [] }
  match posted with
  | none => begun
  | some (.error message) => begun.fail message (clock.failed - clock.started)
  | some (.ok eventId) =>
      let accepted := { begun with eventId := some eventId }.push
        (acceptedStep eventId (clock.pushed - clock.started))
      let acceptMs := clock.accepted - clock.started
      afterLoop clock (inMongo clock eventId lists) accepted fun mongoMs =>
        let listed := { accepted.push (mongoStep mongoMs) with
          runs := [⟨1, acceptMs, mongoMs.map Int.cast, 1, 0, none, 0⟩] }
        afterLoop clock (inES clock eventId searches) listed fun searchMs =>
          { listed.push (searchStep searchMs) with running := false }

/-! ### The client and the API -/

/-- A trace, and what happens meanwhile: the moves of the API until the request arrives, until its answer
does (or something is raised instead), and until each question is answered, with those documents that are
visible to a search and match it. -/
structure Tracing where
  marker : String
  client : String
  before : List ApiMove
  arrivedAt : ℚ
  loggedAt : ℚ
  handling : List ApiMove
  lost : Option String
  clock : Clock
  lists : List (Polling.Question ApiMove ℤ String Unit)
  searches : List (Polling.Question ApiMove ℤ String (List String))

namespace Tracing

variable (surround : Surround) (limiter : RateLimiter) (find : List Document → Filter → List Document)
  (tracing : Tracing)

/-- The moves until the answer to the request arrives. -/
def posting : List ApiMove :=
  tracing.before ++ .post tracing.client (some (traceBody tracing.marker)) tracing.arrivedAt
    tracing.loggedAt :: tracing.handling

/-- The API when the answer arrives. -/
def answered : Api := Machine.run (Api.next surround) (Api.start limiter) tracing.posting

/-- The place of the request among all. -/
def place : ℕ := (Machine.run (Api.next surround) (Api.start limiter) tracing.before).posts.length

/-- What comes of `api.ingest`; axios throws for every status but those from 200 to 299. -/
def posted : Option (Except String String) :=
  match tracing.lost with
  | some message => some (.error message)
  | none =>
      match ((tracing.answered surround limiter).posts[tracing.place surround limiter]?).bind
          Post.answer with
      | none => none
      | some (.accepted eventId) => some (.ok eventId)
      | some answer => some (.error ("Request failed with status code " ++ toString answer.status))

/-- `api.list({ user_id: 'trace-probe', limit: 50 })`. -/
def listing (api : Api) : List Event :=
  (EventQueries.listEvents surround.pydantic.normaliser (find api.system.mongo.values)
    { userId := some "trace-probe" } 50 0).items

/-- `api.search(marker, 5)`, where this is visible and matches. -/
def found (visible : List String) (api : Api) : List String :=
  visible.filter fun eventId => eventId ∈ api.system.elastic.keys

/-- The API when the first loop has ended. -/
def listed : Api :=
  Machine.run (Api.next surround) (tracing.answered surround limiter) (Polling.moves tracing.lists)

/-- The API at the end. -/
def last : Api :=
  Machine.run (Api.next surround) (tracing.listed surround limiter) (Polling.moves tracing.searches)

/-- What the hook shows. -/
def timeline : Timeline :=
  trace tracing.clock (tracing.posted surround limiter)
    (Polling.passes (Api.next surround) (fun _ => listing surround find)
      (tracing.answered surround limiter) tracing.lists)
    (Polling.passes (Api.next surround) found (tracing.listed surround limiter) tracing.searches)

end Tracing

end UseTrace

end FeathrEvents
