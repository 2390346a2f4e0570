/-
Module: FeathrEvents.Proofs.RequestLog
Purpose: Which requests the stack of middlewares logs once with their outcome: those that the limiter passes
  on, with a query that is text, unless the application is cut off.  A refused request leaves no record.
Trusted boundary: none (fully proved)
Main exports: LogSinks.Usable, log_appends, RateLimiter.HasToken, call_cases, LoggedOnce, SinkUsable,
  wrap_of_prepared, stack_loggedOnce_iff, logged_once_iff, a_refusal_is_not_logged
-/
import FeathrEvents.App.Middlewares
import FeathrEvents.Proofs.LogRequests
import FeathrEvents.Proofs.LogSinks
import FeathrEvents.Proofs.RateLimitTable

namespace FeathrEvents

open Collections (OrderedDict)
open Paths (Directory)

/-- The record of a call. -/
def LogCall.record (call : LogCall) : LogRecord where
  level := call.level
  scope := call.scope
  taskId := call.tid
  msg := call.msg
  ctx := call.ctx

namespace LogSinks

variable {sinks : LogSinks} {moment : Moment} {call : LogCall}

/-! ### One line -/

/-- A line under a task id gets a logger: the table has one, or has nothing and the file can be opened. -/
def Usable (sinks : LogSinks) (moment : Moment) (taskId : String) : Prop :=
  (∃ logger, sinks.Listed (sinkOf taskId) logger) ∨
    sinks.loggers.get? (sinkOf taskId) = none ∧ moment.opening = .opened

theorem closeOldest_lines (items : List (String × Option String)) (sinks : LogSinks) :
    (closeOldest items sinks).lines = sinks.lines := by
  induction items generalizing sinks with
  | nil => rfl
  | cons item items ih =>
      rw [closeOldest]
      split
      · rw [ih]
        cases item.2 <;> rfl
      · rfl

/-- A usable sink gives a logger that is in the table then, and writes nothing yet. -/
theorem loggerFor_of_usable {taskId : String} (usable : sinks.Usable moment taskId) :
    ∃ logger, (sinks.loggerFor moment.day moment.opening taskId).1 = .ok (some logger) ∧
      (sinks.loggerFor moment.day moment.opening taskId).2.Listed (sinkOf taskId) logger ∧
      (sinks.loggerFor moment.day moment.opening taskId).2.lines = sinks.lines := by
  rcases usable with ⟨logger, listed⟩ | ⟨absent, opened⟩
  · have known : sinks.loggers.get? (sinkOf taskId) = some (some logger) := listed
    refine ⟨logger, ?_⟩
    simp [loggerFor, known, Listed]
  · refine ⟨"agent." ++ sinkOf taskId, ?_⟩
    simp [loggerFor, absent, opened, Listed, closeOldest_lines]

/-- A line with a usable sink is written once. -/
theorem log_appends (tidy : Tidy sinks) (usable : sinks.Usable moment call.tid) :
    ∃ after, sinks.log moment call = (.ok (), after) ∧ sinks.since after = [call.record] := by
  obtain ⟨logger, found, listed, lines⟩ := loggerFor_of_usable usable
  obtain ⟨handler, only⟩ :=
    (tidy_loggerFor tidy moment.day moment.opening call.tid).single _ logger listed
  generalize written : sinks.loggerFor moment.day moment.opening call.tid = pair at found only lines
  obtain ⟨outcome, after⟩ := pair
  dsimp only at found only lines
  refine ⟨after.emit logger call.record, ?_, ?_⟩
  · simp only [log, written, found]
    rfl
  · simp [since, emit, only, lines]

theorem tidy_logged (tidy : Tidy sinks) (calls : List (Moment × LogCall)) :
    Tidy (sinks.logged calls) := by
  induction calls generalizing sinks with
  | nil => exact tidy
  | cons first calls ih => exact ih (tidy_log tidy first.1 first.2)

end LogSinks

/-! ### The limiter -/

namespace RateLimiter

/-- The bucket that a check asks has a token then. -/
def HasToken (limiter : RateLimiter) (check : Check) : Prop :=
  1 ≤ min (limiter.capacity check.kind : ℚ) ((limiter.asked check).tokens +
    (check.now - (limiter.asked check).updated) * limiter.rate check.kind)

theorem check_wait_iff {limiter : RateLimiter} {check : Check} (gains : 0 < limiter.rate check.kind)
    (bound : ℕ) : (limiter.check bound check).1 = 0 ↔ limiter.HasToken check := by
  rw [check_wait, taken, HasToken, Bucket.take]
  dsimp only
  split
  · rename_i token
    exact iff_of_true rfl token
  · rename_i short
    have wait := div_pos (sub_pos.mpr (not_le.mp short)) gains
    exact iff_of_false wait.ne' short

end RateLimiter

namespace RateLimitMiddleware

variable {middleware : RateLimitMiddleware} {scope : Scope} {limiter : RateLimiter} {now : ℚ}

/-- The limiter lets a request through: it is not subject to a limit, or its client has a token.
What it refuses never gets to the logger. -/
def Passes (middleware : RateLimitMiddleware) (now : ℚ) (scope : Scope) (limiter : RateLimiter) :
    Prop :=
  ∀ check, middleware.request now scope = .ok (some check) → limiter.HasToken check

/-- With headers that are text the client is known. -/
theorem clientOf_ok
    (headers : ∀ header ∈ scope.headers.getD [], header.1.IsValidUTF8 ∧ header.2.IsValidUTF8)
    (lower : String → String) (trusting : Bool) :
    ∃ client, clientOf lower trusting scope = .ok client := by
  obtain ⟨dict, read⟩ := (decodeHeaders_ok_iff lower _).mpr headers
  cases trusting with
  | false => exact ⟨_, rfl⟩
  | true =>
      simp only [clientOf, if_true, read, bind, Except.bind]
      split <;> exact ⟨_, rfl⟩

theorem request_ok
    (headers : ∀ header ∈ scope.headers.getD [], header.1.IsValidUTF8 ∧ header.2.IsValidUTF8)
    (middleware : RateLimitMiddleware) (now : ℚ) :
    ∃ due, middleware.request now scope = .ok due := by
  obtain ⟨client, known⟩ := clientOf_ok headers middleware.lower middleware.trustForwardedFor
  unfold request
  split
  · exact ⟨none, rfl⟩
  · split
    · exact ⟨none, rfl⟩
    · rw [known]
      exact ⟨_, rfl⟩

/-- What the middleware decides about a request whose headers are text. -/
theorem call_cases
    (headers : ∀ header ∈ scope.headers.getD [], header.1.IsValidUTF8 ∧ header.2.IsValidUTF8)
    (gains : ∀ kind, 0 < limiter.rate kind) (middleware : RateLimitMiddleware) (bound : ℕ)
    (now loggedAt : ℚ) :
    (middleware.Passes now scope limiter ∧
      ∃ after, middleware.call bound now loggedAt scope limiter = .ok (.passed, after)) ∨
    (¬ middleware.Passes now scope limiter ∧ ∃ wait logged after,
      middleware.call bound now loggedAt scope limiter = .ok (.refused wait logged, after)) := by
  obtain ⟨due, requested⟩ := request_ok headers middleware now
  unfold Passes call
  rw [requested]
  cases due with
  | none => exact .inl ⟨nofun, limiter, rfl⟩
  | some check =>
      have decided := RateLimiter.check_wait_iff (gains check.kind) bound
      simp only [bind, Except.bind, pure, Except.pure, RateLimiter.answer]
      split
      · rename_i granted
        left
        refine ⟨?_, _, rfl⟩
        rintro _ ⟨⟩
        exact decided.mp granted
      · rename_i waits
        right
        exact ⟨fun passes => waits (decided.mpr (passes check rfl)), _, _, _, rfl⟩

end RateLimitMiddleware

/-! ### The logger -/

/-- The value of `status` in the context of a record. -/
def LogRecord.status (record : LogRecord) : Option Json :=
  match record.ctx with
  | some (.object fields) => fields.lookup "status"
  | _ => none

/-- One record of the request, and one of how it ended, which carries the status that was sent.
Somebody who reads the log can pair the two. -/
structure LoggedOnce (sent : List ℕ) (records : List LogRecord) : Prop where
  request : records.countP (fun record => record.scope = "http.request") = 1
  outcome : records.countP (fun record =>
    record.scope = "http.response" ∨ record.scope = "http.error") = 1
  status : ∀ record ∈ records, record.scope = "http.response" →
    record.status = some ((sent.getLast?.map fun status => .number status).getD .null)

namespace AgentLoggerMiddleware

/-- The sinks when the application is done. -/
def left (texts : Texts) (clock : Clock) (scope : Scope) (reply : RouteReply) (sinks : LogSinks) :
    LogSinks :=
  (requested texts clock scope sinks).logged reply.calls

/-- The sink of a request is usable when its lines are written, whatever the application has logged
to other sinks in the meantime. -/
structure SinkUsable (texts : Texts) (clock : Clock) (scope : Scope) (taskId : String)
    (reply : RouteReply)
    (sinks : LogSinks) : Prop where
  requested : sinks.Usable clock.requested taskId
  responded : reply.result = .returned →
    (left texts clock scope reply sinks).Usable clock.responded taskId
  failed : ∀ error, reply.result = .raised error →
    (left texts clock scope reply sinks).Usable clock.failed taskId

/-- The records of a request that reaches the application. -/
def recordsOf (clock : Clock) (scope : Scope) (request : Prepared) (reply : RouteReply) :
    List LogRecord :=
  (requestLine scope request).record ::
    match reply.result with
    | .returned => [(responseLine clock scope request reply.sent).record]
    | .raised error => [(errorLine clock scope request error).record]
    | .interrupted _ => []

variable {texts : Texts} {readings : Readings} {scope : Scope} {request : Prepared} {reply : RouteReply}
  {ρ : Type*} {receive : ρ} {process : Process}

/-- After the application its line is written, unless it was cut off. -/
theorem afterApp_since {sinks : LogSinks} (tidy : sinks.Tidy) {clock : Clock}
    (described : Fault → AppError)
    (responded : reply.result = .returned →
      sinks.Usable clock.responded (requestLine scope request).tid)
    (failed : ∀ error, reply.result = .raised error →
      sinks.Usable clock.failed (requestLine scope request).tid) :
    (requestLine scope request).record ::
      sinks.since (afterApp clock described scope request ⟨reply.sent, reply.result, sinks⟩).2 =
        recordsOf clock scope request reply := by
  unfold afterApp recordsOf
  cases result : reply.result with
  | returned =>
      have usable : sinks.Usable clock.responded
          (responseLine clock scope request reply.sent).tid := responded result
      obtain ⟨after, written, since⟩ := LogSinks.log_appends tidy usable
      simp only [written, since]
  | raised error =>
      have usable : sinks.Usable clock.failed (errorLine clock scope request error).tid :=
        failed error result
      obtain ⟨after, written, since⟩ := LogSinks.log_appends tidy usable
      simp only [reraise, written, since]
  | interrupted error => simp [LogSinks.since]

theorem call_of_prepared {run : AppRun} {sinks after : LogSinks} {clock : Clock}
    {described : Fault → AppError} (observed : scope.type ≠ .lifespan)
    (read : prepared texts scope = .ok request)
    (written : sinks.log clock.requested (requestLine scope request) = (.ok (), after)) :
    call texts clock described scope receive run sinks =
      ⟨[(scope, receive)], (afterApp clock described scope request run).1,
        (afterApp clock described scope request run).2⟩ := by
  simp only [call, if_neg observed, read, written]

/-- A request that the logger can read, with a usable sink: what is sent for it, and its records. -/
theorem wrap_of_prepared (receive : ρ) (tidy : process.sinks.Tidy)
    (observed : scope.type ≠ .lifespan)
    (read : prepared texts scope = .ok request)
    (usable : SinkUsable texts readings.clock scope (requestLine scope request).tid reply
      process.sinks) :
    (wrap texts readings reply.handler scope receive process).sent = reply.sent ∧
      (wrap texts readings reply.handler scope receive process).records =
        recordsOf readings.clock scope request reply := by
  obtain ⟨after, written, since⟩ := LogSinks.log_appends tidy usable.requested
  have before : requested texts readings.clock scope process.sinks = after := by
    simp only [requested, if_neg observed, read, written]
  have kept : (left texts readings.clock scope reply process.sinks).Tidy := by
    have next := LogSinks.tidy_log tidy readings.clock.requested (requestLine scope request)
    rw [written] at next
    rw [left, before]
    exact LogSinks.tidy_logged next reply.calls
  have records := afterApp_since kept readings.described usable.responded usable.failed
  rw [left, before] at records
  simp only [wrap, call_of_prepared observed read written, RouteReply.handler, before, since]
  exact ⟨trivial, records⟩

/-- A request that the logger cannot read leaves no record. -/
theorem wrap_of_unread (observed : scope.type ≠ .lifespan) {fault : Fault}
    (unread : prepared texts scope = .error fault) :
    (wrap texts readings reply.handler scope receive process).records = [] := by
  simp [wrap, call, observed, unread, LogSinks.since]

section Scopes

variable {clock : Clock} (http : scope.type = .http)

include http

theorem kind_of_http (text : String) : kind scope ++ text = "http" ++ text := by
  simp [kind, http]

theorem requestLine_scope : (requestLine scope request).record.scope = "http.request" :=
  kind_of_http http _

theorem responseLine_scope {sent : List ℕ} :
    (responseLine clock scope request sent).record.scope = "http.response" :=
  kind_of_http http _

theorem errorLine_scope {error : AppError} :
    (errorLine clock scope request error).record.scope = "http.error" :=
  kind_of_http http _

/-- The records of a request over HTTP are one of it and one of its end, unless it was cut off. -/
theorem loggedOnce_iff :
    LoggedOnce reply.sent (recordsOf clock scope request reply) ↔
      ∀ error, reply.result ≠ .interrupted error := by
  unfold recordsOf
  cases result : reply.result with
  | returned =>
      refine iff_of_true ⟨?_, ?_, ?_⟩ nofun
      · simp [requestLine_scope http, responseLine_scope http]
      · simp [requestLine_scope http, responseLine_scope http]
      · intro record member response
        rcases List.mem_pair.mp member with rfl | rfl
        · simp [requestLine_scope http] at response
        · rfl
  | raised error =>
      refine iff_of_true ⟨?_, ?_, ?_⟩ nofun
      · simp [requestLine_scope http, errorLine_scope http]
      · simp [requestLine_scope http, errorLine_scope http]
      · intro record member response
        rcases List.mem_pair.mp member with rfl | rfl
        · simp [requestLine_scope http] at response
        · simp [errorLine_scope http] at response
  | interrupted error =>
      refine iff_of_false (fun logged => ?_) fun other => other error rfl
      have outcome := logged.outcome
      simp [requestLine_scope http] at outcome

end Scopes

end AgentLoggerMiddleware

/-! ### The stack -/

section Stack

open AgentLoggerMiddleware

variable {ρ : Type*} {scope : Scope} {process : Process}
  (headers : ∀ header ∈ scope.headers.getD [], header.1.IsValidUTF8 ∧ header.2.IsValidUTF8)
  (gains : ∀ kind, 0 < process.limiter.rate kind)
  (texts : Texts) (middleware : RateLimitMiddleware) (readings : Readings) (receive : ρ)
  (reply : RouteReply)

include headers gains

/-- A request that is refused never gets to the logger. -/
theorem stack_of_refused (refused : ¬ middleware.Passes readings.now scope process.limiter) :
    (stack texts middleware readings reply.handler scope receive process).sent = [429] ∧
      (stack texts middleware readings reply.handler scope receive process).records = [] := by
  rcases RateLimitMiddleware.call_cases headers gains middleware maxClients readings.now
    readings.loggedAt with ⟨passes, -⟩ | ⟨-, wait, logged, after, called⟩
  · exact absurd passes refused
  · simp [stack, buildStack, RateLimitMiddleware.wrap, called]

/-- A request that is passed on is handled by the logger. -/
theorem stack_of_passed (passes : middleware.Passes readings.now scope process.limiter) :
    ∃ after : Process, after.sinks = process.sinks ∧
      stack texts middleware readings reply.handler scope receive process =
        AgentLoggerMiddleware.wrap texts readings reply.handler scope receive after := by
  rcases RateLimitMiddleware.call_cases headers gains middleware maxClients readings.now
    readings.loggedAt with ⟨-, after, called⟩ | ⟨refused, -⟩
  · refine ⟨{ process with limiter := after }, rfl, ?_⟩
    simp [stack, buildStack, RateLimitMiddleware.wrap, called]
  · exact absurd passes refused

omit headers gains

theorem not_loggedOnce_nil (sent : List ℕ) : ¬ LoggedOnce sent [] := by
  intro logged
  cases logged.request

include headers gains

/-- The stack on a process whose sinks are tidy. -/
theorem stack_loggedOnce_iff (http : scope.type = .http) (tidy : process.sinks.Tidy)
    (usable : ∀ request, prepared texts scope = .ok request →
      SinkUsable texts readings.clock scope (requestLine scope request).tid reply process.sinks) :
    LoggedOnce (stack texts middleware readings reply.handler scope receive process).sent
        (stack texts middleware readings reply.handler scope receive process).records ↔
      (scope.queryString.getD .empty).IsValidUTF8 ∧
        middleware.Passes readings.now scope process.limiter ∧
        ∀ error, reply.result ≠ .interrupted error := by
  have observed : scope.type ≠ .lifespan := by
    rw [http]
    nofun
  by_cases passes : middleware.Passes readings.now scope process.limiter
  · obtain ⟨after, same, passed⟩ :=
      stack_of_passed headers gains texts middleware readings receive reply passes
    rw [passed]
    rw [← same] at tidy usable
    cases read : prepared texts scope with
    | error fault =>
        rw [wrap_of_unread observed read]
        refine iff_of_false (not_loggedOnce_nil _) fun condition => ?_
        obtain ⟨request, readable⟩ := (prepared_ok_iff texts scope).mpr ⟨headers, condition.1⟩
        rw [read] at readable
        cases readable
    | ok request =>
        have query := ((prepared_ok_iff texts scope).mp ⟨request, read⟩).query
        obtain ⟨sent, records⟩ := wrap_of_prepared receive tidy observed read (usable request read)
        rw [sent, records, loggedOnce_iff http]
        exact ⟨fun whole => ⟨query, passes, whole⟩, fun condition => condition.2.2⟩
  · obtain ⟨-, records⟩ :=
      stack_of_refused headers gains texts middleware readings receive reply passes
    rw [records]
    exact iff_of_false (not_loggedOnce_nil _) fun condition => passes condition.2.1

omit headers gains

/-- A request over HTTP is logged once with its outcome exactly when its query is text, the limiter lets it
through, and the application is not cut off by what is not an `Exception`. -/
theorem logged_once_iff (texts : Texts) (middleware : RateLimitMiddleware) (readings : Readings)
    (scope : Scope) (http : scope.type = .http)
    (headers : ∀ header ∈ scope.headers.getD [], header.1.IsValidUTF8 ∧ header.2.IsValidUTF8)
    (receive : ρ) (reply : RouteReply) (limiter : RateLimiter) (gains : ∀ kind, 0 < limiter.rate kind)
    (before : List (Moment × LogCall))
    (usable : ∀ request, prepared texts scope = .ok request →
      SinkUsable texts readings.clock scope (requestLine scope request).tid reply
        (LogSinks.loggedRun before)) :
    let handled := stack texts middleware readings reply.handler scope receive
      ⟨limiter, LogSinks.loggedRun before⟩
    LoggedOnce handled.sent handled.records ↔
      (scope.queryString.getD .empty).IsValidUTF8 ∧
        middleware.Passes readings.now scope limiter ∧
        ∀ error, reply.result ≠ .interrupted error :=
  stack_loggedOnce_iff headers gains texts middleware readings receive reply http
    (LogSinks.tidy_run before) usable

/-! ### A refused request -/

/-- One write in a second, and one that was made at this moment. -/
def spent : RateLimiter where
  capacity _ := 1
  rate _ := 1
  buckets := OrderedDict.empty.set ("unknown", .write) { tokens := 0, updated := 0 }

def flooded : Process := ⟨spent, LogSinks.loggedRun []⟩

/-- The moment of that write, when all files can be opened. -/
def atOnce : Readings := ⟨0, 0, clear, undescribed⟩

def posted : Scope where
  type := .http
  method := some "POST"
  path := some "/events"

def trusting : RateLimitMiddleware := ⟨id, false⟩

def accepted : RouteReply := ⟨[202], .returned, []⟩

theorem prepared_posted :
    (prepared sampleTexts posted).toOption.map Prepared.taskId = some "req-0f1e2d3c" := by
  decide +kernel

theorem usable_accepted (request : Prepared) (read : prepared sampleTexts posted = .ok request) :
    SinkUsable sampleTexts clear posted (requestLine posted request).tid accepted
      (LogSinks.loggedRun []) := by
  have taskId : request.taskId = "req-0f1e2d3c" := by
    have evaluated := prepared_posted
    rw [read] at evaluated
    exact Option.some.inj evaluated
  have tid : (requestLine posted request).tid = "req-0f1e2d3c" := by
    simp [requestLine, LogCall.tid, taskId]
  rw [tid]
  refine ⟨.inr ⟨rfl, rfl⟩, fun _ => .inl ⟨"agent.requests", ?_⟩, nofun⟩
  unfold LogSinks.Listed
  decide +kernel

theorem posted_headers :
    ∀ header ∈ posted.headers.getD [], header.1.IsValidUTF8 ∧ header.2.IsValidUTF8 := by
  intro header member
  cases member

/-- A write that finds a token is logged once. -/
theorem an_accepted_write_is_logged :
    LoggedOnce
      (stack sampleTexts trusting atOnce accepted.handler posted ()
        ⟨RateLimiter.create 2000 3000 10, LogSinks.loggedRun []⟩).sent
      (stack sampleTexts trusting atOnce accepted.handler posted ()
        ⟨RateLimiter.create 2000 3000 10, LogSinks.loggedRun []⟩).records := by
  have gains : ∀ kind, 0 < (RateLimiter.create 2000 3000 10).rate kind := by
    intro kind
    cases kind <;> decide +kernel
  have passes : trusting.Passes 0 posted (RateLimiter.create 2000 3000 10) := by
    rintro _ ⟨⟩
    unfold RateLimiter.HasToken
    decide +kernel
  have query : (posted.queryString.getD .empty).IsValidUTF8 := by decide +kernel
  exact (logged_once_iff sampleTexts trusting atOnce posted rfl posted_headers () accepted
    (RateLimiter.create 2000 3000 10) gains [] usable_accepted).mpr ⟨query, passes, nofun⟩

/-- A write that is refused is answered 429 and leaves no record. -/
theorem a_refusal_is_not_logged :
    (stack sampleTexts trusting atOnce accepted.handler posted () flooded).sent = [429] ∧
      ¬ LoggedOnce (stack sampleTexts trusting atOnce accepted.handler posted () flooded).sent
        (stack sampleTexts trusting atOnce accepted.handler posted () flooded).records := by
  have gains : ∀ kind, 0 < flooded.limiter.rate kind := fun _ => one_pos
  have refused : ¬ trusting.Passes atOnce.now posted flooded.limiter := by
    intro passes
    have token := passes ⟨"unknown", .write, 0⟩ rfl
    unfold RateLimiter.HasToken at token
    revert token
    decide +kernel
  have handled := stack_of_refused posted_headers gains sampleTexts trusting atOnce () accepted
    refused
  rw [handled.1, handled.2]
  exact ⟨rfl, not_loggedOnce_nil _⟩

end Stack

end FeathrEvents
