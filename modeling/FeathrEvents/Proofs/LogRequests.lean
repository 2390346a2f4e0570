/-
Module: FeathrEvents.Proofs.LogRequests
Purpose: When the log leaves a request alone: the application is called once and only what it raises is
  raised, exactly when the headers and the query are text and no file has to be opened under a name with
  a null byte.
Trusted boundary: none
Main exports: Readable, Breaks, Loggable, Harmless, decodeHeaders_ok_iff, prepared_ok_iff, log_cases,
  afterApp_raises_iff, harmless_iff
-/
import FeathrEvents.App.Observability

namespace FeathrEvents

open Collections (OrderedDict)

/-- The headers and the query of a scope are UTF-8.  The middleware decodes them before it enters
its `try`, so what is not reaches the server as an exception. -/
structure Readable (scope : Scope) : Prop where
  headers : ∀ header ∈ scope.headers.getD [], header.1.IsValidUTF8 ∧ header.2.IsValidUTF8
  query : (scope.queryString.getD .empty).IsValidUTF8

/-- The sink of a task id is not in the table, and opening its file raises a `ValueError`. -/
def LogSinks.Breaks (sinks : LogSinks) (moment : Moment) (taskId : String) : Prop :=
  sinks.loggers.get? (sinkOf taskId) = none ∧ moment.opening = .valueError

instance (sinks : LogSinks) (moment : Moment) (taskId : String) :
    Decidable (sinks.Breaks moment taskId) :=
  inferInstanceAs (Decidable (sinks.loggers.get? (sinkOf taskId) = none ∧
    moment.opening = .valueError))

/-! ### Reading the scope -/

theorem decode_ok_iff (bytes : ByteArray) :
    (∃ text, decode bytes = .ok text) ↔ bytes.IsValidUTF8 := by
  unfold decode String.fromUTF8?
  by_cases valid : bytes.IsValidUTF8
  · simp [valid]
  · simp [valid]

/-- The comprehension over the headers succeeds exactly when all of them are text. -/
theorem decodeHeaders_ok_iff (lower : String → String) (headers : List (ByteArray × ByteArray)) :
    (∃ dict, decodeHeaders lower headers = .ok dict) ↔
      ∀ header ∈ headers, header.1.IsValidUTF8 ∧ header.2.IsValidUTF8 := by
  rw [decodeHeaders]
  generalize (OrderedDict.empty : OrderedDict String String) = dict
  induction headers generalizing dict with
  | nil => simp [pure, Except.pure]
  | cons header headers ih =>
      rw [List.forall_mem_cons, ← decode_ok_iff, ← decode_ok_iff, List.foldlM_cons]
      cases name : decode header.1 with
      | error fault => simp [bind, Except.bind]
      | ok text =>
          cases value : decode header.2 with
          | error fault => simp [bind, Except.bind]
          | ok other =>
              apply (ih (dict.set (lower text) other)).trans
              simp

/-- With a query that is text the task id is found or made up. -/
theorem resolveTaskId_ok (texts : Texts) {scope : Scope} (headers : OrderedDict String String)
    (query : (scope.queryString.getD .empty).IsValidUTF8) :
    ∃ taskId, resolveTaskId texts scope headers = .ok taskId := by
  obtain ⟨text, decoded⟩ := (decode_ok_iff _).mpr query
  unfold resolveTaskId
  split
  · exact ⟨_, rfl⟩
  · simp only [decoded, bind, Except.bind]
    split <;> exact ⟨_, rfl⟩

/-- Everything before the first line succeeds exactly for the scopes that can be read. -/
theorem prepared_ok_iff (texts : Texts) (scope : Scope) :
    (∃ request, prepared texts scope = .ok request) ↔ Readable scope := by
  constructor
  · rintro ⟨request, done⟩
    cases read : decodeHeaders texts.lower (scope.headers.getD []) with
    | error fault => simp [prepared, read, bind, Except.bind] at done
    | ok dict =>
        cases resolved : resolveTaskId texts scope dict with
        | error fault => simp [prepared, read, resolved, bind, Except.bind] at done
        | ok taskId =>
            cases decoded : decode (scope.queryString.getD .empty) with
            | error fault => simp [prepared, read, resolved, decoded, bind, Except.bind] at done
            | ok text =>
                exact ⟨(decodeHeaders_ok_iff texts.lower _).mp ⟨dict, read⟩,
                  (decode_ok_iff _).mp ⟨text, decoded⟩⟩
  · rintro ⟨headers, query⟩
    obtain ⟨dict, read⟩ := (decodeHeaders_ok_iff texts.lower _).mpr headers
    obtain ⟨text, decoded⟩ := (decode_ok_iff _).mpr query
    obtain ⟨taskId, resolved⟩ := resolveTaskId_ok texts dict query
    simp only [prepared, read, resolved, decoded, bind, Except.bind]
    exact ⟨_, rfl⟩

/-! ### One line -/

/-- A line raises a `ValueError` when its sink breaks, and otherwise nothing. -/
theorem log_cases (sinks : LogSinks) (moment : Moment) (call : LogCall) :
    (sinks.Breaks moment call.tid ∧
      ∃ after, sinks.log moment call = (.error .valueError, after)) ∨
    (¬ sinks.Breaks moment call.tid ∧ ∃ after, sinks.log moment call = (.ok (), after)) := by
  unfold LogSinks.Breaks
  cases known : sinks.loggers.get? (sinkOf call.tid) with
  | some logger =>
      right
      cases logger <;> simp [LogSinks.log, LogSinks.loggerFor, known]
  | none =>
      cases opening : moment.opening with
      | valueError => simp [LogSinks.log, LogSinks.loggerFor, known, opening]
      | osError => simp [LogSinks.log, LogSinks.loggerFor, known, opening]
      | opened => simp [LogSinks.log, LogSinks.loggerFor, known, opening]

namespace AgentLoggerMiddleware

/-- The task id under which the lines of a request are written. -/
def lineTaskId (scope : Scope) (request : Prepared) : String := (requestLine scope request).tid

/-- No line of a request breaks: neither the first one, nor the one after the application, which finds
the sinks as the application leaves them. -/
structure Loggable (clock : Clock) (taskId : String) (run : AppRun) (sinks : LogSinks) : Prop where
  requested : ¬ sinks.Breaks clock.requested taskId
  responded : run.result = .returned → ¬ run.sinks.Breaks clock.responded taskId
  failed : ∀ error, run.result = .raised error → ¬ run.sinks.Breaks clock.failed taskId

variable {ρ : Type*}

/-- The application is called exactly once, with the scope and the receiver of the request, and what is
raised is what it raises. -/
structure Harmless (scope : Scope) (receive : ρ) (run : AppRun) (served : Served ρ) : Prop where
  invoked : served.invocations = [(scope, receive)]
  raised : served.raised = run.result.raises

variable {clock : Clock} {described : Fault → AppError} {scope : Scope} {request : Prepared}

/-- The `except` branch raises something, and what it was given unless its line breaks. -/
theorem reraise_raises (clock : Clock) (scope : Scope) (request : Prepared) (error : AppError)
    (raised : Raised) (sinks : LogSinks) :
    (sinks.Breaks clock.failed (lineTaskId scope request) ∧
      (reraise clock scope request error raised sinks).1 = some (.own .valueError)) ∨
    (¬ sinks.Breaks clock.failed (lineTaskId scope request) ∧
      (reraise clock scope request error raised sinks).1 = some raised) := by
  unfold reraise
  rcases log_cases sinks clock.failed (errorLine clock scope request error) with
    ⟨breaks, after, written⟩ | ⟨holds, after, written⟩
  · exact .inl ⟨breaks, by rw [written]⟩
  · exact .inr ⟨holds, by rw [written]⟩

/-- After the application only what it raises is raised exactly when its line does not break. -/
theorem afterApp_raises_iff (run : AppRun) :
    (afterApp clock described scope request run).1 = run.result.raises ↔
      (run.result = .returned → ¬ run.sinks.Breaks clock.responded (lineTaskId scope request)) ∧
      ∀ error, run.result = .raised error →
        ¬ run.sinks.Breaks clock.failed (lineTaskId scope request) := by
  unfold afterApp
  cases result : run.result with
  | interrupted error => simp [AppResult.raises]
  | raised error =>
      rcases reraise_raises clock scope request error (.app error) run.sinks with ⟨breaks, own⟩ | ⟨holds, same⟩
      · simp [AppResult.raises, own, breaks]
      · simp [AppResult.raises, same, holds]
  | returned =>
      rcases log_cases run.sinks clock.responded (responseLine clock scope request run.statuses) with
        ⟨breaks, after, written⟩ | ⟨holds, after, written⟩
      · -- the branch that handles an exception of the application raises the fault of its line
        have own : lineTaskId scope request =
            (responseLine clock scope request run.statuses).tid := rfl
        rcases reraise_raises clock scope request (described .valueError) (.own .valueError) after with
          ⟨-, raises⟩ | ⟨-, raises⟩
        · simp [AppResult.raises, written, raises, own, breaks]
        · simp [AppResult.raises, written, raises, own, breaks]
      · have own : lineTaskId scope request =
            (responseLine clock scope request run.statuses).tid := rfl
        simp [AppResult.raises, written, own, holds]

/-- A request is left alone exactly when it can be read and none of its lines breaks: then the log
cannot be told from its absence, by the application or by the server. -/
theorem harmless_iff (texts : Texts) (clock : Clock) (described : Fault → AppError) (scope : Scope)
    (observed : scope.type ≠ .lifespan) (receive : ρ) (run : AppRun) (sinks : LogSinks) :
    Harmless scope receive run (call texts clock described scope receive run sinks) ↔
      Readable scope ∧ ∀ request, prepared texts scope = .ok request →
        Loggable clock (lineTaskId scope request) run sinks := by
  rw [call, if_neg observed, ← prepared_ok_iff texts]
  cases done : prepared texts scope with
  | error fault =>
      constructor
      · intro harmless
        cases harmless.invoked
      · rintro ⟨⟨request, read⟩, -⟩
        cases read
  | ok request =>
      have own : lineTaskId scope request = (requestLine scope request).tid := rfl
      rcases log_cases sinks clock.requested (requestLine scope request) with
        ⟨breaks, after, written⟩ | ⟨holds, after, written⟩
      · constructor
        · intro harmless
          simp only [written] at harmless
          cases harmless.invoked
        · rintro ⟨-, loggable⟩
          exact absurd breaks (loggable request rfl).requested
      · simp only [written]
        constructor
        · intro harmless
          refine ⟨⟨request, rfl⟩, ?_⟩
          rintro _ ⟨⟩
          obtain ⟨responded, failed⟩ := afterApp_raises_iff run |>.mp harmless.raised
          exact ⟨holds, responded, failed⟩
        · rintro ⟨-, loggable⟩
          obtain ⟨-, responded, failed⟩ := loggable request rfl
          exact ⟨rfl, (afterApp_raises_iff run).mpr ⟨responded, failed⟩⟩

/-- All files can be opened. -/
def clear : Clock := ⟨⟨sampleDay, .opened⟩, ⟨sampleDay, .opened⟩, ⟨sampleDay, .opened⟩, 0⟩

/-- A fault without a traceback. -/
def undescribed : Fault → AppError := fun _ => ⟨"ValueError", "embedded null byte", ""⟩

/-- The application answers 200. -/
def answered : AppRun := ⟨[200], .returned, {}⟩

/-- A request with this value of a header. -/
def tagged (value : ByteArray) : Scope where
  type := .http
  method := some "GET"
  path := some "/events"
  headers := some [("x-tag".toUTF8, value)]

theorem harmless_iff_tagged :
    Harmless (tagged "a".toUTF8) () answered
      (call sampleTexts clear undescribed (tagged "a".toUTF8) () answered {}) := by
  have observed : (tagged "a".toUTF8).type ≠ .lifespan := by decide
  have readable : Readable (tagged "a".toUTF8) := ⟨by decide +kernel, by decide +kernel⟩
  apply (harmless_iff sampleTexts clear undescribed (tagged "a".toUTF8) observed () answered {}).mpr
  refine ⟨readable, fun request _ => ⟨?_, fun _ => ?_, fun error _ => ?_⟩⟩ <;>
    exact fun breaks => nomatch breaks.2

/-- A header with a byte that is not UTF-8 keeps the application from being called. -/
theorem a_byte_fails_a_request :
    ¬ Harmless (tagged ⟨#[255]⟩) () answered
      (call sampleTexts clear undescribed (tagged ⟨#[255]⟩) () answered {}) := by
  intro harmless
  have none : (call sampleTexts clear undescribed (tagged ⟨#[255]⟩) () answered {}).invocations = [] :=
    rfl
  have once := harmless.invoked
  rw [none] at once
  cases once

end AgentLoggerMiddleware

end FeathrEvents
