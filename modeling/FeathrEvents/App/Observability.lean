/-
Module: FeathrEvents.App.Observability
Purpose: The structured log as the code computes it: the table of sinks with the handlers of their loggers,
  one log line, and the middleware that writes the lines of a request around the application.
Trusted boundary: translation by hand of `app/observability.py`.  What an attempt to open a file does,
  the clock readings, `uuid4`, `str.lower` and `urllib`'s `unquote_plus` are arguments; `Logger.log` hands
  a record to every handler of the logger and raises nothing, as the `logging` package documents.  The
  `Handler.close()` of an evicted sink is taken to succeed: it stands outside the `try`, and an `OSError` of
  its last flush, on a full disk, would go through `log`.
Main exports: Opening, Level, LogRecord, LogFile, LogSinks, sinkOf, logFile, LogSinks.loggerFor, LogCall,
  Moment, LogSinks.log, redact, parseQs, resolveTaskId, Prepared, AppRun, Served,
  AgentLoggerMiddleware.call, sampleDay, sampleTexts
-/
import Mathlib.Algebra.Order.Field.Rat
import Mathlib.Data.Rat.Floor
import FeathrEvents.App.Asgi
import FeathrEvents.App.Models
import FeathrEvents.Lib.Paths

namespace FeathrEvents

open Collections (OrderedDict)
open Paths (Component Directory Name)

/-! ### Sinks -/

/-- `SHARED_SINK`. -/
def sharedSink : String := "requests"

/-- `GENERATED_PREFIX`. -/
def generatedPrefix : String := "req-"

/-- `MAX_SINKS`. -/
def maxSinks : ℕ := 32

/-- What comes of an attempt to open the file of a sink.  The `ValueError` is that of a path with an
embedded null byte. -/
inductive Opening where
  | opened
  | osError
  | valueError
deriving DecidableEq

inductive Level where
  | info
  | error
deriving DecidableEq

/-- A record as `log` passes it to a logger. -/
structure LogRecord where
  level : Level
  scope : String
  taskId : String
  msg : String
  ctx : Option Json

/-- The file of a handler, and the directory of the day on which it was opened. -/
structure LogFile where
  day : Directory
  path : List Component

/-- The sinks of the process: `_loggers` with the names of its loggers, the handlers that are attached to
the logger of each name, the files of all handlers ever opened, the handlers that were closed, and the
records that each handler was given.  A handler is its position among the files. -/
structure LogSinks where
  loggers : OrderedDict String (Option String) := .empty
  handlers : OrderedDict String (List ℕ) := .empty
  files : List LogFile := []
  closed : List ℕ := []
  lines : List (ℕ × LogRecord) := []

/-- The sink of a task id. -/
def sinkOf (taskId : String) : String :=
  if startsWith taskId generatedPrefix then sharedSink else taskId

/-- The file of a sink: `day_dir / f"{sink}.log"`, as `RotatingFileHandler` makes it absolute. -/
def logFile (day : Directory) (sink : String) : LogFile where
  day := day
  path := Paths.resolve (Paths.join day.path (sink ++ ".log").toList)

namespace LogSinks

/-- The attribute `handlers` of the logger of a name. -/
def handlersOf (sinks : LogSinks) (logger : String) : List ℕ :=
  (sinks.handlers.get? logger).getD []

/-- The loop over the handlers of an evicted logger, which closes and removes all of them. -/
def closeLogger (sinks : LogSinks) : Option String → LogSinks
  | none => sinks
  | some logger =>
      { sinks with
        handlers := sinks.handlers.set logger []
        closed := sinks.closed ++ sinks.handlersOf logger }

/-- The `while` loop that closes the least recently used sinks; the items are those of the table. -/
def closeOldest : List (String × Option String) → LogSinks → LogSinks
  | [], sinks => sinks
  | (_, evicted) :: rest, sinks =>
      if maxSinks ≤ sinks.loggers.size then
        closeOldest rest
          ({ sinks with loggers := sinks.loggers.dropFirst 1 }.closeLogger evicted)
      else sinks

/-- `_logger_for` on a day: the name of the logger, `none` when the sink is unusable. -/
def loggerFor (day : Directory) (opening : Opening) (taskId : String) (sinks : LogSinks) :
    Except Fault (Option String) × LogSinks :=
  let sink := sinkOf taskId
  match sinks.loggers.get? sink with
  | some logger => (.ok logger, { sinks with loggers := sinks.loggers.moveToEnd sink })
  | none =>
      let sinks := closeOldest sinks.loggers.items sinks
      match opening with
      | .valueError => (.error .valueError, sinks)
      | .osError => (.ok none, { sinks with loggers := sinks.loggers.set sink none })
      | .opened =>
          let logger := "agent." ++ sink
          (.ok (some logger),
            { sinks with
              loggers := sinks.loggers.set sink (some logger)
              handlers := sinks.handlers.set logger
                (sinks.handlersOf logger ++ [sinks.files.length])
              files := sinks.files ++ [logFile day sink] })

/-- `logger.log`: every handler of the logger is given the record. -/
def emit (logger : String) (record : LogRecord) (sinks : LogSinks) : LogSinks :=
  { sinks with
    lines := sinks.lines ++ (sinks.handlersOf logger).map fun handler => (handler, record) }

end LogSinks

/-- A call of `log`, with the task id of its context. -/
structure LogCall where
  scope : String
  msg : String
  ctx : Option Json := none
  level : Level := .info
  taskId : Option String := none
  context : String := ""

/-- `task_id or _task_id.get() or "untracked"`. -/
def LogCall.tid (call : LogCall) : String :=
  (call.taskId.filter (· ≠ "")).getD (if call.context ≠ "" then call.context else "untracked")

/-- The directory of the day, and what comes of opening a file in it. -/
structure Moment where
  day : Directory
  opening : Opening

/-- `log`. -/
def LogSinks.log (moment : Moment) (call : LogCall) (sinks : LogSinks) :
    Except Fault Unit × LogSinks :=
  match sinks.loggerFor moment.day moment.opening call.tid with
  | (.error fault, sinks) => (.error fault, sinks)
  | (.ok none, sinks) => (.ok (), sinks)
  | (.ok (some logger), sinks) =>
      (.ok (), sinks.emit logger
        { level := call.level, scope := call.scope, taskId := call.tid, msg := call.msg,
          ctx := call.ctx })

/-! ### Requests -/

/-- `REDACTED_HEADERS`. -/
def redactedHeaders : List String := ["authorization", "cookie", "x-api-key"]

/-- `_redact`. -/
def redact (headers : OrderedDict String String) : List (String × Json) :=
  headers.items.map fun header =>
    (header.1, .string (if header.1 ∈ redactedHeaders then "[REDACTED]" else header.2))

/-- The pairs of a query string; a name without a value is left out. -/
def parseQsl (unquotePlus : String → String) (query : String) : List (String × String) :=
  (query.toList.splitOn '&').filterMap fun part =>
    let name := part.takeWhile (· ≠ '=')
    let value := (part.dropWhile (· ≠ '=')).drop 1
    if value = [] then none
    else some (unquotePlus (String.ofList name), unquotePlus (String.ofList value))

/-- `parse_qs`: the values of each name. -/
def parseQs (unquotePlus : String → String) (query : String) : OrderedDict String (List String) :=
  (parseQsl unquotePlus query).foldl
    (fun parsed pair => parsed.set pair.1 ((parsed.get? pair.1).getD [] ++ [pair.2])) .empty

/-- `str.lower`, `unquote_plus`, and the hexadecimal text of the `uuid4` that is drawn. -/
structure Texts where
  lower : String → String
  unquotePlus : String → String
  hex : String

/-- `_resolve_task_id`. -/
def resolveTaskId (texts : Texts) (scope : Scope) (headers : OrderedDict String String) :
    Except Fault String :=
  match (headers.get? "x-agent-task-id").filter (· ≠ "") with
  | some taskId => return taskId
  | none => do
      let query := parseQs texts.unquotePlus (← decode (scope.queryString.getD .empty))
      match query.get? "agent_task_id" with
      | some (value :: _) => return value
      | _ => return generatedPrefix ++ String.ofList (texts.hex.toList.take 8)

/-- What the middleware takes from a scope before it writes the first line. -/
structure Prepared where
  headers : OrderedDict String String
  taskId : String
  query : String

def prepared (texts : Texts) (scope : Scope) : Except Fault Prepared := do
  let headers ← decodeHeaders texts.lower (scope.headers.getD [])
  let taskId ← resolveTaskId texts scope headers
  let query ← decode (scope.queryString.getD .empty)
  return ⟨headers, taskId, query⟩

/-- An exception of the application: the name of its type, its text and its traceback. -/
structure AppError where
  typeName : String
  text : String
  stack : String

/-- How the application ends.  It is `interrupted` by what is not an `Exception`, such as a
cancellation. -/
inductive AppResult where
  | returned
  | raised (error : AppError)
  | interrupted (error : AppError)

/-- What the application does with one request: the statuses of the responses that it starts, how it
ends, and the sinks as they are then. -/
structure AppRun where
  statuses : List ℕ
  result : AppResult
  sinks : LogSinks

/-- What reaches the server: a fault of the middleware itself or what the application raised. -/
inductive Raised where
  | own (fault : Fault)
  | app (error : AppError)

def AppResult.raises : AppResult → Option Raised
  | .returned => none
  | .raised error => some (.app error)
  | .interrupted error => some (.app error)

/-- What becomes of a request: the calls of the application, what is raised, and the sinks after it. -/
structure Served (ρ : Type*) where
  invocations : List (Scope × ρ)
  raised : Option Raised
  sinks : LogSinks

/-- `round`: to the nearest integer, to the even one of two. -/
def roundHalfEven (x : ℚ) : ℤ :=
  if x - ⌊x⌋ < 1 / 2 then ⌊x⌋
  else if 1 / 2 < x - ⌊x⌋ then ⌊x⌋ + 1
  else if 2 ∣ ⌊x⌋ then ⌊x⌋ else ⌊x⌋ + 1

namespace AgentLoggerMiddleware

/-- The moments of the first line and of the lines after the application, and the seconds between
them. -/
structure Clock where
  requested : Moment
  responded : Moment
  failed : Moment
  elapsed : ℚ

def kind (scope : Scope) : String := if scope.type = .websocket then "ws" else "http"

def target (scope : Scope) : String := scope.method.getD "WS" ++ " " ++ scope.path.getD ""

/-- The first line of a request. -/
def requestLine (scope : Scope) (request : Prepared) : LogCall where
  scope := kind scope ++ ".request"
  msg := target scope
  ctx := some (.object [("headers", .object (redact request.headers)),
    ("query", .string request.query)])
  context := request.taskId

/-- `round((time.perf_counter() - start) * 1000)`. -/
def durationMs (clock : Clock) : Json := .number (roundHalfEven (clock.elapsed * 1000))

/-- The line of a response; the last status sent counts. -/
def responseLine (clock : Clock) (scope : Scope) (request : Prepared) (statuses : List ℕ) :
    LogCall where
  scope := kind scope ++ ".response"
  msg := target scope ++ " -> " ++ (statuses.getLast?.map toString).getD "closed"
  ctx := some (.object [("durationMs", durationMs clock),
    ("status", (statuses.getLast?.map fun status => .number status).getD .null)])
  context := request.taskId

/-- The line of an exception. -/
def errorLine (clock : Clock) (scope : Scope) (request : Prepared)
    (error : AppError) : LogCall where
  scope := kind scope ++ ".error"
  msg := target scope ++ " -> " ++ error.typeName
  level := .error
  ctx := some (.object [("durationMs", durationMs clock), ("error", .string error.text),
    ("stack", .string error.stack)])
  context := request.taskId

/-- The `except` branch: the line of the exception, which is raised again unless that line raises. -/
def reraise (clock : Clock) (scope : Scope) (request : Prepared) (error : AppError)
    (raised : Raised)
    (sinks : LogSinks) : Option Raised × LogSinks :=
  match sinks.log clock.failed (errorLine clock scope request error) with
  | (.error fault, sinks) => (some (.own fault), sinks)
  | (.ok (), sinks) => (some raised, sinks)

/-- The lines after the application: what is raised, and the sinks.  `described` is a fault as the
exception that the `except` branch sees. -/
def afterApp (clock : Clock) (described : Fault → AppError) (scope : Scope) (request : Prepared)
    (run : AppRun) : Option Raised × LogSinks :=
  match run.result with
  | .interrupted error => (some (.app error), run.sinks)
  | .raised error => reraise clock scope request error (.app error) run.sinks
  | .returned =>
      match run.sinks.log clock.responded (responseLine clock scope request run.statuses) with
      | (.ok (), sinks) => (none, sinks)
      -- the line of the response is written inside the `try`
      | (.error fault, sinks) =>
          reraise clock scope request (described fault) (.own fault) sinks

variable {ρ : Type*}

/-- `__call__` on a request whose application run, if it is called, is given. -/
def call (texts : Texts) (clock : Clock) (described : Fault → AppError) (scope : Scope)
    (receive : ρ)
    (run : AppRun) (sinks : LogSinks) : Served ρ :=
  if scope.type = .lifespan then ⟨[(scope, receive)], run.result.raises, run.sinks⟩
  else
    match prepared texts scope with
    | .error fault => ⟨[], some (.own fault), sinks⟩
    | .ok request =>
        match sinks.log clock.requested (requestLine scope request) with
        | (.error fault, sinks) => ⟨[], some (.own fault), sinks⟩
        | (.ok (), _) =>
            let (raised, sinks) := afterApp clock described scope request run
            ⟨[(scope, receive)], raised, sinks⟩

end AgentLoggerMiddleware

/-! ### For runs on concrete inputs -/

/-- `/srv/.logs/agent/2026-01-01`. -/
def sampleDay : Directory where
  path := ["srv".toList, ".logs".toList, "agent".toList, "2026-01-01".toList]
  resolved := by decide

/-- Texts in lower case without escapes. -/
def sampleTexts : Texts := ⟨id, id, "0f1e2d3c"⟩

end FeathrEvents
