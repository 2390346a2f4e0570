/-
Module: FeathrEvents.App.Middlewares
Purpose: The stack of middlewares around the application: what each one makes of the application inside it,
  and the order in which `main.py` registers them.
Trusted boundary: translation by hand of the middleware registration of `app/main.py`.
  `FastAPI.add_middleware` wraps what was registered before, so the last one registered is the outermost, as
  its documentation says; what Starlette itself puts around and inside of these two is left out.  What the
  application does with a request is given, and with it what other requests write to the log
  while it runs.
Main exports: Process, Handled, Handler, RouteReply, RouteReply.handler, Readings, AgentLoggerMiddleware.requested,
  AgentLoggerMiddleware.wrap, RateLimitMiddleware.wrap, buildStack, stack
-/
import FeathrEvents.App.Observability
import FeathrEvents.App.RateLimitMiddleware

namespace FeathrEvents

/-- What the middlewares share between requests. -/
structure Process where
  limiter : RateLimiter
  sinks : LogSinks

/-- What becomes of a request: the statuses that are sent, how it ends, and what the logger writes for
it. -/
structure Handled where
  sent : List ℕ
  result : AppResult
  records : List LogRecord
  process : Process

/-- An ASGI application, as it handles one request. -/
abbrev Handler (ρ : Type*) := Scope → ρ → Process → Handled

/-- What the routes do with a request, and the lines that are logged meanwhile, by it and by others. -/
structure RouteReply where
  sent : List ℕ
  result : AppResult
  calls : List (Moment × LogCall) := []

variable {ρ : Type*}

/-- The sinks after some calls of `log`. -/
def LogSinks.logged (sinks : LogSinks) (calls : List (Moment × LogCall)) : LogSinks :=
  calls.foldl (fun sinks call => (sinks.log call.1 call.2).2) sinks

/-- The records that were written between two moments. -/
def LogSinks.since (before after : LogSinks) : List LogRecord :=
  (after.lines.drop before.lines.length).map Prod.snd

/-- The routes as the innermost application. -/
def RouteReply.handler (reply : RouteReply) : Handler ρ := fun _ _ process =>
  ⟨reply.sent, reply.result, [], { process with sinks := process.sinks.logged reply.calls }⟩

/-- The clocks that are read for a request, and a fault as the exception that it is. -/
structure Readings where
  now : ℚ
  loggedAt : ℚ
  clock : AgentLoggerMiddleware.Clock
  described : Fault → AppError

/-- How a call ends that raises this; what the application raised is raised as it was. -/
def Raised.result (described : Fault → AppError) (inner : AppResult) : Option Raised → AppResult
  | none => .returned
  | some (.own fault) => .raised (described fault)
  | some (.app _) => inner

namespace AgentLoggerMiddleware

/-- The sinks that the application finds. -/
def requested (texts : Texts) (clock : Clock) (scope : Scope) (sinks : LogSinks) : LogSinks :=
  if scope.type = .lifespan then sinks
  else
    match prepared texts scope with
    | .error _ => sinks
    | .ok request => (sinks.log clock.requested (requestLine scope request)).2

/-- The middleware around an application. -/
def wrap (texts : Texts) (readings : Readings) (app : Handler ρ) : Handler ρ :=
  fun scope receive process =>
    let before := requested texts readings.clock scope process.sinks
    let inner := app scope receive { process with sinks := before }
    let served := call texts readings.clock readings.described scope receive
      ⟨inner.sent, inner.result, inner.process.sinks⟩ process.sinks
    let result := Raised.result readings.described inner.result served.raised
    match served.invocations with
    | [] =>
        ⟨[], result, process.sinks.since served.sinks, { process with sinks := served.sinks }⟩
    | _ :: _ =>
        { inner with
          result := result
          records := process.sinks.since before ++ inner.records ++
            inner.process.sinks.since served.sinks
          process := { inner.process with sinks := served.sinks } }

end AgentLoggerMiddleware

namespace RateLimitMiddleware

/-- The middleware around an application, which does not learn of a request that is refused. -/
def wrap (middleware : RateLimitMiddleware) (bound : ℕ) (readings : Readings) (app : Handler ρ) :
    Handler ρ :=
  fun scope receive process =>
    match middleware.call bound readings.now readings.loggedAt scope process.limiter with
    | .error fault => ⟨[], .raised (readings.described fault), [], process⟩
    | .ok (.passed, limiter) => app scope receive { process with limiter := limiter }
    | .ok (.refused _ _, limiter) => ⟨[429], .returned, [], { process with limiter := limiter }⟩

end RateLimitMiddleware

/-- `add_middleware` for each of a list: the last one registered is the outermost. -/
def buildStack (registered : List (Handler ρ → Handler ρ)) (app : Handler ρ) : Handler ρ :=
  registered.foldl (fun app middleware => middleware app) app

/-- The stack of `main.py` with its rate limit enabled. -/
def stack (texts : Texts) (middleware : RateLimitMiddleware) (readings : Readings)
    (app : Handler ρ) : Handler ρ :=
  buildStack
    [AgentLoggerMiddleware.wrap texts readings, middleware.wrap maxClients readings] app

end FeathrEvents
