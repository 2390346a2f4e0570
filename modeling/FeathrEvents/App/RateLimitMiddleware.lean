/-
Module: FeathrEvents.App.RateLimitMiddleware
Purpose: Which bucket a request draws from, and what the rate-limiting middleware does with it.
Trusted boundary: translation by hand of `classify`, `client_of` and `RateLimitMiddleware` in
  `app/ratelimit.py`
Main exports: exemptPrefixes, classify, Scope.peer, lastPart, clientOf, RateLimitMiddleware,
  RateLimitMiddleware.request, RateLimitMiddleware.call
-/
import FeathrEvents.App.Asgi
import FeathrEvents.App.RateLimit

namespace FeathrEvents

/-- `EXEMPT_PREFIXES`. -/
def exemptPrefixes : List String := ["/health", "/demo", "/docs", "/redoc", "/openapi.json"]

/-- `none` is not subject to a limit. -/
def classify (method path : String) : Option Kind :=
  if exemptPrefixes.any (startsWith path) then none
  else if method ∈ ["POST", "PUT", "PATCH", "DELETE"] then some .write
  else some .read

/-- The address of the socket. -/
def Scope.peer (scope : Scope) : String :=
  match scope.client with
  | some client => client.1
  | none => "unknown"

/-- `text.rsplit(",", 1)[-1]`. -/
def lastPart (text : String) : String :=
  String.ofList ((text.toList.reverse.takeWhile (· ≠ ',')).reverse)

/-- `client_of`: the address the bucket belongs to. -/
def clientOf (lower : String → String) (trustForwardedFor : Bool) (scope : Scope) :
    Except Fault String :=
  if trustForwardedFor then do
    let headers ← decodeHeaders lower (scope.headers.getD [])
    match (headers.get? "x-forwarded-for").filter (· ≠ "") with
    | some forwarded => return strip (lastPart forwarded)
    | none => return scope.peer
  else return scope.peer

/-- The attributes of `RateLimitMiddleware`, the limiter apart, and what it uses of its surroundings. -/
structure RateLimitMiddleware where
  lower : String → String
  trustForwardedFor : Bool

namespace RateLimitMiddleware

/-- The check that `__call__` makes for a request; `none` is passed on without one. -/
def request (middleware : RateLimitMiddleware) (now : ℚ) (scope : Scope) :
    Except Fault (Option Check) :=
  if scope.type ≠ .http then return none
  else
    match classify (scope.method.getD "GET") (scope.path.getD "") with
    | none => return none
    | some kind => do
        let client ← clientOf middleware.lower middleware.trustForwardedFor scope
        return some { client := client, kind := kind, now := now }

/-- `__call__`, with its clock readings: what becomes of the request, and the limiter after it. -/
def call (middleware : RateLimitMiddleware) (bound : ℕ) (now loggedAt : ℚ) (scope : Scope)
    (limiter : RateLimiter) : Except Fault (Answer × RateLimiter) := do
  match ← middleware.request now scope with
  | none => return (.passed, limiter)
  | some check => return limiter.answer bound check loggedAt

end RateLimitMiddleware

end FeathrEvents
