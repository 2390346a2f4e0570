/-
Module: FeathrEvents.App.RateLimit
Purpose: The token buckets of `RateLimiter` as the code computes them, with the clock readings of each
  method as arguments and times as exact rationals.
Trusted boundary: translation by hand of `app/ratelimit.py`
Main exports: Kind, Bucket, Bucket.take, RateLimiter, RateLimiter.check, RateLimiter.evictIfNeeded,
  RateLimiter.shouldLog, Check, Answer, retryAfter, RateLimiter.answer
-/
import Mathlib.Algebra.Order.Field.Rat
import Mathlib.Data.Rat.Floor
import FeathrEvents.Lib.OrderedDict

namespace FeathrEvents

open Collections (OrderedDict)

inductive Kind where
  | read
  | write
deriving DecidableEq

/-- `MAX_CLIENTS`. -/
def maxClients : ℕ := 4096

def logEverySeconds : ℚ := 10

/-- Tokens, and the moment they were last counted; refusals since the last line about this client, and
when that line was written. -/
structure Bucket where
  tokens : ℚ
  updated : ℚ
  suppressed : ℕ := 0
  loggedAt : ℚ := 0
deriving DecidableEq

/-- Spend one token.  The result is the seconds to wait, or 0 when it was granted. -/
def Bucket.take (capacity : ℤ) (perSecond now : ℚ) (bucket : Bucket) : ℚ × Bucket :=
  let bucket := { bucket with
    tokens := min capacity (bucket.tokens + (now - bucket.updated) * perSecond)
    updated := now }
  if 1 ≤ bucket.tokens then (0, { bucket with tokens := bucket.tokens - 1 })
  else ((1 - bucket.tokens) / perSecond, bucket)

/-- The attributes of `RateLimiter`, the clock apart. -/
structure RateLimiter where
  capacity : Kind → ℤ
  rate : Kind → ℚ
  buckets : OrderedDict (String × Kind) Bucket

/-- A call of `check` with its clock reading. -/
structure Check where
  client : String
  kind : Kind
  now : ℚ

def Check.key (check : Check) : String × Kind := (check.client, check.kind)

namespace RateLimiter

def create (writes reads : ℤ) (windowSeconds : ℚ) : RateLimiter where
  capacity
    | .write => writes
    | .read => reads
  rate
    | .write => writes / windowSeconds
    | .read => reads / windowSeconds
  buckets := .empty

/-- The `for` loop of `_evict_if_needed` over a snapshot of the table, and the `while` loop after it,
which pops the first item until the table is within its bound. -/
def evictFull (bound : ℕ) (capacity : Kind → ℤ) :
    List ((String × Kind) × Bucket) → OrderedDict (String × Kind) Bucket →
      OrderedDict (String × Kind) Bucket
  | [], buckets => buckets.dropFirst (buckets.size - bound)
  | (key, bucket) :: rest, buckets =>
      let buckets := if capacity key.2 ≤ bucket.tokens then buckets.erase key else buckets
      if buckets.size ≤ bound then buckets else evictFull bound capacity rest buckets

/-- `_evict_if_needed` for a table that is to hold at most `bound` buckets. -/
def evictIfNeeded (bound : ℕ) (limiter : RateLimiter) : RateLimiter :=
  if limiter.buckets.size ≤ bound then limiter
  else { limiter with
    buckets := evictFull bound limiter.capacity limiter.buckets.items limiter.buckets }

/-- `check` up to the eviction: the wait, and the limiter with the bucket that was asked at the end of
its table. -/
def spend (check : Check) (limiter : RateLimiter) : ℚ × RateLimiter :=
  let bucket := (limiter.buckets.get? check.key).getD
    { tokens := limiter.capacity check.kind, updated := check.now }
  let buckets := (limiter.buckets.set check.key bucket).moveToEnd check.key
  let (wait, bucket) :=
    bucket.take (limiter.capacity check.kind) (limiter.rate check.kind) check.now
  (wait, { limiter with buckets := buckets.set check.key bucket })

/-- `check`: 0 when the request may proceed, otherwise the seconds until it could. -/
def check (bound : ℕ) (check : Check) (limiter : RateLimiter) : ℚ × RateLimiter :=
  let (wait, limiter) := limiter.spend check
  (wait, limiter.evictIfNeeded bound)

/-- `should_log`: `none` to stay quiet, otherwise how many refusals the line stands for. -/
def shouldLog (client : String) (kind : Kind) (now : ℚ) (limiter : RateLimiter) :
    Option ℕ × RateLimiter :=
  match limiter.buckets.get? (client, kind) with
  | none => (none, limiter)
  | some bucket =>
      let bucket := { bucket with suppressed := bucket.suppressed + 1 }
      if now - bucket.loggedAt < logEverySeconds then
        (none, { limiter with buckets := limiter.buckets.set (client, kind) bucket })
      else
        (some bucket.suppressed, { limiter with
          buckets := limiter.buckets.set (client, kind)
            { bucket with loggedAt := now, suppressed := 0 } })

end RateLimiter

/-- What the middleware does with a request that is subject to a limit: it passes it on, or refuses it
with a `Retry-After` and perhaps a log line for so many refusals. -/
inductive Answer where
  | passed
  | refused (retryAfter : ℤ) (logged : Option ℕ)
deriving DecidableEq

/-- `max(1, -(-wait // 1))`. -/
def retryAfter (wait : ℚ) : ℤ := max 1 (-⌊-wait⌋)

/-- `RateLimitMiddleware.__call__` from the check on, with the reading of `should_log`. -/
def RateLimiter.answer (bound : ℕ) (request : Check) (loggedAt : ℚ) (limiter : RateLimiter) :
    Answer × RateLimiter :=
  let (wait, limiter) := limiter.check bound request
  if wait = 0 then (.passed, limiter)
  else
    let (refusals, limiter) := limiter.shouldLog request.client request.kind loggedAt
    (.refused (retryAfter wait) refusals, limiter)

end FeathrEvents
