/-
Module: FeathrEvents.App.UseIngest
Purpose: The sender loops of a burst as a machine: each takes the next index, posts its event, and counts
  what came of it.
Trusted boundary: translation by hand of the sending phase of `burst` in
  `application/useIngest.ts`.  A loop runs without interruption from one reply to its next `await`; the
  content of the events is random and not part of the state.
Main exports: concurrency, IngestResult, Outcome, IngestResult.outcome, Sender, Burst, Burst.loop,
  Burst.begin, Burst.step
-/
import Mathlib.Data.List.Basic

namespace FeathrEvents

namespace UseIngest

/-- `CONCURRENCY`. -/
def concurrency : ℕ := 25

/-- The response of an error: its status, and its header `x-throttle-reason`. -/
structure ErrorResponse where
  status : ℕ
  throttleReason : Option String

/-- How a call of `api.ingest` ends: it resolves, or it throws an axios error, with or without a response,
or something else. -/
inductive IngestResult where
  | resolved
  | axiosError (response : Option ErrorResponse)
  | thrown

/-- The counter that a call goes to. -/
inductive Outcome where
  | accepted
  | refused
  | throttled
  | failed
deriving DecidableEq

/-- The body of `try` and `catch`. -/
def IngestResult.outcome : IngestResult → Outcome
  | .resolved => .accepted
  | .axiosError (some response) =>
      if response.status ≠ 429 then .failed
      else if response.throttleReason = some "rate_limit" then .throttled
      else .refused
  | .axiosError none => .failed
  | .thrown => .failed

/-- Where a loop stands: at its `await`, for the call with this index, or at its end. -/
inductive Sender where
  | awaiting (index : ℕ)
  | finished
deriving DecidableEq

def Sender.inFlight : Sender → Option ℕ
  | .awaiting index => some index
  | .finished => none

/-- The variables that the loops share, the loops, and the indices of the calls that were made. -/
structure Burst where
  n : ℕ
  accepted : ℕ := 0
  refused : ℕ := 0
  throttled : ℕ := 0
  failed : ℕ := 0
  next : ℕ := 0
  senders : List Sender := []
  calls : List ℕ := []

namespace Burst

/-- The indices of the calls that are in flight. -/
def inFlight (burst : Burst) : List ℕ := burst.senders.filterMap Sender.inFlight

/-- The `while` loop from its test to the next `await`. -/
def loop (burst : Burst) : Sender × Burst :=
  if burst.next < burst.n then
    (.awaiting burst.next,
      { burst with next := burst.next + 1, calls := burst.calls ++ [burst.next] })
  else (.finished, burst)

/-- A new loop, which runs to its first `await`. -/
def spawn (burst : Burst) : Burst :=
  let (sender, burst) := burst.loop
  { burst with senders := burst.senders ++ [sender] }

/-- `Array.from({ length: Math.min(CONCURRENCY, n) }, worker)`. -/
def begin (n : ℕ) : Burst := Nat.repeat spawn (min concurrency n) { n := n }

def count (outcome : Outcome) (burst : Burst) : Burst :=
  match outcome with
  | .accepted => { burst with accepted := burst.accepted + 1 }
  | .refused => { burst with refused := burst.refused + 1 }
  | .throttled => { burst with throttled := burst.throttled + 1 }
  | .failed => { burst with failed := burst.failed + 1 }

/-- The call of a loop ends, and the loop goes on; a loop that awaits nothing stays where it is. -/
def reply (sender : ℕ) (result : IngestResult) (burst : Burst) : Burst :=
  match burst.senders[sender]? with
  | some (.awaiting _) =>
      let (stands, burst) := (burst.count result.outcome).loop
      { burst with senders := burst.senders.set sender stands }
  | _ => burst

/-- The calls end in any order: each move is the end of one. -/
def step (burst : Burst) (move : ℕ × IngestResult) : Burst := burst.reply move.1 move.2

end Burst

end UseIngest

end FeathrEvents
