/-
Module: FeathrEvents.App.BurstReadout
Purpose: What a burst shows once its calls have ended: it polls the depth of the queue until nothing is left,
  and then the search until all that was accepted is found; alone, and against the API as it runs.
Trusted boundary: translation by hand of `burst` in `application/useIngest.ts` from its first `setSteps`
  on.  The readings of `performance.now()`, `toFixed(1)`, and which documents of the index a search finds are
  parameters; a search finds nothing that is not indexed.  The two texts `busy` and `last` are left out.
Main exports: UseIngest.drainTimeoutMs, UseIngest.searchableTimeoutMs, Readout, UseIngest.drained,
  UseIngest.peakOf, UseIngest.searchable, UseIngest.readout, UseIngest.Bursting, Bursting.readout
-/
import FeathrEvents.App.UseIngest
import FeathrEvents.App.UseStats
import FeathrEvents.App.UseTrace

namespace FeathrEvents

/-- The steps that are shown, the runs that were given to `onRun`, and whether `busy` is a text. -/
structure Readout where
  steps : List TraceStep
  runs : List Run
  busy : Bool

namespace UseIngest

/-- `DRAIN_TIMEOUT_MS`. -/
def drainTimeoutMs : ℤ := 60000

/-- `SEARCHABLE_TIMEOUT_MS`. -/
def searchableTimeoutMs : ℤ := 20000

/-- The readings before the two loops, in the order in which they are taken. -/
structure Clock where
  started : ℚ
  accepted : ℚ
  drainFrom : ℚ
  searchFrom : ℚ

/-- `Math.round(performance.now() - started)`, for this reading. -/
def Clock.elapsed (clock : Clock) (reading : ℚ) : ℤ := mathRound (reading - clock.started)

/-! ### The client -/

/-- `h.queue.visible + h.queue.in_flight`. -/
def depth (stats : QueueStats) : ℕ := stats.visible + stats.inFlight

/-- What a loop leaves in its variable: when it was hit, or `null`. -/
def hitMs {β : Type} (clock : Clock) : Polling.Verdict ℚ Unit β → Option ℤ
  | .found _ foundAt => some (clock.elapsed foundAt)
  | .raised _ | .timedOut => none

/-- The condition of the loop that waits for the queue. -/
def empties (stats : QueueStats) : Option Unit :=
  if stats.visible = 0 ∧ stats.inFlight = 0 then some () else none

/-- `drainMs`, `none` as long as the loop goes on. -/
def drained (clock : Clock) (polls : List (Polling.Pass ℚ Unit QueueStats)) : Option (Option ℤ) :=
  (Polling.poll (clock.drainFrom + drainTimeoutMs) empties polls).map (hitMs clock)

/-- `peak` and `peakAt`, after one more answer. -/
def deepen (clock : Clock) (peak : ℕ × ℤ) (poll : Polling.Pass ℚ Unit QueueStats) : ℕ × ℤ :=
  match poll.answer? (clock.drainFrom + drainTimeoutMs) with
  | none => peak
  | some stats => if peak.1 < depth stats then (depth stats, clock.elapsed poll.repliedAt) else peak

/-- `peak` and `peakAt` at the end of the loop. -/
def peakOf (clock : Clock) (polls : List (Polling.Pass ℚ Unit QueueStats)) : ℕ × ℤ :=
  (Polling.made (clock.drainFrom + drainTimeoutMs) empties polls).foldl (deepen clock)
    (0, clock.elapsed clock.accepted)

/-- `searchableMs`, `none` as long as the loop goes on. -/
def searchable (clock : Clock) (accepted : ℕ) (polls : List (Polling.Pass ℚ Unit ℕ)) : Option
    (Option ℤ) :=
  (Polling.poll (clock.searchFrom + searchableTimeoutMs)
    (fun total => if accepted ≤ total then some () else none) polls).map (hitMs clock)

def acceptedStep (accepted : ℕ) (acceptMs : ℤ) : TraceStep where
  label := "Accepted"
  detail := toString accepted ++ " × 202 · queued, none stored yet"
  atMs := acceptMs
  state := .done

def peakStep (peak : ℕ × ℤ) : TraceStep where
  label := "Peak backlog"
  detail :=
    if 0 < peak.1 then toString peak.1 ++ " waiting at the deepest point sampled"
    else "never seen backed up. The worker kept pace with the sender"
  atMs := peak.2
  state := .done

def mongoStep (toFixed : ℚ → String) (accepted : ℕ) : Option ℤ → TraceStep
  | some drainMs => {
      label := "In MongoDB"
      detail := "the queue is empty, all " ++ toString accepted ++ " written · " ++
        toFixed (drainMs / max 1 accepted) ++ "ms per event"
      atMs := drainMs
      state := .done }
  | none => {
      label := "In MongoDB"
      detail := "gave up waiting. The queue still had events in it when the timer ran out"
      atMs := drainTimeoutMs
      state := .failed }

def searchStep (accepted : ℕ) : Option ℤ → TraceStep
  | some searchableMs => {
      label := "Searchable"
      detail := "all " ++ toString accepted ++ " findable in Elasticsearch. Indexed earlier, visible now, " ++
        "because refresh_interval is 1s"
      atMs := searchableMs
      state := .done }
  | none => {
      label := "Searchable"
      detail := "gave up waiting. Not all of them were findable within the timeout"
      atMs := searchableTimeoutMs
      state := .failed }

/-- What is given to `onRun`. -/
def loggedRun (burst : Burst) (acceptMs : ℤ) (drainMs : Option ℤ) : Run where
  n := burst.n
  acceptMs := acceptMs
  drainMs := drainMs.map Int.cast
  accepted := burst.accepted
  refused := burst.refused
  throttled := some burst.throttled
  failed := burst.failed

/-- `burst` from its first `setSteps` on, given the passes of both loops, as far as they got. -/
def readout (toFixed : ℚ → String) (burst : Burst) (clock : Clock)
    (drains : List (Polling.Pass ℚ Unit QueueStats)) (searches : List (Polling.Pass ℚ Unit ℕ)) : Readout :=
  let acceptMs := clock.elapsed clock.accepted
  let sent : Readout := { steps := [acceptedStep burst.accepted acceptMs], runs := [], busy := true }
  match drained clock drains with
  | none => sent
  | some drainMs =>
      let written : Readout := {
        steps := sent.steps ++ [peakStep (peakOf clock drains), mongoStep toFixed burst.accepted drainMs]
        runs := [loggedRun burst acceptMs drainMs]
        busy := true }
      if drainMs = none ∨ burst.accepted = 0 then { written with busy := false }
      else
        match searchable clock burst.accepted searches with
        | none => written
        | some searchableMs => { written with
            steps := written.steps ++ [searchStep burst.accepted searchableMs]
            busy := false }

/-! ### The client and the API -/

/-- A burst whose calls have ended, and what happens meanwhile: the moves of the API until then, which requests
were those of the calls that it counts as accepted, and the moves until each question is answered, with
those documents that are visible to a search and match it. -/
structure Bursting (surround : Surround) (limiter : RateLimiter) where
  burst : Burst
  posting : List ApiMove
  mine : List ℕ
  distinct : mine.Nodup
  resolved : ∀ index ∈ mine, ∃ post eventId,
    (Machine.run (Api.next surround) (Api.start limiter) posting).posts[index]? = some post ∧
      post.answer = some (.accepted eventId)
  counted : burst.accepted = mine.length
  clock : Clock
  drains : List (Polling.Question ApiMove ℚ Unit Unit)
  searches : List (Polling.Question ApiMove ℚ Unit (Finset String))

namespace Bursting

variable {surround : Surround} {limiter : RateLimiter} (bursting : Bursting surround limiter)

/-- The API when all calls have ended. -/
def posted : Api := Machine.run (Api.next surround) (Api.start limiter) bursting.posting

/-- The ids of the events that were accepted. -/
def ids : List String :=
  bursting.mine.filterMap fun index =>
    (bursting.posted.posts[index]?).bind fun post => post.answer.bind IngestAnswer.eventId?

/-- What `/health` says of the queue. -/
def health (surround : Surround)
    (api : Api) : QueueStats := api.system.queue.stats surround.setup.queue

/-- `found.total`, where this is visible and matches. -/
def total (visible : Finset String) (api : Api) : ℕ :=
  (visible.filter fun eventId => eventId ∈ api.system.elastic.keys).card

/-- The API when the first loop has ended. -/
def written : Api :=
  Machine.run (Api.next surround) bursting.posted (Polling.moves bursting.drains)

/-- The API at the end. -/
def last : Api := Machine.run (Api.next surround) bursting.written (Polling.moves bursting.searches)

/-- The answers of `/health`. -/
def drainPolls : List (Polling.Pass ℚ Unit QueueStats) :=
  Polling.passes (Api.next surround) (fun _ => health surround) bursting.posted bursting.drains

/-- The answers of the search. -/
def searchPolls : List (Polling.Pass ℚ Unit ℕ) :=
  Polling.passes (Api.next surround) total bursting.written bursting.searches

/-- What is shown. -/
def readout (toFixed : ℚ → String) : Readout :=
  UseIngest.readout toFixed bursting.burst bursting.clock bursting.drainPolls bursting.searchPolls

end Bursting

end UseIngest

end FeathrEvents
