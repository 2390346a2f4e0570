/-
Module: FeathrEvents.App.UseStats
Purpose: The hook behind the history panel and the live one as a machine: what the reader selects and
  refreshes, the polls, and the replies, which arrive in any order.
Trusted boundary: translation by hand of `useStats` in `application/useStats.ts`.  The requests
  are numbered in the order in which they are made, which the code does not do; a reply that is `none`
  is a failure.  Clock readings are arguments.
Main exports: UseStats.Bucket, StatsRequest, Latency, UseStats, UseStats.mount, UseStats.reloadQuery,
  UseStats.loadLive, StatsMove, UseStats.next
-/
import Mathlib.Algebra.Order.Field.Rat
import Mathlib.Data.Rat.Floor
import FeathrEvents.Lib.Latest

namespace FeathrEvents

inductive UseStats.Bucket where
  | hourly
  | daily
  | weekly
deriving DecidableEq

/-- A request for the history: what for, and the reading of `performance.now()` when it was made. -/
structure StatsRequest where
  bucket : UseStats.Bucket
  started : ℚ

structure Latency where
  query : ℤ
  realtime : ℤ

/-- The state of the hook, with the requests for the history and the polls that are in flight. -/
structure UseStats (Stats Summary : Type*) where
  bucket : UseStats.Bucket
  query : Option Stats
  computedAt : Option ℤ
  loadingQuery : Bool
  realtime : Option Summary
  stale : Bool
  cacheAgeMs : Option ℤ
  recomputedAt : Option ℤ
  latency : Option Latency
  requests : Latest StatsRequest
  polls : Latest ℚ

/-- What happens to the hook, with the readings of `performance.now()` and `Date.now()`. -/
inductive StatsMove (Stats Summary : Type*) where
  | select (bucket : UseStats.Bucket) (now : ℚ)
  | refresh (now : ℚ)
  | statsReply (mine : ℕ) (outcome : Option Stats) (now : ℚ) (date : ℤ)
  | poll (now : ℚ)
  | liveReply (mine : ℕ) (outcome : Option Summary) (now : ℚ) (date : ℤ)

/-- `Math.round`. -/
def mathRound (x : ℚ) : ℤ := ⌊x + 1 / 2⌋

namespace UseStats

variable {Stats Summary : Type*}

/-- `reloadQuery` as far as its `await`. -/
def reloadQuery (now : ℚ) (state : UseStats Stats Summary) : UseStats Stats Summary :=
  { state with
    loadingQuery := true
    requests := state.requests.issue { bucket := state.bucket, started := now } }

/-- `reloadQuery` after its `await`: a failure keeps the last reading. -/
def statsReply (mine : ℕ) (outcome : Option Stats) (now : ℚ) (date : ℤ)
    (state : UseStats Stats Summary) : UseStats Stats Summary :=
  match state.requests.flying.get? mine with
  | none => state
  | some request =>
      let state := { state with requests := state.requests.settle mine, loadingQuery := false }
      match outcome with
      | none => state
      | some res =>
          { state with
            query := some res
            computedAt := some date
            latency := some {
              query := mathRound (now - request.started)
              realtime := (state.latency.map Latency.realtime).getD 0 } }

/-- `loadLive` as far as its `await`. -/
def loadLive (now : ℚ) (state : UseStats Stats Summary) : UseStats Stats Summary :=
  { state with polls := state.polls.issue now }

/-- `loadLive` after its `await`. -/
def liveReply (cached : Summary → Bool) (mine : ℕ) (outcome : Option Summary) (now : ℚ) (date : ℤ)
    (state : UseStats Stats Summary) : UseStats Stats Summary :=
  match state.polls.flying.get? mine with
  | none => state
  | some started =>
      let state := { state with polls := state.polls.settle mine }
      match outcome with
      | none => { state with stale := true }
      | some res =>
          let recomputedAt := if cached res then state.recomputedAt else some date
          { state with
            realtime := some res
            recomputedAt := recomputedAt
            cacheAgeMs := recomputedAt.map (date - ·)
            latency := some {
              query := (state.latency.map Latency.query).getD 0
              realtime := mathRound (now - started) }
            stale := false }

/-- The hook after its effects have run for the first time. -/
def mount (bucket : Bucket) (now : ℚ) : UseStats Stats Summary :=
  loadLive now (reloadQuery now {
    bucket := bucket
    query := none
    computedAt := none
    loadingQuery := false
    realtime := none
    stale := false
    cacheAgeMs := none
    recomputedAt := none
    latency := none
    requests := .start
    polls := .start })

/-- The state after a move.  To select the bucket that is selected changes nothing, and so does a reply
that is not awaited; `refresh` is a new `refreshKey` or the button. -/
def next (cached : Summary → Bool) (state : UseStats Stats Summary) :
    StatsMove Stats Summary → UseStats Stats Summary
  | .select bucket now =>
      if bucket = state.bucket then state else reloadQuery now { state with bucket := bucket }
  | .refresh now => state.reloadQuery now
  | .statsReply mine outcome now date => state.statsReply mine outcome now date
  | .poll now => state.loadLive now
  | .liveReply mine outcome now date => state.liveReply cached mine outcome now date

end UseStats

end FeathrEvents
