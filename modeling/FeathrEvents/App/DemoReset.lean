/-
Module: FeathrEvents.App.DemoReset
Purpose: `POST /demo/reset` as a machine beside the running worker: its steps between two awaits are
  taken in order, and the moves of the worker in any order between them.
Trusted boundary: translation by hand of `demo_reset` in `app/main.py` and of `stats` and
  `reset_counters` in `app/worker.py`.  Redis and the two schemas that the route prepares at its end
  are not part of the state, so its last three awaits are one step.
Main exports: roundToTenth, WorkerStats, System.workerStats, Cleared, ResetAnswer, ResetPhase,
  DemoMove, DemoReset, DemoReset.next
-/
import FeathrEvents.App.Worker
import Mathlib.Data.Rat.Floor

namespace FeathrEvents

/-- `round(x, 1)`: the nearest tenth, and of two the even one. -/
def roundToTenth (x : ℚ) : ℚ :=
  let below := ⌊x * 10⌋
  let beyond := x * 10 - below
  if beyond < 1 / 2 ∨ (beyond = 1 / 2 ∧ below % 2 = 0) then below / 10 else (below + 1) / 10

/-- What `EventWorker.stats` returns. -/
structure WorkerStats where
  processed : ℕ
  paused : Bool
  resumesIn : ℚ
  failedAttempts : ℕ
  consumers : ℕ

namespace System

/-- `EventWorker.stats`, its clock reading `now`. -/
def workerStats (now : ℚ) (system : System) : WorkerStats where
  processed := system.processed
  paused := system.sink.isOpen
  resumesIn := roundToTenth (system.sink.secondsRemaining now)
  failedAttempts := system.failed
  consumers := system.running.length

def resetCounters (system : System) : System := { system with processed := 0, failed := 0 }

end System

/-- `before`: what there was to clear. -/
structure Cleared where
  mongo : ℕ
  queue : QueueStats
  worker : WorkerStats

/-- The body of the answer. -/
structure ResetAnswer where
  status : String := "reset"
  cleared : Cleared

/-- The await where the route stands. -/
inductive ResetPhase where
  | counting
  | counted (documents : ℕ)
  | dropping (before : Cleared)
  | deleting (before : Cleared)
  | preparing (before : Cleared)
  | returned (answer : ResetAnswer)

/-- The moves.  `count`, `drop` and `delete` are the moments at which the store does what it was
asked to do; `clear` is the stretch of the route that nothing can interrupt. -/
inductive DemoMove where
  | worker (move : Move)
  | count
  | clear (now : ℚ)
  | drop
  | delete
  | finish

/-- A reset under way, and the system that it resets. -/
structure DemoReset where
  phase : ResetPhase
  system : System

namespace DemoReset

/-- The route has been called: it waits for `count_documents`. -/
def begin (system : System) : DemoReset := ⟨.counting, system⟩

variable (setup : Setup)

/-- The state after a move, `none` where the move is not possible. -/
def step (reset : DemoReset) : DemoMove → Option DemoReset
  | .worker move => (reset.system.step setup move).map (⟨reset.phase, ·⟩)
  | .count =>
      match reset.phase with
      | .counting => some ⟨.counted reset.system.mongo.size, reset.system⟩
      | _ => none
  | .clear now =>
      match reset.phase with
      | .counted documents =>
          if reset.system.now ≤ now then
            let before : Cleared := {
              mongo := documents
              queue := reset.system.queue.stats setup.queue
              worker := reset.system.workerStats now }
            let (_, system) := (reset.system.tick now).call setup none .clear
            some ⟨.dropping before, system.resetCounters⟩
          else none
      | _ => none
  | .drop =>
      match reset.phase with
      | .dropping before => some ⟨.deleting before, { reset.system with mongo := .empty }⟩
      | _ => none
  | .delete =>
      match reset.phase with
      | .deleting before => some ⟨.preparing before, { reset.system with elastic := .empty }⟩
      | _ => none
  | .finish =>
      match reset.phase with
      | .preparing before => some ⟨.returned { cleared := before }, reset.system⟩
      | _ => none

/-- The machine: a move that is not possible changes nothing. -/
def next (reset : DemoReset) (move : DemoMove) : DemoReset := (reset.step setup move).getD reset

end DemoReset

end FeathrEvents
