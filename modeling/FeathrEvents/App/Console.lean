/-
Module: FeathrEvents.App.Console
Purpose: The simulated faults and the two routes that report on them beside the running worker: `/health`
  and `/demo/fault`, both halves of it.
Trusted boundary: translation by hand of `app/faults.py`, of `health` in `app/clients.py`, and of
  `health`, `demo_fault` and `demo_faults_active` in `app/main.py` under DEMO_MODE.  What the drivers answer
  to a ping is a parameter; `stop` with no time to drain is its call, cancels and its return among the moves
  of the worker.
Main exports: FaultTarget, Faults, Faults.active, Faults.guard, healthOf, Health, Console, ConsoleMove,
  Console.next, Console.report, Console.health
-/
import Mathlib.Data.Finset.Sort
import Mathlib.Data.String.Basic
import FeathrEvents.App.DemoReset

namespace FeathrEvents

/-! ### Faults -/

inductive FaultTarget where
  | mongodb
  | elasticsearch
  | redis
  | worker
deriving DecidableEq

def FaultTarget.value : FaultTarget → String
  | .mongodb => "mongodb"
  | .elasticsearch => "elasticsearch"
  | .redis => "redis"
  | .worker => "worker"

/-- `_faulted`. -/
abbrev Faults := Finset String

namespace Faults

def enable (dependency : String) (faulted : Faults) : Faults := insert dependency faulted

def disable (dependency : String) (faulted : Faults) : Faults := faulted.erase dependency

/-- `active`: in the order of the names. -/
def active (faulted : Faults) : List String := faulted.sort (· ≤ ·)

/-- `guard` under DEMO_MODE; what it raises is an `InjectedFault`. -/
def guard (dependency : String) (faulted : Faults) : Except Exn Unit :=
  if dependency ∈ faulted then
    .error (.other (dependency ++ " is being simulated as unavailable"))
  else .ok ()

end Faults

/-! ### Health -/

/-- What becomes of a ping; one that Elasticsearch answers with `False` raises. -/
abbrev Pings := FaultTarget → Except Exn Unit

/-- The dependencies in the order in which `clients.health` names them. -/
def pinged : List FaultTarget := [.mongodb, .redis, .elasticsearch]

/-- What `clients.health` says of a dependency: its ping is behind its guard, and whatever one of them raises
is `down`. -/
def statusOf (pings : Pings) (faulted : Faults) (dependency : FaultTarget) : String :=
  let result : Except Exn Unit := do
    faulted.guard dependency.value
    pings dependency
  match result with
  | .error _ => "down"
  | .ok _ => "up"

/-- `clients.health`. -/
def healthOf (pings : Pings) (faulted : Faults) : List (String × String) :=
  pinged.map fun dependency => (dependency.value, statusOf pings faulted dependency)

/-- The body of `/health`; its status code is always 200. -/
structure Health where
  status : String
  degradedBy : List String
  dependencies : List (String × String)
  queue : QueueStats
  worker : WorkerStats

/-! ### The console -/

/-- The dependency behind a store. -/
def Sink.dependency : Sink → FaultTarget
  | .mongodb => .mongodb
  | .elasticsearch => .elasticsearch

/-- The worker, what is simulated as down, and the writes that a guard refused, by their positions. -/
structure Console where
  system : System
  faulted : Faults
  refused : Finset ℕ

/-- What can happen: a `POST /demo/fault`, or a move of the worker. -/
inductive ConsoleMove where
  | fault (dependency : FaultTarget) (down : Bool)
  | work (move : Move)

namespace Console

variable (setup : Setup)

/-- A process that has just begun. -/
def start : Console where
  system := .create
  faulted := ∅
  refused := ∅

/-- The writes that the guards refuse in a move: those that it begins at a store that is simulated as
down. -/
def refusals (faulted : Faults) (before after : System) : Finset ℕ :=
  (Finset.range after.writes.length).filter fun index => before.writes.length ≤ index ∧
    ∃ write ∈ after.writes[index]?, ¬ (faulted.guard write.sink.dependency.value).isOk

/-- A move of the worker; a write that was refused never takes effect. -/
def work (move : Move) (console : Console) : Console :=
  let refused : Bool :=
    match move with
    | .land index => index ∈ console.refused
    | _ => false
  if refused then console
  else
    let later := console.system.next setup move
    { console with
      system := later
      refused := console.refused ∪ refusals console.faulted console.system later }

/-- `demo_fault`, up to its first await: `start` raises where the worker runs already. -/
def fault (dependency : FaultTarget) (down : Bool) (console : Console) : Console :=
  if dependency = .worker then console.work setup (if down then .stop else .start)
  else if down then { console with faulted := console.faulted.enable dependency.value }
  else { console with faulted := console.faulted.disable dependency.value }

def next (console : Console) : ConsoleMove → Console
  | .fault dependency down => console.fault setup dependency down
  | .work move => console.work setup move

/-- `{"faulted": [*faults.active(), *stopped]}`, with which both routes answer. -/
def report (console : Console) : List String :=
  console.faulted.active ++ if (console.system.workerStats 0).consumers = 0 then ["worker"] else []

/-- `health`, with the clock reading of the worker's `stats`. -/
def health (pings : Pings) (now : ℚ) (console : Console) : Health :=
  let dependencies := healthOf pings console.faulted
  let down := (dependencies.filter fun item => item.2 ≠ "up").map Prod.fst
  { status := if down = [] then "ok" else "degraded"
    degradedBy := down
    dependencies := dependencies
    queue := console.system.queue.stats setup.queue
    worker := console.system.workerStats now }

end Console

end FeathrEvents
