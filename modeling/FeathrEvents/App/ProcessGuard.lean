/-
Module: FeathrEvents.App.ProcessGuard
Purpose: The guard that refuses to start as one of several processes, as it reads the command line and the
  environment.
Trusted boundary: translation by hand of `_refuse_multiple_processes` in `app/main.py`
Main exports: flagNames, inlineOr, scan, requestedWorkers, refuseMultipleProcesses
-/
import FeathrEvents.Lib.CommandLine

namespace FeathrEvents

namespace ProcessGuard

open CommandLine (partition)

def flagNames : List String := ["--workers", "-w"]

/-- `inline or (argv[i + 1] if i + 1 < len(argv) else "?")`. -/
def inlineOr (inline : String) (rest : List String) : String :=
  if inline ≠ "" then inline else rest.head?.getD "?"

/-- The loop over the arguments, with `requested` so far. -/
def scan : Option String → List String → Option String
  | requested, [] => requested
  | requested, arg :: rest =>
      let (name, inline) := partition arg
      scan (if name ∈ flagNames then some (inlineOr inline rest) else requested) rest

/-- `requested or os.environ.get("WEB_CONCURRENCY")`. -/
def requestedWorkers (argv : List String) (webConcurrency : Option String) : Option String :=
  ((scan none argv).filter (· ≠ "")).or webConcurrency

/-- `requested in ("1", "?")`. -/
def Passable (requested : String) : Prop := requested = "1" ∨ requested = "?"

instance (requested : String) : Decidable (Passable requested) :=
  inferInstanceAs (Decidable (requested = "1" ∨ requested = "?"))

def refusal (requested : String) : String :=
  "refusing to start with " ++ requested ++ " worker processes. The event queue is a " ++
    "variable in one interpreter, so N processes are N queues that cannot see each " ++
    "other and nothing reports an error. Scale with WORKER_CONCURRENCY, which adds " ++
    "consumers inside this process. See ARCHITECTURE.md §5."

/-- `_refuse_multiple_processes`: the message of the `RuntimeError` that it raises. -/
def refuseMultipleProcesses (argv : List String) (webConcurrency : Option String) :
    Except String Unit :=
  match requestedWorkers argv webConcurrency with
  | none => .ok ()
  | some requested => if Passable requested then .ok () else .error (refusal requested)

end ProcessGuard

end FeathrEvents
