/-
Module: FeathrEvents.App.BrowserRecords
Purpose: The two records that the console keeps in the browser: the log of its runs, and which failures
  of a dependency were witnessed, both in memory and in `localStorage`.
Trusted boundary: translation by hand of `application/useRunLog.ts` and of
  `application/useFailureWatch.ts`.  An effect runs after the render that changed its dependency, and
  `JSON.parse` gives back what `JSON.stringify` was given; a stored text is the value that it parses to.
  What the failure watch finds in the store is what it wrote there itself.
Main exports: Run, Run.toJson, isRun, RunLog.load, RunLog.Change, Watched, Witness, FailureWatch,
  FailureWatch.load, FailureWatch.poll
-/
import FeathrEvents.App.Models
import FeathrEvents.Lib.Persisted

namespace FeathrEvents

/-! ### The log of the runs -/

/-- `Run` without `at`; a missing `throttled` is `none`. -/
structure Run where
  n : ℚ
  acceptMs : ℚ
  drainMs : Option ℚ
  accepted : ℚ
  refused : ℚ
  throttled : Option ℚ
  failed : ℚ

/-- `{ at: Date.now(), ...run }`. -/
def Run.toJson (now : ℚ) (run : Run) : Json :=
  .object ([("at", .number now), ("n", .number run.n), ("acceptMs", .number run.acceptMs),
    ("drainMs", (run.drainMs.map Json.number).getD .null), ("accepted", .number run.accepted),
    ("refused", .number run.refused)] ++
    (run.throttled.map fun throttled => ("throttled", Json.number throttled)).toList ++
    [("failed", .number run.failed)])

/-- The value of a member, of which the last one of its name counts. -/
def Json.member? (name : String) : Json → Option Json
  | .object members => (members.reverse.find? fun member => member.1 = name).map Prod.snd
  | _ => none

/-- `typeof value === 'number'`. -/
def Json.isNumber : Json → Bool
  | .number _ => true
  | _ => false

/-- `isRun`. -/
def isRun (v : Json) : Bool :=
  ["at", "n", "acceptMs"].all fun name => (v.member? name).any Json.isNumber

namespace RunLog

/-- `MAX_RUNS`. -/
def maxRuns : ℕ := 40

/-- `load`, from the value that the stored text parses to; `none` is a store that has nothing to read. -/
def load : Option Json → List Json
  | some (.array rows) => (rows.filter isRun).take maxRuns
  | _ => []

/-- `add` and `clear`. -/
inductive Change where
  | add (now : ℚ) (run : Run)
  | clear

def change : Change → List Json → Option (List Json)
  | .add now run, runs => some ((run.toJson now :: runs).take maxRuns)
  | .clear, _ => some []

end RunLog

/-! ### The failures witnessed -/

/-- `Dependency`. -/
inductive Watched where
  | mongodb
  | elasticsearch
  | redis
deriving DecidableEq

/-- `DEPS`. -/
def watchedDeps : List Watched := [.mongodb, .elasticsearch, .redis]

structure Witness where
  firstSeenAt : Option ℤ
  lastSeenAt : Option ℤ
  down : Bool
  processedWhileDown : ℤ
deriving DecidableEq

/-- An answer of `/health`: what it says of each dependency, and the worker's counter. -/
structure HealthAnswer where
  dependencies : Watched → String
  processed : ℤ

/-- `witnessed`, and the reference `processedAtDown`, which is not stored. -/
structure FailureWatch where
  witnessed : Watched → Witness
  processedAtDown : Watched → Option ℤ

namespace FailureWatch

/-- `blank`. -/
def blank : Watched → Witness := fun _ => ⟨none, none, false, 0⟩

/-- `load`: what is down is unknown until the first poll answers. -/
def load (stored : Option (Watched → Witness)) : FailureWatch where
  witnessed := (stored.map fun former dep => { former dep with down := false }).getD blank
  processedAtDown := fun _ => none

/-- The body of the loop for one dependency, with the readings of `Date.now()`; `none` where nothing
changes. -/
def watch (health : HealthAnswer) (firstNow lastNow : ℤ) (dep : Watched) (state : FailureWatch) :
    Option (Witness × Option ℤ) :=
  let isDown := health.dependencies dep ≠ "up"
  let was := state.witnessed dep
  if isDown ∧ ¬ was.down then
    some ({
      firstSeenAt := some (was.firstSeenAt.getD firstNow)
      lastSeenAt := some lastNow
      down := true
      processedWhileDown := 0 }, some health.processed)
  else if isDown then
    let since := health.processed - (state.processedAtDown dep).getD 0
    if since ≠ was.processedWhileDown then
      some ({ was with processedWhileDown := since }, state.processedAtDown dep)
    else none
  else if was.down then some ({ was with down := false }, state.processedAtDown dep)
  else none

/-- The effect that an answer of `/health` has. -/
def poll (health : HealthAnswer) (firstNow lastNow : ℤ)
    (state : FailureWatch) : Option FailureWatch :=
  let changes := fun dep => state.watch health firstNow lastNow dep
  if watchedDeps.any fun dep => (changes dep).isSome then
    some {
      witnessed := fun dep => ((changes dep).map Prod.fst).getD (state.witnessed dep)
      processedAtDown := fun dep => ((changes dep).map Prod.snd).getD (state.processedAtDown dep) }
  else none

/-- `clear`, which leaves the reference as it is. -/
def clear (state : FailureWatch) : Option FailureWatch := some { state with witnessed := blank }

end FailureWatch

end FeathrEvents
