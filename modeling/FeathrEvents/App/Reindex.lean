/-
Module: FeathrEvents.App.Reindex
Purpose: The recovery script as it is run: its counters, what it prints, what it leaves in the index and the
  code with which it exits, whatever the drivers do.
Trusted boundary: translation by hand of `main` in `scripts/reindex.py`, run while nothing else
  writes.  The elapsed time is left out of its summary.  An exception that nothing catches exits with 1.
Main exports: Attempt, ReindexFaults, ReindexLine, Reindexing, Reindexing.take, Reindexing.scan,
  System.reindexMain
-/
import FeathrEvents.App.Documents

namespace FeathrEvents

open Collections (OrderedDict)

/-- What becomes of a document of the collection: it is no event, or `index.index` raises, and the index may
have taken it all the same, or it is indexed. -/
inductive Attempt where
  | invalid (reason : String)
  | raised (reason : String) (landed : Bool)
  | indexed
deriving DecidableEq

/-- The calls of the drivers that raise, outside the `try`; `dropping` says whether the index was dropped
all the same, and `reading` after how many documents the cursor raises. -/
structure ReindexFaults where
  counting : Bool := false
  dropping : Option Bool := none
  preparing : Bool := false
  reading : Option ℕ := none
  refreshing : Bool := false
  recounting : Bool := false

/-- The lines that are printed. -/
inductive ReindexLine where
  | source (total : ℕ)
  | dropped
  | skipped (eventId reason : String)
  | progress (done total : ℕ)
  | reindexed (done errors : ℕ)
  | verdict (total count : ℕ) (inSync : Bool)
deriving DecidableEq

/-- `BATCH`. -/
def reindexBatch : ℕ := 500

/-- The script under way. -/
structure Reindexing where
  done : ℕ
  errors : ℕ
  index : OrderedDict String (OrderedDict String Json)
  lines : List ReindexLine

namespace Reindexing

def print (line : ReindexLine) (state : Reindexing) : Reindexing :=
  { state with lines := state.lines ++ [line] }

/-- What `index.index` writes. -/
def write (host : Host) (event : Event) (state : Reindexing) : Reindexing :=
  { state with index := state.index.set event.eventId ((host.modelDump event).erase "event_id") }

/-- The body of the loop. -/
def take (host : Host) (total : ℕ) (state : Reindexing) (item : Document × Attempt) : Reindexing :=
  let event := item.1.readBack.toEvent
  let skip (reason : String) (state : Reindexing) : Reindexing :=
    { state with errors := state.errors + 1 }.print (.skipped event.eventId reason)
  let state : Reindexing :=
    match item.2 with
    | .invalid reason => skip reason state
    | .raised reason landed => skip reason (if landed then state.write host event else state)
    | .indexed => { state.write host event with done := state.done + 1 }
  if state.done % reindexBatch = 0 ∧ state.done ≠ 0 then state.print (.progress state.done total)
  else state

/-- The loop over what the cursor gives. -/
def scan (host : Host) (total : ℕ) (items : List (Document × Attempt))
    (state : Reindexing) : Reindexing :=
  items.foldl (take host total) state

end Reindexing

/-- `main`: what it did, and the code with which the process exits. -/
def System.reindexMain (setup : Setup) (recreate : Bool) (faults : ReindexFaults)
    (attempts : ℕ → Attempt) (system : System) : Reindexing × ℕ :=
  let state : Reindexing := ⟨0, 0, system.elastic, []⟩
  if faults.counting then (state, 1)
  else
    let total := system.mongo.size
    let state := state.print (.source total)
    if recreate ∧ faults.dropping ≠ none then
      (if faults.dropping = some true then { state with index := .empty } else state, 1)
    else
      let state := if recreate then { state with index := .empty }.print .dropped else state
      if faults.preparing then (state, 1)
      else
        let items := system.mongo.values.zipIdx.map fun item => (item.1, attempts item.2)
        let reads := faults.reading.getD (total + 1)
        let state := state.scan setup.host total (items.take reads)
        if reads ≤ total ∨ faults.refreshing ∨ faults.recounting then (state, 1)
        else
          let count := state.index.size
          let state := state.print (.reindexed state.done state.errors)
          let state := state.print (.verdict total count (count = total))
          (state, if count = total ∧ state.errors = 0 then 0 else 1)

end FeathrEvents
