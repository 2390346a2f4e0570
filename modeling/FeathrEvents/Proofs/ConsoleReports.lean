/-
Module: FeathrEvents.Proofs.ConsoleReports
Purpose: What the console says about the worker and its dependencies is so, and what it promises of an
  outage of MongoDB holds: nothing that was not already on its way is stored.
Trusted boundary: none
Main exports: System.Registered, Console.Apart, Console.registered_run, Console.lastFault,
  Console.reports_are_true
-/
import FeathrEvents.App.Console
import FeathrEvents.Proofs.WorkerConvergence

namespace FeathrEvents

namespace System

variable {setup : Setup} {system later : System} {move : Move}

/-! ### Who is alive -/

/-- A move brings nobody to life but a start. -/
theorem Moved.alive (moved : Moved setup system move later) (other : move ≠ .start) {consumer : ℕ}
    (alive : (later.at? consumer).done = false) : (system.at? consumer).done = false := by
  have moves : ∀ {mover : ℕ} {former standing : Consumer}, system.at? mover = former →
      former.done = false → later.tasks = system.tasks.set mover standing →
      (system.at? consumer).done = false := by
    intro mover former standing stands unfinished tasks
    have stood : system.at? mover ≠ .stopped := by
      rw [stands]
      exact Consumer.ne_stopped unfinished
    rw [at?_of_tasks tasks stood] at alive
    split at alive
    · rename_i same
      rw [same, stands]
      exact unfinished
    · exact alive
  cases moved with
  | idle | sent | waited | faulted | found | stopCalled | drained => exact alive
  | @landed _ write =>
      obtain ⟨sink, event, landed⟩ := write
      cases sink <;> exact alive
  | quit stands | fetched stands | beat stands | stale stands | stored stands | indexed stands
    | overflowed stands | failed stands | backoffOverflowed stands | acked stands | refused stands =>
      exact moves stands rfl rfl
  | cancelled unfinished => exact moves rfl unfinished rfl
  | started => exact absurd rfl other

/-- Every task that is not over is one of `_tasks`, of which there are none or as many as configured, and
every call of `stop` waits for these. -/
structure Registered (setup : Setup) (system : System) : Prop where
  listed : ∀ consumer, (system.at? consumer).done = false → consumer ∈ system.running
  running : system.running = [] ∨
    ∃ first, system.running = List.range' first setup.worker.concurrency
  waits : ∀ waiting ∈ system.stops, system.running = [] ∨ waiting = system.running

theorem registered_create (setup : Setup) : Registered setup System.create where
  listed consumer alive := by simp [System.create, at?, Consumer.done] at alive
  running := .inl rfl
  waits _ member := by cases member

/-- A start is harmless where no call of `stop` waits. -/
theorem Registered.moved (registered : Registered setup system)
    (moved : Moved setup system move later)
    (apart : move = .start → system.running = [] → system.stops = []) : Registered setup later := by
  have kept : move ≠ .start → later.running = system.running → later.stops = system.stops →
      Registered setup later := by
    intro other running stops
    refine ⟨fun consumer alive => ?_, ?_, ?_⟩
    · rw [running]
      exact registered.listed consumer (moved.alive other alive)
    · rw [running]
      exact registered.running
    · rw [running, stops]
      exact registered.waits
  cases moved with
  | idle => exact registered
  | sent | quit | waited | faulted | found | fetched | beat | stale | stored | indexed | overflowed
    | failed | backoffOverflowed | acked | refused | cancelled => exact kept (by simp) rfl rfl
  | @landed _ write =>
      obtain ⟨sink, event, landed⟩ := write
      cases sink <;> exact kept (by simp) rfl rfl
  | started idle =>
      have quiet : system.stops = [] := apart rfl idle
      refine ⟨fun consumer alive => ?_, .inr ⟨_, rfl⟩, fun waiting member => ?_⟩
      · have inside := lt_of_at? (Consumer.ne_stopped alive)
        rw [List.length_append, List.length_replicate] at inside
        apply List.mem_range'_1.mpr ⟨?_, inside⟩
        by_contra old
        rw [at?, List.getElem?_append_left (not_le.mp old)] at alive
        have here := registered.listed consumer alive
        rw [idle] at here
        cases here
      · have known : waiting ∈ system.stops := member
        rw [quiet] at known
        cases known
  | stopCalled busy =>
      refine ⟨registered.listed, registered.running, fun waiting member => ?_⟩
      rcases List.mem_append.mp member with old | new
      · exact registered.waits waiting old
      · exact .inr (List.mem_singleton.mp new)
  | @drained index waiting called finished =>
      refine ⟨fun consumer alive => ?_, .inl rfl, fun _ _ => .inl rfl⟩
      have unfinished : (system.at? consumer).done = false := alive
      have here := registered.listed consumer unfinished
      rcases registered.waits waiting (List.mem_of_getElem? called) with none | same
      · rw [none] at here
        exact here
      · rw [← same] at here
        rw [finished consumer here] at unfinished
        cases unfinished

/-- No more consumers are alive than configured. -/
theorem Registered.few (registered : Registered setup system) :
    ((Finset.range system.tasks.length).filter fun consumer =>
      (system.at? consumer).done = false).card ≤ setup.worker.concurrency := by
  have within : (Finset.range system.tasks.length).filter (fun consumer =>
      (system.at? consumer).done = false) ⊆ system.running.toFinset := by
    intro consumer member
    exact List.mem_toFinset.mpr (registered.listed consumer (Finset.mem_filter.mp member).2)
  apply (Finset.card_le_card within).trans
  rcases registered.running with none | ⟨first, some⟩
  · simp [none]
  · exact (List.toFinset_card_le _).trans (by rw [some, List.length_range'])

/-- While nobody is alive and nobody starts the worker, the API alone touches the queue. -/
theorem Moved.of_dead (moved : Moved setup system move later) (other : move ≠ .start)
    (dead : ∀ consumer, (system.at? consumer).done = true) :
    later.queue = system.queue ∨ ∃ event, move = .send event ∧
      later.queue = system.queue.after setup.host setup.queue (.send event) := by
  have nobody : ∀ {consumer : ℕ} {standing : Consumer}, system.at? consumer = standing →
      standing.done = false → False := by
    rintro consumer standing rfl unfinished
    rw [dead consumer] at unfinished
    cases unfinished
  cases moved with
  | idle | stopCalled | drained => exact .inl rfl
  | sent event => exact .inr ⟨event, rfl, rfl⟩
  | @landed _ write =>
      obtain ⟨sink, event, landed⟩ := write
      cases sink <;> exact .inl rfl
  | quit stands | fetched stands | beat stands | stale stands | stored stands | indexed stands
    | overflowed stands | failed stands | backoffOverflowed stands | acked stands | refused stands
    | waited stands | faulted stands | found stands =>
      exact (nobody stands rfl).elim
  | cancelled unfinished => exact (nobody rfl unfinished).elim
  | started => exact absurd rfl other

end System

/-! ### Runs of the console -/

theorem FaultTarget.value_injective : Function.Injective FaultTarget.value := by
  intro first second same
  cases first <;> cases second <;> first | rfl | exact absurd same (by decide)

/-- The move of the worker that a move of the console makes. -/
def ConsoleMove.move? : ConsoleMove → Option Move
  | .fault dependency down =>
      if dependency = .worker then some (if down then .stop else .start) else none
  | .work move => some move

/-- The event that the API sends in a move. -/
def ConsoleMove.sent? : ConsoleMove → Option Event
  | .work (.send event) => some event
  | _ => none

theorem ConsoleMove.sent?_eq_some {move : ConsoleMove} {event : Event} :
    move.sent? = some event ↔ move = .work (.send event) := by
  cases move with
  | fault => simp [sent?]
  | work inner => cases inner <;> simp [sent?]

/-- What a move of the console asks of a dependency. -/
def ConsoleMove.fault? (dependency : FaultTarget) : ConsoleMove → Option Bool
  | .fault other down => if other = dependency then some down else none
  | .work _ => none

namespace Console

variable {setup : Setup} {console : Console} {moves more : List ConsoleMove}

def run (setup : Setup) (moves : List ConsoleMove) : Console :=
  Machine.run (Console.next setup) Console.start moves

@[simp] theorem run_snoc (setup : Setup) (moves : List ConsoleMove) (move : ConsoleMove) :
    run setup (moves ++ [move]) = (run setup moves).next setup move :=
  Machine.run_snoc ..

theorem work_cases (setup : Setup) (move : Move) (console : Console) :
    ((∃ index ∈ console.refused, move = .land index) ∧ console.work setup move = console) ∨
      ((∀ index ∈ console.refused, move ≠ .land index) ∧ console.work setup move = { console with
        system := console.system.next setup move
        refused := console.refused ∪ refusals console.faulted console.system
          (console.system.next setup move) }) := by
  cases move with
  | land index =>
      by_cases refused : index ∈ console.refused
      · exact .inl ⟨⟨index, refused, rfl⟩, by simp [work, refused]⟩
      · refine .inr ⟨fun other member same => ?_, by simp [work, refused]⟩
        cases same
        exact refused member
  | _ => exact .inr ⟨by simp, rfl⟩

/-- The worker of the console takes the moves of a worker. -/
theorem next_system (setup : Setup) (console : Console) (move : ConsoleMove) :
    (console.next setup move).system = console.system ∨
      ∃ inner, move.move? = some inner ∧
        (console.next setup move).system = console.system.next setup inner := by
  have works : ∀ inner, (console.work setup inner).system = console.system ∨
      (console.work setup inner).system = console.system.next setup inner := by
    intro inner
    rcases work_cases setup inner console with ⟨-, same⟩ | ⟨-, taken⟩
    · exact .inl (by rw [same])
    · exact .inr (by rw [taken])
  cases move with
  | work inner => exact (works inner).imp_right fun taken => ⟨inner, rfl, taken⟩
  | fault dependency down =>
      by_cases worker : dependency = .worker
      · simp only [next, fault, if_pos worker]
        exact (works _).imp_right fun taken => ⟨_, by simp [ConsoleMove.move?, worker], taken⟩
      · left
        simp only [next, fault, if_neg worker]
        split <;> rfl

/-- The last thing that was asked of a dependency: `true` for down, and none when the console has
left it alone. -/
def lastFault (moves : List ConsoleMove) (dependency : FaultTarget) : Option Bool :=
  (moves.filterMap (ConsoleMove.fault? dependency)).getLast?

theorem mem_faulted_run (setup : Setup) (moves : List ConsoleMove) (name : String) :
    name ∈ (run setup moves).faulted ↔ ∃ dependency, dependency ≠ .worker ∧ name = dependency.value ∧
      lastFault moves dependency = some true := by
  induction moves using List.reverseRecOn with
  | nil => simp [run, start, lastFault]
  | append_singleton moves move ih =>
      have unasked : ∀ dependency, dependency ≠ .worker → move.fault? dependency = none →
          lastFault (moves ++ [move]) dependency = lastFault moves dependency := by
        intro dependency _ silent
        rw [lastFault, Machine.getLast?_filterMap_snoc, silent]
        rfl
      rw [run_snoc]
      generalize run setup moves = console at ih ⊢
      have works : ∀ inner, (console.work setup inner).faulted = console.faulted := by
        intro inner
        rcases work_cases setup inner console with ⟨-, same⟩ | ⟨-, taken⟩
        · rw [same]
        · rw [taken]
      cases move with
      | work inner =>
          rw [next, works, ih]
          refine exists_congr fun dependency => and_congr_right fun real => ?_
          rw [unasked dependency real rfl]
      | fault target down =>
          by_cases worker : target = .worker
          · simp only [next, fault, if_pos worker, works, ih]
            refine exists_congr fun dependency => and_congr_right fun real => ?_
            rw [unasked dependency real (if_neg (worker ▸ real.symm))]
          · have asked : ∀ dependency, lastFault (moves ++ [.fault target down]) dependency =
                if target = dependency then some down else lastFault moves dependency := by
              intro dependency
              rw [lastFault, Machine.getLast?_filterMap_snoc, ConsoleMove.fault?]
              split <;> rfl
            simp only [asked, next, fault, if_neg worker]
            cases down with
            | true =>
                simp only [if_true, Faults.enable, Finset.mem_insert, ih]
                constructor
                · rintro (rfl | ⟨dependency, real, rfl, last⟩)
                  · exact ⟨target, worker, rfl, by simp⟩
                  · exact ⟨dependency, real, rfl, by simp [last]⟩
                · rintro ⟨dependency, real, rfl, last⟩
                  split at last
                  · rename_i same
                    exact .inl (by rw [same])
                  · exact .inr ⟨dependency, real, rfl, last⟩
            | false =>
                simp only [Bool.false_eq_true, if_false, Faults.disable, Finset.mem_erase, ih]
                constructor
                · rintro ⟨other, dependency, real, rfl, last⟩
                  have different : target ≠ dependency := fun same => other (by rw [same])
                  exact ⟨dependency, real, rfl, by rw [if_neg different, last]⟩
                · rintro ⟨dependency, real, rfl, last⟩
                  split at last
                  · cases last
                  · rename_i different
                    refine ⟨fun same => different ?_, dependency, real, rfl, last⟩
                    exact (FaultTarget.value_injective same).symm

/-- No start takes effect while a call of `stop` waits for its tasks.  The flag that it has cleared
would be set again, and the tasks that it waits for would go on. -/
def Apart (setup : Setup) (moves : List ConsoleMove) : Prop :=
  ∀ visit ∈ Machine.visits (Console.next setup) Console.start moves,
    visit.2.move? = some .start → visit.1.system.running = [] → visit.1.system.stops = []

/-- The worker of the console is one that some moves lead to.  So whatever holds of every run of a
worker holds of it. -/
theorem ran_run (setup : Setup) (moves : List ConsoleMove) :
    ∃ taken, (run setup moves).system = System.run setup taken := by
  induction moves using List.reverseRecOn with
  | nil => exact ⟨[], rfl⟩
  | append_singleton moves move ih =>
      obtain ⟨taken, ran⟩ := ih
      rw [run_snoc]
      rcases next_system setup (run setup moves) move with same | ⟨inner, -, stepped⟩
      · exact ⟨taken, same.trans ran⟩
      · exact ⟨taken ++ [inner], by rw [stepped, ran, System.run_snoc]⟩

theorem linked_run (setup : Setup) (moves : List ConsoleMove) :
    InMemoryEventQueue.Linked setup.host (run setup moves).system.queue := by
  obtain ⟨taken, ran⟩ := ran_run setup moves
  rw [ran]
  exact (System.driven_run setup taken).linked

theorem registered_run (setup : Setup) {moves : List ConsoleMove} (apart : Apart setup moves) :
    System.Registered setup (run setup moves).system := by
  induction moves using List.reverseRecOn with
  | nil => exact System.registered_create setup
  | append_singleton moves move ih =>
      rw [Apart, Machine.visits_snoc] at apart
      have before := ih fun visit member => apart visit (List.mem_append_left _ member)
      have last := apart _ (List.mem_append_right _ (List.mem_singleton_self _))
      rw [run_snoc]
      rcases next_system setup (run setup moves) move with same | ⟨inner, made, stepped⟩
      · rw [same]
        exact before
      · rw [stepped]
        exact before.moved (System.next_moved (linked_run setup moves) inner) fun starts =>
          last (by rw [made, starts])

/-! ### What the routes answer -/

theorem mem_report {name : String} : name ∈ console.report ↔
    name ∈ console.faulted ∨ (name = "worker" ∧ console.system.running = []) := by
  simp only [report, System.workerStats, List.mem_append, Faults.active, Finset.mem_sort,
    List.length_eq_zero_iff]
  by_cases idle : console.system.running = [] <;> simp [idle]

theorem statusOf_ne_up (pings : Pings) (faulted : Faults) (dependency : FaultTarget) :
    statusOf pings faulted dependency ≠ "up" ↔
      dependency.value ∈ faulted ∨ ∃ exn, pings dependency = .error exn := by
  unfold statusOf Faults.guard
  by_cases simulated : dependency.value ∈ faulted
  · simp [simulated, bind, Except.bind]
  · cases pings dependency <;> simp [simulated, bind, Except.bind]

theorem degraded_iff (pings : Pings) (now : ℚ) {dependency : FaultTarget}
    (real : dependency ≠ .worker) :
    dependency.value ∈ (console.health setup pings now).degradedBy ↔
      dependency.value ∈ console.faulted ∨ ∃ exn, pings dependency = .error exn := by
  have listed : dependency ∈ pinged := by
    cases dependency <;> simp [pinged] at real ⊢
  rw [← statusOf_ne_up]
  simp only [health, healthOf, List.mem_map, List.mem_filter, decide_eq_true_eq]
  constructor
  · rintro ⟨item, ⟨⟨other, -, rfl⟩, down⟩, same⟩
    rwa [FaultTarget.value_injective same] at down
  · intro down
    exact ⟨_, ⟨⟨dependency, listed, rfl⟩, down⟩, rfl⟩

/-! ### A stopped worker -/

/-- The sends of a stretch reach the queue one by one. -/
def sending (setup : Setup) (queue : InMemoryEventQueue)
    (events : List Event) : InMemoryEventQueue :=
  events.foldl (fun queue event => queue.after setup.host setup.queue (.send event)) queue

/-- Once nobody is alive, a move that does not start the worker revives nobody, and what it does to the
queue is at most a send. -/
theorem next_of_dead {move : ConsoleMove}
    (linked : InMemoryEventQueue.Linked setup.host console.system.queue)
    (dead : ∀ consumer, (console.system.at? consumer).done = true)
    (other : move.move? ≠ some .start) :
    (∀ consumer, ((console.next setup move).system.at? consumer).done = true) ∧
      (console.next setup move).system.queue =
        sending setup console.system.queue move.sent?.toList := by
  have steps : ∀ inner, move.move? = some inner →
      (console.next setup move).system = console.system.next setup inner →
      (∀ consumer, ((console.next setup move).system.at? consumer).done = true) ∧
        ((console.next setup move).system.queue = console.system.queue ∨ ∃ event,
          inner = .send event) := by
    intro inner made stepped
    have notStart : inner ≠ .start := fun starts => other (by rw [made, starts])
    have moved := System.next_moved linked inner
    rw [stepped]
    constructor
    · intro consumer
      by_contra alive
      have before := moved.alive notStart (Bool.not_eq_true _ ▸ alive)
      rw [dead consumer] at before
      cases before
    · exact (moved.of_dead notStart dead).imp_right fun ⟨event, sends, _⟩ => ⟨event, sends⟩
  cases sends : move.sent? with
  | some event =>
      rw [ConsoleMove.sent?_eq_some] at sends
      subst sends
      exact ⟨(steps (.send event) rfl rfl).1, rfl⟩
  | none =>
      rcases next_system setup console move with same | ⟨inner, made, stepped⟩
      · rw [same]
        exact ⟨dead, rfl⟩
      · obtain ⟨still, same | ⟨event, rfl⟩⟩ := steps inner made stepped
        · exact ⟨still, same⟩
        · cases move with
          | fault dependency down =>
              by_cases worker : dependency = .worker <;> cases down <;>
                simp [ConsoleMove.move?, worker] at made
          | work inner =>
              cases made
              cases sends

/-- While nobody starts the worker, a dead one leaves the queue to the API. -/
theorem queue_of_dead (dead : ∀ consumer, ((run setup moves).system.at? consumer).done = true)
    (silent : ∀ move ∈ more, move.move? ≠ some .start) :
    (∀ consumer, ((run setup (moves ++ more)).system.at? consumer).done = true) ∧
      (run setup (moves ++ more)).system.queue =
        sending setup (run setup moves).system.queue (more.filterMap ConsoleMove.sent?) := by
  induction more using List.reverseRecOn with
  | nil =>
      rw [List.append_nil]
      exact ⟨dead, rfl⟩
  | append_singleton more move ih =>
      obtain ⟨still, queue⟩ := ih fun other member => silent other (List.mem_append_left _ member)
      obtain ⟨after, sent⟩ := next_of_dead (linked_run setup (moves ++ more)) still
        (silent move (List.mem_append_right _ (List.mem_singleton_self _)))
      rw [← List.append_assoc, run_snoc]
      refine ⟨after, ?_⟩
      rw [sent, queue, Machine.filterMap_snoc, sending, sending, sending, List.foldl_append]

/-- What the console says is so, after every run in which no start came between the call of a `stop` and
its return.  A store is listed exactly when it was last asked to be down, and degraded for that reason or
because its ping fails; no more consumers live than configured; and once the worker is listed, nobody is
alive, and until somebody starts it the queue only takes what is sent. -/
theorem reports_are_true (setup : Setup) {moves : List ConsoleMove} (apart : Apart setup moves) :
    (∀ dependency ≠ FaultTarget.worker,
      (dependency.value ∈ (run setup moves).report ↔ lastFault moves dependency = some true) ∧
      ∀ pings now, dependency.value ∈ ((run setup moves).health setup pings now).degradedBy ↔
        lastFault moves dependency = some true ∨ ∃ exn, pings dependency = .error exn) ∧
    ((Finset.range (run setup moves).system.tasks.length).filter fun consumer =>
      ((run setup moves).system.at? consumer).done = false).card ≤ setup.worker.concurrency ∧
    ("worker" ∈ (run setup moves).report →
      ∀ more : List ConsoleMove, (∀ move ∈ more, move.move? ≠ some .start) →
        (∀ consumer, ((run setup (moves ++ more)).system.at? consumer).done = true) ∧
        (run setup (moves ++ more)).system.queue =
          sending setup (run setup moves).system.queue (more.filterMap ConsoleMove.sent?)) := by
  have registered := registered_run setup apart
  have listed : ∀ dependency ≠ FaultTarget.worker,
      (dependency.value ∈ (run setup moves).faulted ↔ lastFault moves dependency = some true) := by
    intro dependency real
    rw [mem_faulted_run]
    constructor
    · rintro ⟨other, -, same, last⟩
      rwa [FaultTarget.value_injective same]
    · exact fun last => ⟨dependency, real, rfl, last⟩
  refine ⟨fun dependency real => ⟨?_, fun pings now => ?_⟩, registered.few, fun stopped more silent => ?_⟩
  · have other : dependency.value ≠ "worker" := fun same =>
      real (FaultTarget.value_injective (show _ = FaultTarget.worker.value from same))
    rw [mem_report, listed dependency real]
    simp [other]
  · rw [degraded_iff pings now real, listed dependency real]
  · have idle : (run setup moves).system.running = [] := by
      rcases mem_report.mp stopped with faulted | ⟨-, idle⟩
      · obtain ⟨dependency, real, same, -⟩ := (mem_faulted_run setup moves "worker").mp faulted
        exact absurd (FaultTarget.value_injective same.symm) real
      · exact idle
    apply queue_of_dead (fun consumer => ?_) silent
    by_contra alive
    have here := registered.listed consumer (Bool.not_eq_true _ ▸ alive)
    rw [idle] at here
    cases here

/-- One consumer, on the counting host. -/
def lonelySetup : Setup := sampleSetup {} { concurrency := 1 }

/-- Redis goes down for good and MongoDB for a moment, and the worker is stopped. -/
def stoppedInAnOutage : List ConsoleMove :=
  [.fault .worker false, .fault .redis true, .fault .mongodb true, .fault .mongodb false,
    .fault .worker true, .work (.cancel 0), .work (.drained 0)]

theorem the_console_tells_of_the_stopped_worker :
    "redis" ∈ (run lonelySetup stoppedInAnOutage).report ∧
      "mongodb" ∉ (run lonelySetup stoppedInAnOutage).report ∧
      ∀ consumer, ((run lonelySetup (stoppedInAnOutage ++
        [.work (.turn 0 none 1 1 1)])).system.at? consumer).done = true := by
  have apart : Apart lonelySetup stoppedInAnOutage := by
    intro visit member starts _
    simp only [stoppedInAnOutage, Machine.visits, List.mem_cons, List.not_mem_nil, or_false] at member
    rcases member with rfl | rfl | rfl | rfl | rfl | rfl | rfl
    · rfl
    all_goals simp [ConsoleMove.move?] at starts
  obtain ⟨listed, -, stopped⟩ := reports_are_true lonelySetup apart
  have quiet : (run lonelySetup stoppedInAnOutage).system.running = [] := rfl
  refine ⟨((listed .redis (by decide)).1).mpr rfl, fun member => ?_, ?_⟩
  · exact absurd (((listed .mongodb (by decide)).1).mp member) (by decide)
  · refine (stopped (mem_report.mpr (.inr ⟨rfl, quiet⟩)) _ fun move member => ?_).1
    rw [List.mem_singleton.mp member]
    simp [ConsoleMove.move?]

/-- Two calls of `stop` wait for one consumer, and the worker is started between their returns. -/
def overlappingStops : List ConsoleMove :=
  [.fault .worker false, .fault .worker true, .fault .worker true, .work (.cancel 0),
    .work (.drained 0), .fault .worker false, .work (.drained 0)]

/-- Where stops overlap a start, the console can call a worker stopped whose consumer lives. -/
theorem a_live_consumer_can_be_listed_as_stopped :
    "worker" ∈ (run lonelySetup overlappingStops).report ∧
      ((run lonelySetup overlappingStops).system.at? 1).done = false :=
  ⟨mem_report.mpr (.inr ⟨rfl, rfl⟩), rfl⟩

end Console

end FeathrEvents
