/-
Module: FeathrEvents.Proofs.WorkerLoop
Purpose: The schedules of the event loop: a task gives up control only where it really waits, which is
  neither between a `receive` and the first heartbeat nor between a store and the delete.
Trusted boundary: `Consumer.runs` says where a task waits in `EventWorker._loop` and `_handle`, given
  that the methods of the queue never suspend.
Main exports: Consumer.runs, Move.during, Unbroken, Moved.ran_before, Unbroken.one_runs, Moved.runs_on
-/
import FeathrEvents.Proofs.WorkerCalls

namespace FeathrEvents

/-- The task is not at an await that suspends it: it goes on to a heartbeat or to a delete before
the event loop turns to any other one. -/
def Consumer.runs : Consumer → Bool
  | .batch _ | .acking .. => true
  | .ready | .writing .. | .stopped | .cancelled | .died _ => false

/-- The moves that can come while a consumer runs: its own, and those of the stores. -/
def Move.during (consumer : ℕ) : Move → Bool
  | .turn other .. | .heartbeat other _ | .returned other | .raised other .. | .ack other =>
      other = consumer
  | .land _ => true
  | .send _ | .cancel _ | .start | .stop | .drained _ => false

namespace System

/-- No task is interrupted while it runs: only its own moves, and what the stores do on their side,
come between two of its suspending awaits.  This is what asyncio gives, and runs of the model need
not have it. -/
def Unbroken (setup : Setup) (moves : List Move) : Prop :=
  ∀ visit ∈ Machine.visits (System.next setup) System.create moves,
    ∀ consumer < visit.1.tasks.length, (visit.1.at? consumer).runs = true →
      visit.2.during consumer = true

instance (setup : Setup) (moves : List Move) : Decidable (Unbroken setup moves) :=
  inferInstanceAs (Decidable (∀ visit ∈ Machine.visits (System.next setup) System.create moves,
    ∀ consumer < visit.1.tasks.length, (visit.1.at? consumer).runs = true →
      visit.2.during consumer = true))

variable {setup : Setup} {system later : System} {move : Move} {moves : List Move} {consumer : ℕ}

theorem Unbroken.left {more : List Move} (unbroken : Unbroken setup (moves ++ more)) :
    Unbroken setup moves := by
  intro visit member
  apply unbroken visit
  rw [Machine.visits_append]
  exact List.mem_append_left _ member

theorem Unbroken.during {more : List Move} (unbroken : Unbroken setup (moves ++ move :: more))
    (running : ((run setup moves).at? consumer).runs = true) : move.during consumer = true := by
  have inside : consumer < (run setup moves).tasks.length := by
    apply lt_of_at?
    intro stopped
    rw [stopped] at running
    cases running
  refine unbroken (run setup moves, move) ?_ consumer inside running
  rw [Machine.visits_append]
  exact List.mem_append_right _ (List.mem_cons_self ..)

/-- A consumer that runs after a move ran before it, or the move was its own. -/
theorem Moved.ran_before (moved : Moved setup system move later)
    (running : (later.at? consumer).runs = true) :
    (system.at? consumer).runs = true ∨
      ∀ other, move.during other = true ↔ consumer = other := by
  have moves : ∀ {mover : ℕ} {standing : Consumer}, system.at? mover ≠ .stopped →
      later.tasks = system.tasks.set mover standing →
      (∀ other, move.during other = decide (mover = other)) →
      (system.at? consumer).runs = true ∨ ∀ other, move.during other = true ↔ consumer = other := by
    intro mover standing stood tasks own
    rw [at?_of_tasks tasks stood] at running
    split at running
    · rename_i same
      exact .inr fun other => by rw [own, decide_eq_true_iff, same]
    · exact .inl running
  have starts : ∀ {count : ℕ}, later.tasks = system.tasks ++ List.replicate count .ready →
      (system.at? consumer).runs = true := by
    intro count tasks
    rcases at?_of_started tasks consumer with same | ⟨-, ready⟩
    · exact same ▸ running
    · rw [ready] at running
      cases running
  cases moved with
  | idle | sent | waited | faulted | found | stopCalled | drained => exact .inl running
  | @landed _ write =>
      obtain ⟨sink, event, landed⟩ := write
      cases sink <;> exact .inl running
  | quit stands | fetched stands | beat stands | stale stands | stored stands | indexed stands
  | overflowed stands | failed stands | backoffOverflowed stands | acked stands | refused stands =>
      exact moves (by simp [stands]) rfl fun _ => rfl
  | cancelled unfinished =>
      rw [at?_of_tasks rfl (Consumer.ne_stopped unfinished)] at running
      split at running
      · cases running
      · exact .inl running
  | started => exact .inl (starts rfl)

/-- A schedule of the event loop has at most one task that runs, since whoever runs keeps the others where
they are. -/
theorem Unbroken.one_runs (unbroken : Unbroken setup moves) {first second : ℕ}
    (one : ((run setup moves).at? first).runs = true)
    (two : ((run setup moves).at? second).runs = true) : first = second := by
  induction moves using List.reverseRecOn generalizing first second with
  | nil => cases one
  | append_singleton moves move ih =>
      have moved := next_moved (driven_run setup moves).linked move
      rw [run_snoc] at one two
      rcases moved.ran_before one, moved.ran_before two with ⟨before | own, earlier | other⟩
      · exact ih unbroken.left before earlier
      · exact ((other first).mp (unbroken.during before)).symm
      · exact (own second).mp (unbroken.during earlier)
      · exact (own second).mp ((other second).mpr rfl)

/-- While a consumer runs, the queue sees nothing but its heartbeat or its delete. -/
theorem Moved.runs_on (moved : Moved setup system move later)
    (running : (system.at? consumer).runs = true) (during : move.during consumer = true) :
    (later.at? consumer = system.at? consumer ∧ later.queue = system.queue ∧
      callsBy later.past = callsBy system.past) ∨
    (∃ now message rest, move = .heartbeat consumer now ∧
      system.at? consumer = .batch (message :: rest)) ∨
    ∃ message rest, system.at? consumer = .acking message rest ∧
      later.at? consumer = .resume rest ∧ callsBy later.past =
        callsBy system.past ++ [(some consumer, .delete message.receiptHandle)] := by
  have mine : ∀ {other : ℕ} {standing : Consumer}, system.at? other = standing →
      standing.runs = false → decide (other = consumer) = true → False := by
    intro other standing stands idle same
    rw [of_decide_eq_true same] at stands
    rw [stands, idle] at running
    cases running
  cases moved with
  | idle => exact .inl ⟨rfl, rfl, rfl⟩
  | quit stands | waited stands | faulted stands | found stands | fetched stands =>
      exact (mine stands rfl during).elim
  | @beat other now message rest stands | @stale other now message rest stands =>
      cases of_decide_eq_true during
      exact .inr (.inl ⟨now, message, rest, rfl, stands⟩)
  | @landed _ write =>
      obtain ⟨sink, event, landed⟩ := write
      cases sink <;> exact .inl ⟨rfl, rfl, rfl⟩
  | stored stands | indexed stands | overflowed stands | failed stands | backoffOverflowed stands =>
      exact (mine stands rfl during).elim
  | @acked other message rest stands | @refused other message rest stands =>
      cases of_decide_eq_true during
      have stood : system.at? consumer ≠ .stopped := by simp [stands]
      refine .inr (.inr ⟨message, rest, stands, ?_, by simp [put, made, Happening.call?]⟩)
      exact (at?_of_tasks rfl stood consumer).trans (if_pos rfl)
  | sent | cancelled | started | stopCalled | drained => cases during

end System

end FeathrEvents
