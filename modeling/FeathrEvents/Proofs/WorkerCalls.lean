/-
Module: FeathrEvents.Proofs.WorkerCalls
Purpose: The queue of a running worker is a queue under the calls that the history records: no call
  is missing, none is `clear`, and the clock readings of the calls never go back.
Trusted boundary: none
Main exports: callsBy, calls, run, Driven, driven_run
-/
import FeathrEvents.Proofs.WorkerMoves
import FeathrEvents.Proofs.QueueDeadlines

namespace FeathrEvents

open InMemoryEventQueue (Linked reached linked_reached)

/-- The queue call that a happening is, with its caller. -/
def Happening.call? : Happening → Option (Option ℕ × QueueCall)
  | .called consumer call => some (consumer, call)
  | _ => none

/-- The queue calls in a history, each with its caller. -/
def callsBy (past : List Happening) : List (Option ℕ × QueueCall) := past.filterMap Happening.call?

/-- The queue calls in a history, in the order of the moves.  The queue of a system is what they
make of a fresh one, so every result about runs of the queue applies to it. -/
def calls (past : List Happening) : List QueueCall := (callsBy past).map Prod.snd

@[simp] theorem callsBy_append (first second : List Happening) :
    callsBy (first ++ second) = callsBy first ++ callsBy second :=
  List.filterMap_append

@[simp] theorem callsBy_nil : callsBy [] = [] := rfl

@[simp] theorem callsBy_cons (happening : Happening) (past : List Happening) :
    callsBy (happening :: past) = happening.call?.toList ++ callsBy past := by
  cases shape : happening.call? <;> simp [callsBy, shape]

@[simp] theorem callsBy_received (consumer : ℕ) (probe : Bool) (messages : List Message) :
    callsBy (messages.map (.received consumer probe)) = [] := by
  induction messages with
  | nil => rfl
  | cons message messages ih => simpa [Happening.call?] using ih

namespace System

/-- The system after some moves from the start. -/
def run (setup : Setup) (moves : List Move) : System :=
  Machine.run (System.next setup) System.create moves

@[simp] theorem run_nil (setup : Setup) : run setup [] = System.create := rfl

@[simp] theorem run_snoc (setup : Setup) (moves : List Move) (move : Move) :
    run setup (moves ++ [move]) = (run setup moves).next setup move :=
  Machine.run_snoc ..

variable {setup : Setup} {system later : System} {move : Move}

/-- A move makes at most one call of the queue, never `clear`, and its readings are in order and not
before the last ones. -/
theorem Moved.calls (moved : Moved setup system move later) :
    system.now ≤ later.now ∧
    ((later.queue = system.queue ∧ callsBy later.past = callsBy system.past) ∨
    ∃ consumer call, later.queue = system.queue.after setup.host setup.queue call ∧
      callsBy later.past = callsBy system.past ++ [(consumer, call)] ∧ call ≠ .clear ∧
      (∀ time ∈ call.readings, system.now ≤ time ∧ time ≤ later.now) ∧
      call.readings.Pairwise (· ≤ ·)) := by
  cases moved with
  | idle => exact ⟨le_rfl, .inl ⟨rfl, rfl⟩⟩
  | sent event =>
      refine ⟨le_rfl, .inr ⟨none, _, rfl, by simp [made, Happening.call?], by simp, ?_, ?_⟩⟩
      · simp [QueueCall.readings]
      · simp [QueueCall.readings]
  | quit => exact ⟨le_rfl, .inl ⟨rfl, rfl⟩⟩
  | waited stands ordered =>
      exact ⟨ordered.1.trans (ordered.2.1.trans ordered.2.2), .inl ⟨rfl, rfl⟩⟩
  | faulted stands ordered =>
      exact ⟨ordered.1.trans (ordered.2.1.trans ordered.2.2), .inl ⟨rfl, rfl⟩⟩
  | @found consumer _ _ _ _ _ _ stands ordered =>
      obtain ⟨first, second, third⟩ := ordered
      refine ⟨first.trans (second.trans third), .inr ⟨some consumer, _, rfl, by
        simp [made, withSink, tick, Happening.call?], by simp, ?_, ?_⟩⟩
      · simpa [QueueCall.readings, made, withSink, tick] using
          ⟨⟨first.trans second, third⟩, first.trans (second.trans third)⟩
      · simpa [QueueCall.readings] using third
  | @fetched consumer _ _ _ _ _ _ _ stands ordered =>
      obtain ⟨first, second, third⟩ := ordered
      refine ⟨first.trans (second.trans third), .inr ⟨some consumer, _, rfl, by
        simp [made, withSink, tick, put, note, Happening.call?], by simp, ?_, ?_⟩⟩
      · simpa [QueueCall.readings, made, withSink, tick, put, note] using
          ⟨⟨first.trans second, third⟩, first.trans (second.trans third)⟩
      · simpa [QueueCall.readings] using third
  | @beat consumer _ _ _ stands ordered =>
      refine ⟨ordered, .inr ⟨some consumer, _, rfl, by
        simp [made, begin, tick, Happening.call?], by simp, ?_, ?_⟩⟩
      · simpa [QueueCall.readings, made, begin, tick] using ordered
      · simp [QueueCall.readings]
  | @stale consumer _ _ _ stands ordered =>
      refine ⟨ordered, .inr ⟨some consumer, _, rfl, by simp [made, put, tick, Happening.call?], by simp, ?_, ?_⟩⟩
      · simpa [QueueCall.readings, made, put, tick] using ordered
      · simp [QueueCall.readings]
  | @landed index write sent pending =>
      obtain ⟨sink, event, landed⟩ := write
      cases sink <;> exact ⟨le_rfl, .inl ⟨rfl, rfl⟩⟩
  | stored => exact ⟨le_rfl, .inl ⟨rfl, by simp [begin, note, Happening.call?]⟩⟩
  | indexed =>
      exact ⟨le_rfl, .inl ⟨rfl, by simp [put, withSink, note, Happening.call?]⟩⟩
  | overflowed stands ordered =>
      exact ⟨ordered.1.trans (ordered.2.1.trans ordered.2.2), .inl ⟨rfl, by
        simp [put, reported, Happening.call?]⟩⟩
  | @failed consumer _ _ _ _ _ _ _ _ stands ordered =>
      obtain ⟨first, second, third⟩ := ordered
      refine ⟨first.trans (second.trans third), .inr ⟨some consumer, _, rfl, by
        simp [made, put, reported, Happening.call?], by simp, ?_, ?_⟩⟩
      · simpa [QueueCall.readings, made, put, reported] using first.trans (second.trans third)
      · simp [QueueCall.readings]
  | @backoffOverflowed consumer _ _ _ _ _ _ _ _ stands ordered =>
      obtain ⟨first, second, third⟩ := ordered
      refine ⟨first.trans (second.trans third), .inr ⟨some consumer, _, rfl, by
        simp [made, put, reported, Happening.call?], by simp, ?_, ?_⟩⟩
      · simpa [QueueCall.readings, made, put, reported] using first.trans (second.trans third)
      · simp [QueueCall.readings]
  | @acked consumer _ _ =>
      refine ⟨le_rfl, .inr ⟨some consumer, _, rfl, by simp [made, put, Happening.call?], by simp, ?_, ?_⟩⟩ <;>
        simp [QueueCall.readings]
  | @refused consumer _ _ =>
      refine ⟨le_rfl, .inr ⟨some consumer, _, rfl, by simp [made, put, Happening.call?], by simp, ?_, ?_⟩⟩ <;>
        simp [QueueCall.readings]
  | cancelled => exact ⟨le_rfl, .inl ⟨rfl, rfl⟩⟩
  | started => exact ⟨le_rfl, .inl ⟨rfl, rfl⟩⟩
  | stopCalled => exact ⟨le_rfl, .inl ⟨rfl, rfl⟩⟩
  | drained => exact ⟨le_rfl, .inl ⟨rfl, rfl⟩⟩

/-- The queue of the system is the one that the recorded calls lead to.  Through this the results
about runs of the queue apply to the worker. -/
structure Driven (setup : Setup) (system : System) : Prop where
  queue : system.queue = reached setup.host setup.queue (calls system.past)
  read : ∀ time ∈ (FeathrEvents.calls system.past).flatMap QueueCall.readings, time ≤ system.now
  ordered : Nondecreasing (FeathrEvents.calls system.past)
  port : .clear ∉ FeathrEvents.calls system.past

theorem Driven.linked (driven : Driven setup system) : Linked setup.host system.queue := by
  rw [driven.queue]
  exact linked_reached ..

theorem Driven.next (driven : Driven setup system) (move : Move) :
    Driven setup (system.next setup move) := by
  obtain ⟨forward, ⟨queue, past⟩ | ⟨consumer, call, queue, past, port, read, ordered⟩⟩ :=
    (next_moved driven.linked move).calls
  · have same : FeathrEvents.calls (system.next setup move).past =
        FeathrEvents.calls system.past := by rw [FeathrEvents.calls, past, FeathrEvents.calls]
    refine ⟨?_, ?_, ?_, ?_⟩
    · rw [queue, same, driven.queue]
    · rw [same]
      exact fun time member => (driven.read time member).trans forward
    · rw [same]
      exact driven.ordered
    · rw [same]
      exact driven.port
  · have same : FeathrEvents.calls (system.next setup move).past =
        FeathrEvents.calls system.past ++ [call] := by
      simp [FeathrEvents.calls, past]
    refine ⟨?_, ?_, ?_, ?_⟩
    · rw [queue, same, InMemoryEventQueue.reached_snoc, driven.queue]
    · rw [same]
      intro time member
      simp only [List.flatMap_append, List.flatMap_cons, List.flatMap_nil, List.append_nil,
        List.mem_append] at member
      rcases member with earlier | now
      · exact (driven.read time earlier).trans forward
      · exact (read time now).2
    · rw [same, Nondecreasing, List.flatMap_append, List.pairwise_append]
      refine ⟨driven.ordered, by simpa using ordered, fun earlier member now present => ?_⟩
      simp only [List.flatMap_cons, List.flatMap_nil, List.append_nil] at present
      exact (driven.read earlier member).trans (read now present).1
    · rw [same]
      simpa using ⟨driven.port, fun equal => port equal.symm⟩

theorem driven_create : Driven setup System.create where
  queue := rfl
  read := by simp [System.create, FeathrEvents.calls]
  ordered := List.Pairwise.nil
  port := by simp [System.create, FeathrEvents.calls]

theorem driven_run (setup : Setup) (moves : List Move) : Driven setup (run setup moves) :=
  Machine.run_invariant (System.next setup) (Driven setup) (fun _ => True) driven_create
    (fun _ move _ driven => driven.next move) moves fun _ _ => trivial

/-- No call is ever taken out of the history. -/
theorem callsBy_grows (setup : Setup) (moves more : List Move) :
    ∃ later, callsBy (run setup (moves ++ more)).past = callsBy (run setup moves).past ++ later := by
  induction more using List.reverseRecOn with
  | nil => exact ⟨[], by simp⟩
  | append_singleton more move ih =>
      obtain ⟨later, grown⟩ := ih
      rw [← List.append_assoc, run_snoc]
      obtain ⟨-, ⟨-, past⟩ | ⟨consumer, call, -, past, -⟩⟩ :=
        (next_moved (driven_run setup (moves ++ more)).linked move).calls
      · exact ⟨later, past.trans grown⟩
      · exact ⟨later ++ [(consumer, call)], by rw [past, grown, List.append_assoc]⟩

end System

end FeathrEvents
