/-
Module: FeathrEvents.Proofs.WorkerTrail
Purpose: What the history of a run says about the work of a delivery: work begins with a heartbeat
  that found the handle live, and a delete comes after both writes returned, in order.
Trusted boundary: none
Main exports: Happening.work?, Consumer.trail, Beaten, BothWritten, Trailed, trailed_run
-/
import FeathrEvents.Proofs.WorkerOwnership

namespace FeathrEvents

open InMemoryEventQueue (Lends reached)

/-- The consumer and the message that a happening is work on: a call of a store, its outcome, or what
the circuit is told. -/
def Happening.work? : Happening → Option (ℕ × Message)
  | .began consumer _ message | .returned consumer _ message | .raised consumer _ message
  | .recordedSuccess consumer message | .recordedFailure consumer message =>
      some (consumer, message)
  | .called .. | .received .. => none

/-- What must have happened, in order, where a consumer stands. -/
def Consumer.trail (consumer : ℕ) : Consumer → List Happening
  | .writing .mongodb message _ _ => [.began consumer .mongodb message]
  | .writing .elasticsearch message _ _ =>
      [.began consumer .mongodb message, .returned consumer .mongodb message]
  | .acking message _ =>
      [.began consumer .mongodb message, .returned consumer .mongodb message,
        .returned consumer .elasticsearch message]
  | .ready | .batch _ | .stopped | .cancelled | .died _ => []

@[simp] theorem Consumer.trail_resume (consumer : ℕ) (rest : List Message) :
    (Consumer.resume rest).trail consumer = [] := by
  cases rest <;> rfl

/-- The consumer's heartbeat found the handle of the message live. -/
def Beaten (setup : Setup) (past : List Happening) (consumer : ℕ) (message : Message) : Prop :=
  ∃ before after seconds time,
    callsBy past =
      before ++ (some consumer, .changeVisibility message.receiptHandle seconds time) :: after ∧
    (reached setup.host setup.queue (before.map Prod.snd)).inflight.get? message.receiptHandle ≠ none

/-- The caller has had both writes of the delivery under this handle return, the first before the
second. -/
def BothWritten (setup : Setup) (past : List Happening) (caller : Option ℕ) (handle : String) :
    Prop :=
  ∃ consumer message, caller = some consumer ∧ message.receiptHandle = handle ∧
    [.returned consumer .mongodb message, .returned consumer .elasticsearch message].Sublist past ∧
    Lends (reached setup.host setup.queue (calls past)) message

theorem Beaten.more {setup : Setup} {past : List Happening} {consumer : ℕ} {message : Message}
    (beaten : Beaten setup past consumer message) (fresh : List Happening) :
    Beaten setup (past ++ fresh) consumer message := by
  obtain ⟨before, after, seconds, time, split, live⟩ := beaten
  exact ⟨before, after ++ callsBy fresh, seconds, time, by simp [split], live⟩

namespace System

structure Trailed (setup : Setup) (system : System) : Prop where
  trail : ∀ consumer, ((system.at? consumer).trail consumer).Sublist system.past
  begun : ∀ happening ∈ system.past, ∀ consumer message,
    happening.work? = some (consumer, message) → .began consumer .mongodb message ∈ system.past
  beaten : ∀ consumer message, .began consumer .mongodb message ∈ system.past →
    Beaten setup system.past consumer message
  deleted : ∀ before caller handle after,
    system.past = before ++ .called caller (.delete handle) :: after →
    BothWritten setup before caller handle

variable {setup : Setup} {system later : System}

theorem trailed_create : Trailed setup System.create where
  trail consumer := by simp [System.create, at?, Consumer.trail]
  begun := by simp [System.create]
  beaten := by simp [System.create]
  deleted := by simp [System.create]

/-- What a move must show about its own happenings. -/
theorem Trailed.step (trailed : Trailed setup system) {fresh : List Happening}
    (past : later.past = system.past ++ fresh)
    (stands : ∀ other, later.at? other = system.at? other ∨
      ((later.at? other).trail other).Sublist later.past)
    (begun : ∀ happening ∈ fresh, ∀ consumer message,
      happening.work? = some (consumer, message) → .began consumer .mongodb message ∈ later.past)
    (beaten : ∀ consumer message, .began consumer .mongodb message ∈ fresh →
      Beaten setup later.past consumer message)
    (deleted : ∀ before caller handle after,
      fresh = before ++ .called caller (.delete handle) :: after →
      BothWritten setup (system.past ++ before) caller handle) :
    Trailed setup later where
  trail consumer := by
    rcases stands consumer with same | trails
    · rw [same, past]
      exact (trailed.trail consumer).trans (List.sublist_append_left _ _)
    · exact trails
  begun happening member consumer message works := by
    rw [past] at member
    rcases List.mem_append.mp member with old | new
    · rw [past]
      exact List.mem_append_left _ (trailed.begun happening old consumer message works)
    · exact begun happening new consumer message works
  beaten consumer message member := by
    rw [past] at member
    rcases List.mem_append.mp member with old | new
    · rw [past]
      exact (trailed.beaten consumer message old).more fresh
    · exact beaten consumer message new
  deleted before caller handle after split := by
    rw [past] at split
    rcases List.append_eq_append_iff.mp split with ⟨between, rfl, tail⟩ | ⟨between, head, tail⟩
    · exact deleted between caller handle after tail
    · cases between with
      | nil =>
          rw [List.append_nil] at head
          rw [← head, ← List.append_nil system.past]
          exact deleted [] caller handle after tail.symm
      | cons first between =>
          cases tail
          exact trailed.deleted before caller handle between head

/-- A move that does nothing to the stores, deletes nothing, and leaves its consumer at rest. -/
theorem Trailed.rest (trailed : Trailed setup system) (fresh : List Happening)
    (past : later.past = system.past ++ fresh)
    (stands : ∀ other, later.at? other = system.at? other ∨ (later.at? other).trail other = [])
    (idle : ∀ happening ∈ fresh, happening.work? = none ∧
      ∀ caller handle, happening ≠ .called caller (.delete handle)) :
    Trailed setup later := by
  refine trailed.step past (fun other => ?_) ?_ ?_ ?_
  · refine (stands other).imp_right fun none => ?_
    rw [none]
    exact List.nil_sublist _
  · intro happening member consumer message works
    rw [(idle happening member).1] at works
    cases works
  · intro consumer message member
    cases (idle _ member).1
  · intro before caller handle after split
    exact absurd rfl ((idle _ (by rw [split]; simp)).2 caller handle)

/-- A consumer that moved where its trail is empty. -/
theorem rests_of_set {consumer : ℕ} {standing : Consumer} (stood : system.at? consumer ≠ .stopped)
    (tasks : later.tasks = system.tasks.set consumer standing)
    (here : standing.trail consumer = []) :
    ∀ other, later.at? other = system.at? other ∨ (later.at? other).trail other = [] :=
  same_or_of_tasks (fun other standing => standing.trail other = []) stood tasks here

/-- A consumer that moved where its trail has happened. -/
theorem trails_of_set {consumer : ℕ} {standing : Consumer} (stood : system.at? consumer ≠ .stopped)
    (tasks : later.tasks = system.tasks.set consumer standing)
    (here : (standing.trail consumer).Sublist later.past) :
    ∀ other, later.at? other = system.at? other ∨
      ((later.at? other).trail other).Sublist later.past :=
  same_or_of_tasks (fun other standing => (standing.trail other).Sublist later.past) stood tasks here

/-- The work of a consumer on the message it has begun. -/
theorem Trailed.work (trailed : Trailed setup system) {consumer : ℕ} (message : Message)
    {standing : Consumer} (fresh : List Happening) (stood : system.at? consumer ≠ .stopped)
    (began : .began consumer .mongodb message ∈ (system.at? consumer).trail consumer)
    (past : later.past = system.past ++ fresh)
    (tasks : later.tasks = system.tasks.set consumer standing)
    (here : (standing.trail consumer).Sublist
      ((system.at? consumer).trail consumer ++ fresh))
    (works : ∀ happening ∈ fresh, happening.work? = none ∨
      happening.work? = some (consumer, message))
    (kept : ∀ happening ∈ fresh, happening ≠ .began consumer .mongodb message ∧
      ∀ caller handle, happening ≠ .called caller (.delete handle)) :
    Trailed setup later := by
  have before : .began consumer .mongodb message ∈ system.past :=
    (trailed.trail consumer).subset began
  refine trailed.step past (trails_of_set stood tasks ?_) ?_ ?_ ?_
  · rw [past]
    exact here.trans ((trailed.trail consumer).append_right fresh)
  · intro happening member other kind same
    rcases works happening member with none | mine
    · rw [none] at same
      cases same
    · rw [mine] at same
      cases same
      rw [past]
      exact List.mem_append_left _ before
  · intro other kind member
    rcases works _ member with none | mine
    · cases none
    · cases mine
      exact absurd rfl (kept _ member).1
  · intro earlier caller handle after split
    exact absurd rfl ((kept _ (by rw [split]; simp)).2 caller handle)

/-- A delete comes after both writes. -/
theorem Trailed.delete (trailed : Trailed setup system) (driven : Driven setup system)
    (owned : Owned setup system) {consumer : ℕ} {message : Message} {rest : List Message}
    (stands : system.at? consumer = .acking message rest)
    (past : later.past =
      system.past ++ [.called (some consumer) (.delete message.receiptHandle)])
    (tasks : later.tasks = system.tasks.set consumer (.resume rest)) : Trailed setup later := by
  refine trailed.step past (trails_of_set (by simp [stands]) tasks (by simp)) ?_ ?_ ?_
  · intro happening member other kind works
    rw [List.mem_singleton] at member
    subst member
    cases works
  · intro other kind member
    simp at member
  · intro before caller handle after split
    cases before with
    | nil =>
        cases split
        refine ⟨consumer, message, rfl, rfl, ?_, ?_⟩
        · have trail := trailed.trail consumer
          rw [stands] at trail
          rw [List.append_nil]
          exact (List.sublist_cons_self _ _).trans trail
        · rw [List.append_nil, ← driven.queue]
          exact owned.lends consumer message (Consumer.current_held (by simp [stands, Consumer.current?]))
    | cons head before => simp at split

/-- A heartbeat that found its handle live is followed by the call of `store.upsert`. -/
theorem Trailed.beat (trailed : Trailed setup system) (driven : Driven setup system)
    {consumer write : ℕ} (now : ℚ) {message : Message} {rest : List Message}
    (stands : system.at? consumer = .batch (message :: rest))
    (live : system.queue.inflight.get? message.receiptHandle ≠ none)
    (past : later.past = system.past ++ [.called (some consumer) (.changeVisibility
      message.receiptHandle setup.worker.visibilityTimeout now), .began consumer .mongodb message])
    (tasks : later.tasks = system.tasks.set consumer (.writing .mongodb message rest write)) :
    Trailed setup later := by
  refine trailed.step past (trails_of_set (by simp [stands]) tasks ?_) ?_ ?_ ?_
  · rw [past]
    simp [Consumer.trail]
  · intro happening member other kind works
    rcases List.mem_cons.mp member with rfl | member
    · cases works
    · rw [List.mem_singleton] at member
      subst member
      cases works
      simp [past]
  · intro other kind member
    simp only [List.mem_cons, reduceCtorEq, Happening.began.injEq, true_and, false_or,
      List.not_mem_nil, or_false] at member
    obtain ⟨rfl, rfl⟩ := member
    refine ⟨callsBy system.past, [], setup.worker.visibilityTimeout, now, ?_, ?_⟩
    · rw [past]
      simp [Happening.call?]
    · rw [driven.queue] at live
      exact live
  · intro before caller handle after split
    have listed : Happening.called caller (.delete handle) ∈
        [.called (some consumer) (.changeVisibility message.receiptHandle
          setup.worker.visibilityTimeout now), .began consumer .mongodb message] := by
      rw [split]
      simp
    simp at listed

theorem Trailed.moved (trailed : Trailed setup system) (driven : Driven setup system)
    (owned : Owned setup system) {move : Move} (moved : Moved setup system move later) :
    Trailed setup later := by
  cases moved with
  | idle => exact trailed
  | sent event =>
      exact trailed.rest _ rfl (fun _ => .inl rfl) (by simp [Happening.work?])
  | quit stands =>
      exact trailed.rest [] (List.append_nil _).symm (rests_of_set (by simp [stands]) rfl rfl) (by simp)
  | waited => exact trailed.rest [] (List.append_nil _).symm (fun _ => .inl rfl) (by simp)
  | faulted => exact trailed.rest [] (List.append_nil _).symm (fun _ => .inl rfl) (by simp)
  | found => exact trailed.rest _ rfl (fun _ => .inl rfl) (by simp [Happening.work?])
  | @fetched consumer _ _ sweptAt now allowance _ messages stands =>
      refine trailed.rest (.called (some consumer) (.receive allowance none sweptAt now) ::
        messages.map (.received consumer system.sink.isOpen)) ?_
        (rests_of_set (by simp [stands]) rfl rfl) (by simp [Happening.work?])
      simp [made, note, put, withSink, tick]
  | @beat consumer now message rest stands ordered live =>
      exact trailed.beat driven now stands live (by simp [made, begin, tick]) rfl
  | @stale consumer now message rest stands =>
      exact trailed.rest _ rfl (rests_of_set (by simp [stands]) rfl (by simp))
        (by simp [Happening.work?])
  | @landed index write =>
      obtain ⟨sink, event, landed⟩ := write
      cases sink <;>
        exact trailed.rest [] (List.append_nil _).symm (fun _ => .inl rfl) (by simp)
  | @stored consumer message rest index stands =>
      refine trailed.work message
        [.returned consumer .mongodb message, .began consumer .elasticsearch message]
        (by simp [stands]) (by simp [stands, Consumer.trail]) (by simp [begin, note]) rfl ?_
        (by simp [Happening.work?]) (by simp)
      rw [stands]
      simp [Consumer.trail]
  | @indexed consumer message rest index stands =>
      refine trailed.work message
        [.returned consumer .elasticsearch message, .recordedSuccess consumer message]
        (by simp [stands]) (by simp [stands, Consumer.trail]) (by simp [put, withSink, note]) rfl ?_
        (by simp [Happening.work?]) (by simp)
      rw [stands]
      simp [Consumer.trail]
  | @overflowed consumer _ _ _ sink message rest index _ _ stands =>
      exact trailed.work message _ (by simp [stands])
        (by rw [stands]; cases sink <;> simp [Consumer.trail]) rfl rfl (List.nil_sublist _)
        (by simp [Happening.work?]) (by simp)
  | @failed consumer _ _ failedAt sink message rest index circuit stands =>
      exact trailed.work message [.raised consumer sink message, .recordedFailure consumer message,
          .called (some consumer) (.fail message.receiptHandle failedAt)] (by simp [stands])
        (by rw [stands]; cases sink <;> simp [Consumer.trail]) (by simp [made, put, reported]) rfl
        (by simp) (by simp [Happening.work?]) (by simp)
  | @backoffOverflowed consumer _ _ failedAt sink message rest index circuit stands =>
      exact trailed.work message [.raised consumer sink message, .recordedFailure consumer message,
          .called (some consumer) (.fail message.receiptHandle failedAt)] (by simp [stands])
        (by rw [stands]; cases sink <;> simp [Consumer.trail]) (by simp [made, put, reported]) rfl
        (List.nil_sublist _) (by simp [Happening.work?]) (by simp)
  | acked stands => exact trailed.delete driven owned stands rfl rfl
  | refused stands => exact trailed.delete driven owned stands rfl rfl
  | @cancelled consumer unfinished =>
      have stood : system.at? consumer ≠ .stopped := Consumer.ne_stopped unfinished
      exact trailed.rest [] (List.append_nil _).symm (rests_of_set stood rfl rfl) (by simp)
  | started =>
      refine trailed.rest [] (List.append_nil _).symm (fun other => ?_) (by simp)
      refine (at?_of_started rfl other).imp_right fun ready => ?_
      rw [ready.2]
      rfl
  | stopCalled => exact trailed.rest [] (List.append_nil _).symm (fun _ => .inl rfl) (by simp)
  | drained => exact trailed.rest [] (List.append_nil _).symm (fun _ => .inl rfl) (by simp)

theorem trailed_run (setup : Setup) (moves : List Move) : Trailed setup (run setup moves) := by
  have all := Machine.run_invariant (System.next setup)
    (fun system => Driven setup system ∧ Owned setup system ∧ Trailed setup system) (fun _ => True)
    ⟨driven_create, owned_create, trailed_create⟩
    (fun _ move _ ⟨driven, owned, trailed⟩ =>
      have moved := next_moved driven.linked move
      ⟨driven.next move, owned.moved driven.linked moved, trailed.moved driven owned moved⟩)
    moves fun _ _ => trivial
  exact all.2.2

end System

end FeathrEvents
