/-
Module: FeathrEvents.Proofs.WorkerCompletion
Purpose: What happens to a message once both of its writes have returned: the next thing its consumer
  does is delete it, so it is dead-lettered only if its handle was stale by then.
Trusted boundary: none
Main exports: Moved.completes, completion_is_followed, completed_while_live_is_never_dead_lettered,
  a_stored_event_is_dead_lettered
-/
import FeathrEvents.Proofs.WorkerLoop
import FeathrEvents.Proofs.WorkerStores

namespace FeathrEvents.System

open InMemoryEventQueue

variable {setup : Setup} {system later : System} {move : Move} {moves : List Move}
variable {consumer : ℕ} {message : Message}

/-- A move adds to the history, and where an index returns its consumer goes on to the delete. -/
theorem Moved.completes (moved : Moved setup system move later) :
    ∃ fresh, later.past = system.past ++ fresh ∧
      ∀ consumer message before after,
        fresh = before ++ .returned consumer .elasticsearch message :: after →
        callsBy after = [] ∧ ∃ rest, later.at? consumer = .acking message rest := by
  have silent : ∀ {fresh : List Happening},
      (∀ consumer message, .returned consumer .elasticsearch message ∉ fresh) →
      ∀ consumer message before after,
        fresh = before ++ .returned consumer .elasticsearch message :: after →
        callsBy after = [] ∧ ∃ rest, later.at? consumer = .acking message rest := by
    intro fresh none consumer message before after split
    exact absurd (by simp [split]) (none consumer message)
  cases moved with
  | idle | quit | waited | faulted | cancelled | started | stopCalled | drained =>
      exact ⟨[], (List.append_nil _).symm, silent (by simp)⟩
  | sent => exact ⟨_, rfl, silent (by simp)⟩
  | found => exact ⟨_, rfl, silent (by simp)⟩
  | @fetched consumer _ _ sweptAt now allowance _ messages =>
      refine ⟨.called (some consumer) (.receive allowance none sweptAt now) ::
        messages.map (.received consumer system.sink.isOpen), ?_, silent (by simp)⟩
      simp [made, note, put, withSink, tick]
  | @beat consumer now message =>
      refine ⟨[.called (some consumer) (.changeVisibility message.receiptHandle
        setup.worker.visibilityTimeout now), .began consumer .mongodb message], ?_,
        silent (by simp)⟩
      simp [made, begin, tick]
  | stale => exact ⟨_, rfl, silent (by simp)⟩
  | @landed _ write =>
      obtain ⟨sink, event, landed⟩ := write
      cases sink <;> exact ⟨[], (List.append_nil _).symm, silent (by simp)⟩
  | @stored consumer message =>
      refine ⟨[.returned consumer .mongodb message, .began consumer .elasticsearch message], ?_,
        silent (by simp)⟩
      simp [begin, note]
  | @indexed consumer message rest index stands =>
      refine ⟨[.returned consumer .elasticsearch message, .recordedSuccess consumer message],
        by simp [put, withSink, note], ?_⟩
      intro other done before after split
      cases before with
      | nil =>
          cases split
          have stood : system.at? consumer ≠ .stopped := by simp [stands]
          refine ⟨rfl, rest, ?_⟩
          rw [at?_of_tasks rfl stood, if_pos rfl]
      | cons head before =>
          cases before with
          | nil => simp at split
          | cons => simp at split
  | overflowed => exact ⟨_, rfl, silent (by simp)⟩
  | @failed consumer _ _ failedAt sink message =>
      refine ⟨[.raised consumer sink message, .recordedFailure consumer message,
        .called (some consumer) (.fail message.receiptHandle failedAt)], ?_, silent (by simp)⟩
      simp [made, put, reported]
  | @backoffOverflowed consumer _ _ failedAt sink message =>
      refine ⟨[.raised consumer sink message, .recordedFailure consumer message,
        .called (some consumer) (.fail message.receiptHandle failedAt)], ?_, silent (by simp)⟩
      simp [made, put, reported]
  | acked | refused => exact ⟨_, rfl, silent (by simp)⟩

/-- Where the index has returned, the consumer stands at the delete until it makes it, and makes no
other call before. -/
theorem completion_is_followed (unbroken : Unbroken setup moves) {past future : List Happening}
    (split : (run setup moves).past =
      past ++ .returned consumer .elasticsearch message :: future) :
    (callsBy future = [] ∧ ∃ rest, (run setup moves).at? consumer = .acking message rest) ∨
    ∃ more, callsBy future = (some consumer, .delete message.receiptHandle) :: more := by
  induction moves using List.reverseRecOn generalizing future with
  | nil => simp [System.create] at split
  | append_singleton moves move ih =>
      have moved := next_moved (driven_run setup moves).linked move
      rw [run_snoc] at split ⊢
      obtain ⟨fresh, grown, completes⟩ := moved.completes
      rcases List.append_eq_append_iff.mp (grown.symm.trans split) with
        ⟨between, rfl, tail⟩ | ⟨between, head, tail⟩
      · exact .inl (completes consumer message between future tail)
      · cases between with
        | nil =>
            exact .inl (completes consumer message [] future tail.symm)
        | cons first between =>
            rw [List.cons_append, List.cons.injEq] at tail
            obtain ⟨rfl, rfl⟩ := tail
            rcases ih unbroken.left head with ⟨none, rest, stands⟩ | ⟨more, called⟩
            · have running : ((run setup moves).at? consumer).runs = true := by rw [stands]; rfl
              have calls : callsBy ((run setup moves).next setup move).past =
                  callsBy (run setup moves).past ++ callsBy fresh := by rw [grown, callsBy_append]
              rcases moved.runs_on running (unbroken.during running) with
                ⟨same, -, quiet⟩ | ⟨_, _, _, -, elsewhere⟩ | ⟨current, _, here, -, deleted⟩
              · left
                have still : callsBy fresh = [] := by simpa [quiet] using calls
                exact ⟨by rw [callsBy_append, none, still]; rfl, rest, same.trans stands⟩
              · cases stands.symm.trans elsewhere
              · right
                cases stands.symm.trans here
                have made : callsBy fresh = [(some consumer, .delete message.receiptHandle)] := by
                  rw [deleted] at calls
                  exact (List.append_cancel_left calls).symm
                exact ⟨[], by rw [callsBy_append, none, made]; rfl⟩
            · right
              exact ⟨more ++ callsBy fresh, by rw [callsBy_append, called]; rfl⟩

/-- A message whose two writes returned while its handle was live is never afterwards dead-lettered,
whatever moves follow: its delete comes before any other task can sweep the queue. -/
theorem completed_while_live_is_never_dead_lettered (setup : Setup) (moves : List Move)
    (unbroken : Unbroken setup moves) (past future : List Happening) (consumer : ℕ)
    (message : Message) (messageId : String)
    (completed : (run setup moves).past =
      past ++ .returned consumer .elasticsearch message :: future)
    (live : (reached setup.host setup.queue (calls past)).inflight.get? message.receiptHandle =
      some messageId)
    (before after : List QueueCall) (call : QueueCall)
    (later : calls future = before ++ call :: after) (entry : Entry) :
    (messageId, entry) ∉
      deadLettered setup.host setup.queue (reached setup.host setup.queue (calls past ++ before))
        call := by
  have linked := linked_reached setup.host setup.queue
  rcases completion_is_followed unbroken completed with ⟨none, -⟩ | ⟨more, deleted⟩
  · simp [calls, none] at later
  · have first : calls future = .delete message.receiptHandle :: more.map Prod.snd := by
      rw [calls, deleted, List.map_cons]
    rw [first] at later
    cases before with
    | nil =>
        cases later
        exact List.not_mem_nil
    | cons head before =>
        rw [List.cons_append, List.cons.injEq] at later
        obtain ⟨rfl, -⟩ := later
        intro listed
        have gone : place setup.host (reached setup.host setup.queue
            (calls past ++ [.delete message.receiptHandle])) messageId = .gone := by
          rw [reached_snoc]
          exact (delete_place (linked _) live).1
        have stays := gone_stays gone before
        rw [List.append_assoc] at stays
        apply (deadLettered_gone (linked _) (List.mem_map_of_mem listed)).2
        exact (absent_iff setup.host).mpr (.inl stays)

/-- One consumer writes an event, deletes it and asks for more. -/
def deletedInTime : List Move := oneEventRun ++ [.turn 0 none 99 99 99]

theorem an_event_deleted_in_time :
    ("1", ⟨sampleEvent "a", 1, none, 30⟩) ∉
      deadLettered (sampleSetup {} {}).host {} (reached (sampleSetup {} {}).host {}
        [.send (sampleEvent "a"), .receive 10 none 0 0, .changeVisibility "11" 30 0, .delete "11"])
          (.receive 10 none 99 99) := by
  apply completed_while_live_is_never_dead_lettered (sampleSetup {} { concurrency := 1 })
    deletedInTime (by decide +kernel)
    [.called none (.send (sampleEvent "a")), .called (some 0) (.receive 10 none 0 0),
      .received 0 false ⟨sampleEvent "a", "11", 1⟩,
      .called (some 0) (.changeVisibility "11" 30 0),
      .began 0 .mongodb ⟨sampleEvent "a", "11", 1⟩,
      .returned 0 .mongodb ⟨sampleEvent "a", "11", 1⟩,
      .began 0 .elasticsearch ⟨sampleEvent "a", "11", 1⟩]
    [.recordedSuccess 0 ⟨sampleEvent "a", "11", 1⟩, .called (some 0) (.delete "11"),
      .called (some 0) (.receive 10 none 99 99)]
    0 ⟨sampleEvent "a", "11", 1⟩ "1" _ _ [.delete "11"] []
  · rfl
  · with_unfolding_all rfl
  · with_unfolding_all rfl

/-- Two deliveries are allowed. -/
def twoDeliveriesSetup : Setup := sampleSetup { maxReceives := 2 } { concurrency := 2 }

/-- Both writes of the first delivery return, but after its handle has expired and the second delivery
has begun. -/
def completedLate : List Move :=
  [.send (sampleEvent "a"), .start, .turn 0 none 0 0 0, .heartbeat 0 0, .turn 1 none 30 30 30,
    .heartbeat 1 30, .land 0, .returned 0, .land 2, .returned 0]

/-- The late delete is refused, and the second delivery outlasts its window. -/
def completedThenBuried : List Move := completedLate ++ [.ack 0, .turn 0 none 60 60 60]

theorem a_stored_event_is_dead_lettered :
    Unbroken twoDeliveriesSetup completedThenBuried ∧
      [.returned 0 .mongodb ⟨sampleEvent "a", "11", 1⟩,
        .returned 0 .elasticsearch ⟨sampleEvent "a", "11", 1⟩].Sublist
          (run twoDeliveriesSetup completedLate).past ∧
      (run twoDeliveriesSetup completedLate).queue.dlq.items = [] ∧
      (run twoDeliveriesSetup completedThenBuried).queue.dlq.items = [sampleEvent "a"] := by
  refine ⟨by decide +kernel, ?_, ?_, ?_⟩
  · have stands : (run twoDeliveriesSetup completedLate).at? 0 =
        .acking ⟨sampleEvent "a", "11", 1⟩ [] := by
      with_unfolding_all rfl
    have trail := (trailed_run twoDeliveriesSetup completedLate).trail 0
    rw [stands] at trail
    exact (List.sublist_cons_self _ _).trans trail
  · with_unfolding_all rfl
  · with_unfolding_all rfl

end FeathrEvents.System
