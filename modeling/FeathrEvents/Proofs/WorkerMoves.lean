/-
Module: FeathrEvents.Proofs.WorkerMoves
Purpose: Everything that one move of the system can do, said once.
Trusted boundary: none
Main exports: Moved, next_moved, allowance_cases
-/
import FeathrEvents.App.Worker
import FeathrEvents.Proofs.QueueHandles

namespace FeathrEvents

/-- A task that is not over has not stopped. -/
theorem Consumer.ne_stopped {standing : Consumer} (unfinished : standing.done = false) :
    standing ≠ .stopped := by
  rintro rfl
  cases unfinished

namespace System

open InMemoryEventQueue (Linked)

/-! ### The small operations -/

variable {setup : Setup} {system : System}

theorem at?_set (consumer other : ℕ) (standing : Consumer) (tasks : List Consumer) :
    ((tasks.set consumer standing)[other]?).getD .stopped =
      if other = consumer ∧ consumer < tasks.length then standing
      else (tasks[other]?).getD .stopped := by
  rw [List.getElem?_set]
  by_cases same : consumer = other
  · subst same
    by_cases inside : consumer < tasks.length
    · simp [inside]
    · simp [inside]
  · have different : other ≠ consumer := fun equal => same equal.symm
    simp [same, different]

/-- A task that stands anywhere but at `stopped` exists. -/
theorem lt_of_at? {consumer : ℕ} (standing : system.at? consumer ≠ .stopped) :
    consumer < system.tasks.length := by
  by_contra outside
  rw [at?, List.getElem?_eq_none (not_lt.mp outside)] at standing
  exact standing rfl

/-- Where everyone stands after one existing task has moved. -/
theorem at?_of_tasks {later : System} {consumer : ℕ} {standing : Consumer}
    (tasks : later.tasks = system.tasks.set consumer standing)
    (stood : system.at? consumer ≠ .stopped) (other : ℕ) :
    later.at? other = if other = consumer then standing else system.at? other := by
  rw [at?, tasks, at?_set, at?]
  simp [lt_of_at? stood]

/-- After one existing task has moved, what holds of where it stands holds of every task that moved. -/
theorem same_or_of_tasks (property : ℕ → Consumer → Prop) {later : System} {consumer : ℕ}
    {standing : Consumer} (stood : system.at? consumer ≠ .stopped)
    (tasks : later.tasks = system.tasks.set consumer standing)
    (here : property consumer standing) (other : ℕ) :
    later.at? other = system.at? other ∨ property other (later.at? other) := by
  rw [at?_of_tasks tasks stood]
  split
  · rename_i same
    exact .inr (same ▸ here)
  · exact .inl rfl

/-- New tasks are ready, and the old ones stand where they stood. -/
theorem at?_of_started {later : System} {count : ℕ}
    (tasks : later.tasks = system.tasks ++ List.replicate count .ready) (other : ℕ) :
    later.at? other = system.at? other ∨
      (system.at? other = .stopped ∧ later.at? other = .ready) := by
  rw [at?, tasks, at?]
  by_cases old : other < system.tasks.length
  · rw [List.getElem?_append_left old]
    exact .inl rfl
  · have outside : system.tasks[other]? = none := List.getElem?_eq_none (not_lt.mp old)
    rw [List.getElem?_append_right (not_lt.mp old), outside, List.getElem?_replicate]
    split
    · exact .inr ⟨rfl, rfl⟩
    · exact .inl rfl

/-- Whether and how much a consumer may take. -/
theorem allowance_cases (batchSize : ℤ) (now : ℚ) (circuit : SinkCircuit) :
    (circuit.openUntil = none ∧ circuit.allowance batchSize now = (batchSize, circuit)) ∨
    (∃ openUntil, circuit.openUntil = some openUntil ∧ openUntil ≤ now ∧ circuit.probing = false ∧
      circuit.allowance batchSize now = (1, { circuit with probing := true })) ∨
    (circuit.openUntil ≠ none ∧ circuit.allowance batchSize now = (0, circuit)) := by
  unfold SinkCircuit.allowance
  cases shape : circuit.openUntil with
  | none => simp
  | some openUntil =>
      by_cases early : now < openUntil
      · simp [early]
      · by_cases probing : circuit.probing = true
        · simp [probing]
        · simp [early, probing, not_lt.mp early]

/-- Asking and then giving up the probe only clears the probe. -/
theorem abandonProbe_allowance (batchSize : ℤ) (now : ℚ) (circuit : SinkCircuit) :
    (circuit.allowance batchSize now).2.abandonProbe = circuit.abandonProbe := by
  rcases allowance_cases batchSize now circuit with
    ⟨-, shape⟩ | ⟨openUntil, -, -, -, shape⟩ | ⟨-, shape⟩ <;> simp [shape, SinkCircuit.abandonProbe]

/-- A failure is only noted while a pause is running or too few events have failed; any other one
enters a pause, or would if its delay could be computed. -/
theorem recordFailure_cases (settings : CircuitSettings) (eventId : String) (checkedAt openedAt : ℚ)
    (circuit : SinkCircuit) :
    ((circuit.Paused checkedAt ∨
        ((insert eventId circuit.failures).card : ℤ) < settings.threshold) ∧
      circuit.recordFailure settings eventId checkedAt openedAt =
        (.ok (), { circuit with probing := false, failures := insert eventId circuit.failures })) ∨
    (¬ circuit.Paused checkedAt ∧ settings.threshold ≤ (insert eventId circuit.failures).card ∧
      ((∃ delay, SinkCircuit.delay settings (circuit.pauses + 1) = .ok delay ∧
        circuit.recordFailure settings eventId checkedAt openedAt =
          (.ok (), ⟨insert eventId circuit.failures, some (openedAt + delay), circuit.pauses + 1,
            false⟩)) ∨
      (settings.arithmetic = .float ∧ 1024 ≤ circuit.pauses ∧
        circuit.recordFailure settings eventId checkedAt openedAt =
          (.error .overflowError, ⟨insert eventId circuit.failures, circuit.openUntil,
            circuit.pauses + 1, false⟩)))) := by
  by_cases paused : circuit.Paused checkedAt
  · left
    have shape : ({ circuit with probing := false
                                 failures := insert eventId circuit.failures } : SinkCircuit).Paused
        checkedAt := paused
    exact ⟨.inl paused, by simp only [SinkCircuit.recordFailure, if_pos shape]⟩
  · have shape : ¬ ({ circuit with probing := false
                                   failures := insert eventId circuit.failures } :
        SinkCircuit).Paused checkedAt := paused
    by_cases few : ((insert eventId circuit.failures).card : ℤ) < settings.threshold
    · left
      exact ⟨.inr few, by simp only [SinkCircuit.recordFailure, if_neg shape, if_pos few]⟩
    · right
      refine ⟨paused, not_lt.mp few, ?_⟩
      rcases InMemoryEventQueue.capped_cases settings.arithmetic settings.pause settings.maxPause
        ((circuit.pauses + 1 : ℕ) - 1) with ⟨computed, -⟩ | ⟨computed, float, late⟩
      · have delayed : SinkCircuit.delay settings (circuit.pauses + 1) = .ok _ := computed
        exact .inl ⟨_, delayed, by
          simp only [SinkCircuit.recordFailure, if_neg shape, if_neg few, delayed]⟩
      · have overflow : SinkCircuit.delay settings (circuit.pauses + 1) = .error .overflowError :=
          computed
        exact .inr ⟨float, by omega, by
          simp only [SinkCircuit.recordFailure, if_neg shape, if_neg few, overflow]⟩

/-! ### The moves -/

/-- A consumer made a call of the queue. -/
def made (setup : Setup) (consumer : Option ℕ) (call : QueueCall) (system : System) : System :=
  { system with
    queue := system.queue.after setup.host setup.queue call
    past := system.past ++ [.called consumer call] }

theorem call_eq (consumer : Option ℕ) (call : QueueCall) :
    system.call setup consumer call =
      ((system.queue.perform setup.host setup.queue call).1, system.made setup consumer call) :=
  rfl

/-- The handler of a failed write has counted it and reported it to the circuit. -/
def reported (consumer : ℕ) (sink : Sink) (message : Message) (circuit : SinkCircuit)
    (failedAt : ℚ) (system : System) : System :=
  { system with
    failed := system.failed + 1
    now := failedAt
    sink := circuit
    past := system.past ++ [.raised consumer sink message, .recordedFailure consumer message] }

/-- Everything that a move can do, with the guards that it passed, so that an invariant splits the
cases here and need not unfold the step. -/
inductive Moved (setup : Setup) (system : System) : Move → System → Prop where
  | idle (move : Move) : Moved setup system move system
  | sent (event : Event) :
      Moved setup system (.send event) (system.made setup none (.send event))
  | quit {consumer : ℕ} {fault : Option String} {askedAt sweptAt now : ℚ}
      (stands : system.at? consumer = .ready) (stopping : system.stopping = true) :
      Moved setup system (.turn consumer fault askedAt sweptAt now) (system.put consumer .stopped)
  | waited {consumer : ℕ} {fault : Option String} {askedAt sweptAt now : ℚ}
      (stands : system.at? consumer = .ready)
      (ordered : system.now ≤ askedAt ∧ askedAt ≤ sweptAt ∧ sweptAt ≤ now) :
      Moved setup system (.turn consumer fault askedAt sweptAt now) (system.tick now)
  | faulted {consumer : ℕ} {fault : Option String} {askedAt sweptAt now : ℚ}
      (stands : system.at? consumer = .ready)
      (ordered : system.now ≤ askedAt ∧ askedAt ≤ sweptAt ∧ sweptAt ≤ now)
      (granted : (system.sink.allowance setup.worker.batchSize askedAt).1 ≠ 0) :
      Moved setup system (.turn consumer fault askedAt sweptAt now)
        ((system.tick now).withSink system.sink.abandonProbe)
  | found {consumer : ℕ} {fault : Option String} {askedAt sweptAt now : ℚ} {allowance : ℤ}
      {circuit : SinkCircuit} (stands : system.at? consumer = .ready)
      (ordered : system.now ≤ askedAt ∧ askedAt ≤ sweptAt ∧ sweptAt ≤ now)
      (asked : system.sink.allowance setup.worker.batchSize askedAt = (allowance, circuit))
      (granted : allowance ≠ 0)
      (empty : ∀ messages, (system.queue.perform setup.host setup.queue
        (.receive allowance none sweptAt now)).1 = .ok messages → messages = []) :
      Moved setup system (.turn consumer fault askedAt sweptAt now)
        (((system.tick now).made setup (some consumer) (.receive allowance none sweptAt now)).withSink
          system.sink.abandonProbe)
  | fetched {consumer : ℕ} {fault : Option String} {askedAt sweptAt now : ℚ} {allowance : ℤ}
      {circuit : SinkCircuit} {messages : List Message} (stands : system.at? consumer = .ready)
      (ordered : system.now ≤ askedAt ∧ askedAt ≤ sweptAt ∧ sweptAt ≤ now)
      (asked : system.sink.allowance setup.worker.batchSize askedAt = (allowance, circuit))
      (granted : allowance ≠ 0)
      (answer : (system.queue.perform setup.host setup.queue
        (.receive allowance none sweptAt now)).1 = .ok messages) (handed : messages ≠ []) :
      Moved setup system (.turn consumer fault askedAt sweptAt now)
        (((((system.tick now).made setup (some consumer)
          (.receive allowance none sweptAt now)).withSink circuit).put consumer
            (.batch messages)).note (messages.map (.received consumer system.sink.isOpen)))
  | beat {consumer : ℕ} {now : ℚ} {message : Message} {rest : List Message}
      (stands : system.at? consumer = .batch (message :: rest)) (ordered : system.now ≤ now)
      (live : system.queue.inflight.get? message.receiptHandle ≠ none) :
      Moved setup system (.heartbeat consumer now)
        (((system.tick now).made setup (some consumer) (.changeVisibility message.receiptHandle
          setup.worker.visibilityTimeout now)).begin consumer .mongodb message rest)
  | stale {consumer : ℕ} {now : ℚ} {message : Message} {rest : List Message}
      (stands : system.at? consumer = .batch (message :: rest)) (ordered : system.now ≤ now)
      (dead : system.queue.inflight.get? message.receiptHandle = none) :
      Moved setup system (.heartbeat consumer now)
        (((system.tick now).made setup (some consumer) (.changeVisibility message.receiptHandle
          setup.worker.visibilityTimeout now)).put consumer (.resume rest))
  | landed {index : ℕ} {write : Write} (sent : system.writes[index]? = some write)
      (pending : write.landed = false) :
      Moved setup system (.land index) { system.land setup write with
        writes := system.writes.set index { write with landed := true } }
  | stored {consumer : ℕ} {message : Message} {rest : List Message} {index : ℕ}
      (stands : system.at? consumer = .writing .mongodb message rest index)
      (landed : (system.writes[index]?).any Write.landed) :
      Moved setup system (.returned consumer)
        ((system.note [.returned consumer .mongodb message]).begin consumer .elasticsearch message
          rest)
  | indexed {consumer : ℕ} {message : Message} {rest : List Message} {index : ℕ}
      (stands : system.at? consumer = .writing .elasticsearch message rest index)
      (landed : (system.writes[index]?).any Write.landed) :
      Moved setup system (.returned consumer)
        (((system.note [.returned consumer .elasticsearch message]).withSink
          system.sink.recordSuccess |>.put consumer (.acking message rest)).note
            [.recordedSuccess consumer message])
  | overflowed {consumer : ℕ} {checkedAt openedAt failedAt : ℚ} {sink : Sink} {message : Message}
      {rest : List Message} {index : ℕ} {exn : Exn} {circuit : SinkCircuit}
      (stands : system.at? consumer = .writing sink message rest index)
      (ordered : system.now ≤ checkedAt ∧ checkedAt ≤ openedAt ∧ openedAt ≤ failedAt)
      (raised : system.sink.recordFailure setup.worker.sink message.event.eventId checkedAt openedAt =
        (.error exn, circuit)) :
      Moved setup system (.raised consumer checkedAt openedAt failedAt)
        ((system.reported consumer sink message circuit failedAt).put consumer (.died exn))
  | failed {consumer : ℕ} {checkedAt openedAt failedAt : ℚ} {sink : Sink} {message : Message}
      {rest : List Message} {index : ℕ} {circuit : SinkCircuit}
      (stands : system.at? consumer = .writing sink message rest index)
      (ordered : system.now ≤ checkedAt ∧ checkedAt ≤ openedAt ∧ openedAt ≤ failedAt)
      (recorded : system.sink.recordFailure setup.worker.sink message.event.eventId checkedAt
        openedAt = (.ok (), circuit))
      (suppressed : (system.queue.perform setup.host setup.queue
        (.fail message.receiptHandle failedAt)).1 ≠ .error .overflowError) :
      Moved setup system (.raised consumer checkedAt openedAt failedAt)
        (((system.reported consumer sink message circuit failedAt).made setup (some consumer)
          (.fail message.receiptHandle failedAt)).put consumer (.resume rest))
  | backoffOverflowed {consumer : ℕ} {checkedAt openedAt failedAt : ℚ} {sink : Sink}
      {message : Message} {rest : List Message} {index : ℕ} {circuit : SinkCircuit}
      (stands : system.at? consumer = .writing sink message rest index)
      (ordered : system.now ≤ checkedAt ∧ checkedAt ≤ openedAt ∧ openedAt ≤ failedAt)
      (recorded : system.sink.recordFailure setup.worker.sink message.event.eventId checkedAt
        openedAt = (.ok (), circuit))
      (raised : (system.queue.perform setup.host setup.queue
        (.fail message.receiptHandle failedAt)).1 = .error .overflowError) :
      Moved setup system (.raised consumer checkedAt openedAt failedAt)
        (((system.reported consumer sink message circuit failedAt).made setup (some consumer)
          (.fail message.receiptHandle failedAt)).put consumer (.died .overflowError))
  | acked {consumer : ℕ} {message : Message} {rest : List Message}
      (stands : system.at? consumer = .acking message rest)
      (live : system.queue.inflight.get? message.receiptHandle ≠ none) :
      Moved setup system (.ack consumer)
        (System.put consumer (.resume rest) { system.made setup (some consumer)
          (.delete message.receiptHandle) with processed := system.processed + 1 })
  | refused {consumer : ℕ} {message : Message} {rest : List Message}
      (stands : system.at? consumer = .acking message rest)
      (dead : system.queue.inflight.get? message.receiptHandle = none) :
      Moved setup system (.ack consumer)
        ((system.made setup (some consumer) (.delete message.receiptHandle)).put consumer
          (.resume rest))
  | cancelled {consumer : ℕ} (unfinished : (system.at? consumer).done = false) :
      Moved setup system (.cancel consumer) (system.put consumer .cancelled)
  | started (idle : system.running = []) :
      Moved setup system .start { system with
        stopping := false
        tasks := system.tasks ++ List.replicate setup.worker.concurrency .ready
        running := List.range' system.tasks.length setup.worker.concurrency }
  | stopCalled (busy : system.running ≠ []) :
      Moved setup system .stop
        { system with stopping := true, stops := system.stops ++ [system.running] }
  | drained {index : ℕ} {waiting : List ℕ} (called : system.stops[index]? = some waiting)
      (finished : ∀ consumer ∈ waiting, (system.at? consumer).done = true) :
      Moved setup system (.drained index)
        { system with running := [], stops := system.stops.eraseIdx index }

/-! ### Every move is one of these -/

open InMemoryEventQueue in
/-- A verb of the queue returns, refuses its handle, or overflows, and it refuses exactly the handles
that are not live. -/
theorem verb_result (linked : Linked setup.host system.queue) {call : QueueCall} {handle : String}
    (verb : call.receiptHandle? = some handle) :
    (system.queue.inflight.get? handle = none ∧
      ∃ text, (system.queue.perform setup.host setup.queue call).1 =
        .error (.receiptHandleIsInvalid text)) ∨
    (system.queue.inflight.get? handle ≠ none ∧
      ((system.queue.perform setup.host setup.queue call).1 = .ok [] ∨
        ((∃ now, call = .fail handle now) ∧
          (system.queue.perform setup.host setup.queue call).1 = .error .overflowError))) := by
  cases live : system.queue.inflight.get? handle with
  | none => exact .inl ⟨rfl, (verb_refuses_iff setup.queue linked verb).1.mpr live⟩
  | some messageId =>
      refine .inr ⟨by simp, ?_⟩
      obtain ⟨count, deadline, held⟩ := linked.inflight_iff.mp live
      cases call with
      | delete other =>
          cases verb
          rcases delete_effect setup.queue linked handle messageId with
            ⟨-, -, -, returned, -⟩ | ⟨unheld, -⟩
          · exact .inl returned
          · exact absurd held (unheld count deadline)
      | changeVisibility other seconds now =>
          cases verb
          rcases changeVisibility_effect setup.queue linked handle seconds now messageId with
            ⟨-, -, -, returned, -⟩ | ⟨unheld, -⟩
          · exact .inl returned
          · exact absurd held (unheld count deadline)
      | fail other now =>
          cases verb
          rcases fail_effect setup.queue linked handle now messageId with
            ⟨-, -, -, -, -, returned, -⟩ | ⟨-, -, -, -, raised, -⟩ | ⟨unheld, -⟩
          · exact .inl returned
          · exact .inr ⟨⟨now, rfl⟩, raised⟩
          · exact absurd held (unheld count deadline)
      | _ => cases verb

theorem turn_moved {consumer : ℕ} (stands : system.at? consumer = .ready) (fault : Option String)
    {askedAt sweptAt now : ℚ}
    (ordered : system.now ≤ askedAt ∧ askedAt ≤ sweptAt ∧ sweptAt ≤ now) :
    Moved setup system (.turn consumer fault askedAt sweptAt now)
      (system.turn setup consumer fault askedAt sweptAt now) := by
  cases asked : system.sink.allowance setup.worker.batchSize askedAt with
  | mk allowance circuit =>
      have abandoned := abandonProbe_allowance setup.worker.batchSize askedAt system.sink
      rw [asked] at abandoned
      simp only [turn, asked]
      split
      · rename_i waits
        rcases allowance_cases setup.worker.batchSize askedAt system.sink with
          ⟨-, shape⟩ | ⟨openUntil, -, -, -, shape⟩ | ⟨-, shape⟩
        · rw [asked] at shape
          cases shape
          exact .waited stands ordered
        · rw [asked] at shape
          cases shape
          exact absurd waits (by decide)
        · rw [asked] at shape
          cases shape
          exact .waited stands ordered
      · rename_i granted
        cases fault with
        | some text =>
            simp only [abandoned]
            exact .faulted stands ordered (by rw [asked]; exact granted)
        | none =>
            have same : ((system.withSink circuit).tick now).queue = system.queue := rfl
            cases answer : (system.queue.perform setup.host setup.queue
                (.receive allowance none sweptAt now)).1 with
            | error exn =>
                simp only [call_eq, same, answer, abandoned]
                exact .found stands ordered asked granted (by simp [answer])
            | ok messages =>
                cases messages with
                | nil =>
                    simp only [call_eq, same, answer, abandoned]
                    exact .found stands ordered asked granted (by simp [answer])
                | cons message messages =>
                    simp only [call_eq, same, answer]
                    exact .fetched stands ordered asked granted answer (by simp)

theorem heartbeat_moved (linked : Linked setup.host system.queue) {consumer : ℕ} {message : Message}
    {rest : List Message} (stands : system.at? consumer = .batch (message :: rest)) {now : ℚ}
    (ordered : system.now ≤ now) :
    Moved setup system (.heartbeat consumer now)
      (system.heartbeat setup consumer message rest now) := by
  have same : (system.tick now).queue = system.queue := rfl
  have verb : (QueueCall.changeVisibility message.receiptHandle setup.worker.visibilityTimeout
      now).receiptHandle? = some message.receiptHandle := rfl
  rcases verb_result linked verb with ⟨dead, text, raised⟩ | ⟨live, returned | ⟨⟨time, shape⟩, -⟩⟩
  · simp only [heartbeat, call_eq, same, raised]
    exact .stale stands ordered dead
  · simp only [heartbeat, call_eq, same, returned]
    exact .beat stands ordered live
  · cases shape

/-- A pause whose delay overflows kills the consumer. -/
theorem failing_overflows (consumer : ℕ) (sink : Sink) (message : Message) (rest : List Message)
    {checkedAt openedAt : ℚ} (failedAt : ℚ) {exn : Exn} {circuit : SinkCircuit}
    (raised : system.sink.recordFailure setup.worker.sink message.event.eventId checkedAt
      openedAt = (.error exn, circuit)) :
    system.failing setup consumer sink message rest checkedAt openedAt failedAt =
      (system.reported consumer sink message circuit failedAt).put consumer (.died exn) := by
  have asked : (({ system.tick failedAt with failed := system.failed + 1 } : System).note
      [.raised consumer sink message, .recordedFailure consumer message]).sink.recordFailure
        setup.worker.sink message.event.eventId checkedAt openedAt = (.error exn, circuit) := raised
  simp only [failing, asked]
  rfl

/-- A failure that the circuit takes note of is reported to the queue, and the consumer goes on unless
the backoff overflows. -/
theorem failing_reports (linked : Linked setup.host system.queue) (consumer : ℕ) (sink : Sink)
    (message : Message) (rest : List Message) {checkedAt openedAt : ℚ} (failedAt : ℚ)
    {circuit : SinkCircuit}
    (recorded : system.sink.recordFailure setup.worker.sink message.event.eventId checkedAt
      openedAt = (.ok (), circuit)) :
    ((system.queue.perform setup.host setup.queue (.fail message.receiptHandle failedAt)).1 ≠
        .error .overflowError ∧
      system.failing setup consumer sink message rest checkedAt openedAt failedAt =
        ((system.reported consumer sink message circuit failedAt).made setup (some consumer)
          (.fail message.receiptHandle failedAt)).put consumer (.resume rest)) ∨
    ((system.queue.perform setup.host setup.queue (.fail message.receiptHandle failedAt)).1 =
        .error .overflowError ∧
      system.failing setup consumer sink message rest checkedAt openedAt failedAt =
        ((system.reported consumer sink message circuit failedAt).made setup (some consumer)
          (.fail message.receiptHandle failedAt)).put consumer (.died .overflowError)) := by
  have verb : (QueueCall.fail message.receiptHandle failedAt).receiptHandle? =
      some message.receiptHandle := rfl
  have asked : (({ system.tick failedAt with failed := system.failed + 1 } : System).note
      [.raised consumer sink message, .recordedFailure consumer message]).sink.recordFailure
        setup.worker.sink message.event.eventId checkedAt openedAt = (.ok (), circuit) := recorded
  have same : ((({ system.tick failedAt with failed := system.failed + 1 } : System).note
      [.raised consumer sink message, .recordedFailure consumer message]).withSink circuit).queue =
        system.queue := rfl
  rcases verb_result linked verb with ⟨-, text, raised⟩ | ⟨-, returned | ⟨-, raised⟩⟩
  · refine .inl ⟨by simp [raised], ?_⟩
    simp only [failing, asked, call_eq, same, raised]
    rfl
  · refine .inl ⟨by simp [returned], ?_⟩
    simp only [failing, asked, call_eq, same, returned]
    rfl
  · refine .inr ⟨raised, ?_⟩
    simp only [failing, asked, call_eq, same, raised]
    rfl

theorem failing_moved (linked : Linked setup.host system.queue) {consumer : ℕ} {sink : Sink}
    {message : Message} {rest : List Message} {index : ℕ}
    (stands : system.at? consumer = .writing sink message rest index)
    {checkedAt openedAt failedAt : ℚ}
    (ordered : system.now ≤ checkedAt ∧ checkedAt ≤ openedAt ∧ openedAt ≤ failedAt) :
    Moved setup system (.raised consumer checkedAt openedAt failedAt)
      (system.failing setup consumer sink message rest checkedAt openedAt failedAt) := by
  cases recorded : system.sink.recordFailure setup.worker.sink message.event.eventId checkedAt
      openedAt with
  | mk result circuit =>
      cases result with
      | error exn =>
          rw [failing_overflows consumer sink message rest failedAt recorded]
          exact .overflowed stands ordered recorded
      | ok _ =>
          rcases failing_reports linked consumer sink message rest failedAt recorded with
            ⟨suppressed, shape⟩ | ⟨raised, shape⟩
          · rw [shape]
            exact .failed stands ordered recorded suppressed
          · rw [shape]
            exact .backoffOverflowed stands ordered recorded raised

theorem ack_moved (linked : Linked setup.host system.queue) {consumer : ℕ} {message : Message}
    {rest : List Message} (stands : system.at? consumer = .acking message rest) :
    Moved setup system (.ack consumer) (system.ack setup consumer message rest) := by
  have verb : (QueueCall.delete message.receiptHandle).receiptHandle? =
      some message.receiptHandle := rfl
  rcases verb_result linked verb with ⟨dead, text, raised⟩ | ⟨live, returned | ⟨⟨time, shape⟩, -⟩⟩
  · simp only [ack, call_eq, raised]
    exact .refused stands dead
  · simp only [ack, call_eq, returned]
    exact .acked stands live
  · cases shape

/-- Every move of a system whose queue keeps its links is one of those.  This is where the step
function is unfolded for all the invariants at once. -/
theorem next_moved (linked : Linked setup.host system.queue) (move : Move) :
    Moved setup system move (system.next setup move) := by
  unfold next
  cases move with
  | send event => exact .sent event
  | turn consumer fault askedAt sweptAt now =>
      simp only [step]
      split
      · rename_i stands
        split
        · rename_i stopping
          exact .quit stands stopping
        · split
          · rename_i ordered
            exact turn_moved stands fault ordered
          · exact .idle _
      · exact .idle _
  | heartbeat consumer now =>
      simp only [step]
      split
      · rename_i message rest stands
        split
        · rename_i ordered
          exact heartbeat_moved linked stands ordered
        · exact .idle _
      · exact .idle _
  | land index =>
      simp only [step]
      split
      · rename_i write sent
        split
        · exact .idle _
        · rename_i pending
          exact .landed sent (by simpa using pending)
      · exact .idle _
  | returned consumer =>
      simp only [step]
      split
      · rename_i sink message rest index stands
        split
        · rename_i landed
          cases sink with
          | mongodb => exact .stored stands landed
          | elasticsearch =>
              exact .indexed stands landed
        · exact .idle _
      · exact .idle _
  | raised consumer checkedAt openedAt failedAt =>
      simp only [step]
      split
      · rename_i sink message rest index stands
        split
        · rename_i ordered
          exact failing_moved linked stands ordered
        · exact .idle _
      · exact .idle _
  | ack consumer =>
      simp only [step]
      split
      · rename_i message rest stands
        exact ack_moved linked stands
      · exact .idle _
  | cancel consumer =>
      simp only [step]
      split
      · exact .idle _
      · rename_i unfinished
        exact .cancelled (by simpa using unfinished)
  | start =>
      simp only [step]
      split
      · rename_i idle
        exact .started (by simpa using idle)
      · exact .idle _
  | stop =>
      simp only [step]
      split
      · exact .idle _
      · rename_i busy
        exact .stopCalled (by simpa using busy)
  | drained index =>
      simp only [step]
      split
      · rename_i waiting called
        split
        · rename_i finished
          exact .drained called (by simpa using finished)
        · exact .idle _
      · exact .idle _

/-! ### Enabled moves -/

theorem next_raised (linked : Linked setup.host system.queue) {consumer : ℕ} {sink : Sink}
    {message : Message} {rest : List Message} {index : ℕ}
    (stands : system.at? consumer = .writing sink message rest index)
    {checkedAt openedAt failedAt : ℚ}
    (ordered : system.now ≤ checkedAt ∧ checkedAt ≤ openedAt ∧ openedAt ≤ failedAt)
    (recorded : (system.sink.recordFailure setup.worker.sink message.event.eventId checkedAt
      openedAt).1 = .ok ()) :
    let later := system.next setup (.raised consumer checkedAt openedAt failedAt)
    later.queue = system.queue.after setup.host setup.queue (.fail message.receiptHandle failedAt) ∧
      later.past = system.past ++ [.raised consumer sink message, .recordedFailure consumer message,
        .called (some consumer) (.fail message.receiptHandle failedAt)] := by
  have taken : system.next setup (.raised consumer checkedAt openedAt failedAt) =
      system.failing setup consumer sink message rest checkedAt openedAt failedAt := by
    simp only [next, step, stands, if_pos ordered, Option.getD_some]
  have outcome : system.sink.recordFailure setup.worker.sink message.event.eventId checkedAt
      openedAt = (.ok (), _) := Prod.ext recorded rfl
  rw [taken]
  rcases failing_reports linked consumer sink message rest failedAt outcome with
    ⟨-, shape⟩ | ⟨-, shape⟩
  · rw [shape]
    exact ⟨rfl, by simp [put, made, reported]⟩
  · rw [shape]
    exact ⟨rfl, by simp [put, made, reported]⟩

/-- A heartbeat is a call of `change_visibility`, and the store is called exactly when the handle is
live. -/
theorem next_heartbeat (linked : Linked setup.host system.queue) {consumer : ℕ} {message : Message}
    {rest : List Message} (stands : system.at? consumer = .batch (message :: rest)) {now : ℚ}
    (ordered : system.now ≤ now) :
    let later := system.next setup (.heartbeat consumer now)
    let call := QueueCall.changeVisibility message.receiptHandle setup.worker.visibilityTimeout now
    (system.queue.inflight.get? message.receiptHandle = none ∧
      later = ((system.tick now).made setup (some consumer) call).put consumer (.resume rest)) ∨
    (system.queue.inflight.get? message.receiptHandle ≠ none ∧
      later = ((system.tick now).made setup (some consumer) call).begin consumer .mongodb message
        rest) := by
  have same : (system.tick now).queue = system.queue := rfl
  have verb : (QueueCall.changeVisibility message.receiptHandle setup.worker.visibilityTimeout
      now).receiptHandle? = some message.receiptHandle := rfl
  have taken : system.next setup (.heartbeat consumer now) =
      system.heartbeat setup consumer message rest now := by
    simp only [next, step, stands, if_pos ordered, Option.getD_some]
  rcases verb_result linked verb with ⟨dead, text, raised⟩ | ⟨live, returned | ⟨⟨time, shape⟩, -⟩⟩
  · exact .inl ⟨dead, by simp only [taken, heartbeat, call_eq, same, raised]⟩
  · exact .inr ⟨live, by simp only [taken, heartbeat, call_eq, same, returned]⟩
  · cases shape

end System

end FeathrEvents
