/-
Module: FeathrEvents.App.Worker
Purpose: `EventWorker` over one queue and two stores, as a machine: its inputs are the moves of the
  consumer tasks between two awaits, of the stores, of the API and of `start` and `stop`, taken in any
  order.
Trusted boundary: translation by hand of `EventWorker` in `app/worker.py`, of the two writes of
  `app/stores.py` and of the shutdown path of `lifespan` in `app/main.py`.  The queue's methods never
  suspend, so a call of one is a single move; a store takes effect at any moment after it was called,
  before it returns if it returns, and possibly never if it raises.  `past` is not an attribute of the
  worker: it records what happened.
Main exports: WorkerSettings, Setup, Consumer, Happening, Move, System, System.step, System.next,
  shutdownLines
-/
import FeathrEvents.App.Circuit
import FeathrEvents.App.Queue

namespace FeathrEvents

open Collections (OrderedDict)

/-- The arguments of `EventWorker.__init__`.  `pollInterval` only says how long an idle consumer
sleeps, and no move depends on it. -/
structure WorkerSettings where
  concurrency : ℕ := 8
  batchSize : ℤ := 10
  visibilityTimeout : ℚ := 30
  circuit : Option CircuitSettings := none

/-- `circuit or SinkCircuit(max_pause=visibility_timeout)`. -/
def WorkerSettings.sink (settings : WorkerSettings) : CircuitSettings :=
  settings.circuit.getD { maxPause := settings.visibilityTimeout }

/-- What a process is started with. -/
structure Setup where
  host : Host
  queue : QueueSettings
  worker : WorkerSettings

/-- A process on the counting host, for runs on concrete inputs. -/
def sampleSetup (queue : QueueSettings) (worker : WorkerSettings) : Setup where
  host := countingHost fun event => some event.eventId
  queue := queue
  worker := worker

/-- The two stores: `store.upsert` writes to the first, `index.index` to the second. -/
inductive Sink where
  | mongodb
  | elasticsearch
deriving DecidableEq

/-- A request to a store, once it has been made. -/
structure Write where
  sink : Sink
  event : Event
  landed : Bool

/-- A consumer task, at the await where it stands.  In `batch` it is about to handle the first of the
messages; in `writing` it waits for the store; in `acking` it is about to delete the message. -/
inductive Consumer where
  | ready
  | batch (messages : List Message)
  | writing (sink : Sink) (message : Message) (rest : List Message) (write : ℕ)
  | acking (message : Message) (rest : List Message)
  | stopped
  | cancelled
  | died (exn : Exn)

/-- The task is over. -/
def Consumer.done : Consumer → Bool
  | .stopped | .cancelled | .died _ => true
  | .ready | .batch _ | .writing .. | .acking .. => false

/-- The next turn of the `for` loop over a batch, or of the `while` loop when the batch is done. -/
def Consumer.resume : List Message → Consumer
  | [] => .ready
  | message :: rest => .batch (message :: rest)

/-- What happened, in order.  A queue call is made by a consumer or, without one, by the API. -/
inductive Happening where
  | called (consumer : Option ℕ) (call : QueueCall)
  | received (consumer : ℕ) (probe : Bool) (message : Message)
  | began (consumer : ℕ) (sink : Sink) (message : Message)
  | returned (consumer : ℕ) (sink : Sink) (message : Message)
  | raised (consumer : ℕ) (sink : Sink) (message : Message)
  | recordedSuccess (consumer : ℕ) (message : Message)
  | recordedFailure (consumer : ℕ) (message : Message)

/-- The moves.  Those of a consumer name it and carry the clock readings that they take; `fault` is an
exception that `queue.receive` raises before it does anything. -/
inductive Move where
  | send (event : Event)
  | turn (consumer : ℕ) (fault : Option String) (askedAt sweptAt now : ℚ)
  | heartbeat (consumer : ℕ) (now : ℚ)
  | land (write : ℕ)
  | returned (consumer : ℕ)
  | raised (consumer : ℕ) (checkedAt openedAt failedAt : ℚ)
  | ack (consumer : ℕ)
  | cancel (consumer : ℕ)
  | start
  | stop
  | drained (call : ℕ)

/-- The worker, its queue and its stores.  `tasks` are all the consumer tasks ever created, `running`
is `_tasks`, `stops` are the calls of `stop` that wait for their tasks, and `now` is the last clock
reading. -/
structure System where
  queue : InMemoryEventQueue
  sink : SinkCircuit
  tasks : List Consumer
  running : List ℕ
  stops : List (List ℕ)
  stopping : Bool
  processed : ℕ
  failed : ℕ
  writes : List Write
  mongo : OrderedDict String Document
  elastic : OrderedDict String (OrderedDict String Json)
  now : ℚ
  past : List Happening

namespace System

/-- A worker that has not been started, with empty stores. -/
def create : System where
  queue := .create
  sink := .create
  tasks := []
  running := []
  stops := []
  stopping := false
  processed := 0
  failed := 0
  writes := []
  mongo := .empty
  elastic := .empty
  now := 0
  past := []

/-- Where a consumer stands; a task that was never created is over. -/
def at? (system : System) (consumer : ℕ) : Consumer :=
  (system.tasks[consumer]?).getD .stopped

def put (consumer : ℕ) (standing : Consumer) (system : System) : System :=
  { system with tasks := system.tasks.set consumer standing }

def note (happenings : List Happening) (system : System) : System :=
  { system with past := system.past ++ happenings }

/-- The clock has been read. -/
def tick (now : ℚ) (system : System) : System := { system with now := now }

def withSink (sink : SinkCircuit) (system : System) : System := { system with sink := sink }

variable (setup : Setup)

/-- Call a method of the queue. -/
def call (consumer : Option ℕ) (call : QueueCall) (system : System) :
    Except Exn (List Message) × System :=
  let (result, queue) := system.queue.perform setup.host setup.queue call
  (result, { system with queue := queue, past := system.past ++ [.called consumer call] })

/-- Call `store.upsert` or `index.index`, up to its first await. -/
def begin (consumer : ℕ) (sink : Sink) (message : Message) (rest : List Message)
    (system : System) : System :=
  { system with
    writes := system.writes ++ [⟨sink, message.event, false⟩]
    tasks := system.tasks.set consumer (.writing sink message rest system.writes.length)
    past := system.past ++ [.began consumer sink message] }

/-- One turn of the `while` loop of `_loop`, up to the first message of its batch. -/
def turn (consumer : ℕ) (fault : Option String) (askedAt sweptAt now : ℚ) (system : System) :
    System :=
  let (allowance, sink) := system.sink.allowance setup.worker.batchSize askedAt
  let probe := system.sink.isOpen
  let system := (system.withSink sink).tick now
  if allowance = 0 then system
  else
    match fault with
    | some _ => system.withSink sink.abandonProbe
    | none =>
        match system.call setup (some consumer) (.receive allowance none sweptAt now) with
        | (.error _, system) => system.withSink sink.abandonProbe
        | (.ok [], system) => system.withSink sink.abandonProbe
        | (.ok (message :: messages), system) =>
            (system.put consumer (.batch (message :: messages))).note
              ((message :: messages).map (.received consumer probe))

/-- The first `try` of `_handle`, and the call of `store.upsert` that follows it. -/
def heartbeat (consumer : ℕ) (message : Message) (rest : List Message) (now : ℚ)
    (system : System) : System :=
  match (system.tick now).call setup (some consumer)
      (.changeVisibility message.receiptHandle setup.worker.visibilityTimeout now) with
  | (.ok _, system) => system.begin consumer .mongodb message rest
  | (.error (.receiptHandleIsInvalid _), system) => system.put consumer (.resume rest)
  | (.error exn, system) => system.put consumer (.died exn)

/-- What a write that has landed leaves in its store. -/
def land (write : Write) (system : System) : System :=
  match write.sink with
  | .mongodb =>
      let document := write.event.toDocument
      { system with mongo := system.mongo.set document.id document }
  | .elasticsearch =>
      let document := (setup.host.modelDump write.event).erase "event_id"
      { system with elastic := system.elastic.set write.event.eventId document }

/-- `_handle` from where a store returned: on to the index, or on to the delete. -/
def afterWrite (consumer : ℕ) (sink : Sink) (message : Message) (rest : List Message)
    (system : System) : System :=
  let system := system.note [.returned consumer sink message]
  match sink with
  | .mongodb => system.begin consumer .elasticsearch message rest
  | .elasticsearch =>
      ((system.withSink system.sink.recordSuccess).put consumer (.acking message rest)).note
        [.recordedSuccess consumer message]

/-- The `except Exception` of the writes in `_handle`. -/
def failing (consumer : ℕ) (sink : Sink) (message : Message) (rest : List Message)
    (checkedAt openedAt failedAt : ℚ) (system : System) : System :=
  let system := { system.tick failedAt with failed := system.failed + 1 }
  let system := system.note [.raised consumer sink message, .recordedFailure consumer message]
  match system.sink.recordFailure setup.worker.sink message.event.eventId checkedAt openedAt with
  | (.error exn, sink) => (system.withSink sink).put consumer (.died exn)
  | (.ok _, sink) =>
      match (system.withSink sink).call setup (some consumer)
          (.fail message.receiptHandle failedAt) with
      | (.ok _, system) => system.put consumer (.resume rest)
      | (.error (.receiptHandleIsInvalid _), system) => system.put consumer (.resume rest)
      | (.error exn, system) => system.put consumer (.died exn)

/-- The delete at the end of `_handle`. -/
def ack (consumer : ℕ) (message : Message) (rest : List Message) (system : System) : System :=
  match system.call setup (some consumer) (.delete message.receiptHandle) with
  | (.ok _, system) =>
      System.put consumer (.resume rest) { system with processed := system.processed + 1 }
  | (.error (.receiptHandleIsInvalid _), system) => system.put consumer (.resume rest)
  | (.error exn, system) => system.put consumer (.died exn)

/-- The system after a move, `none` where the move is not possible. -/
def step (system : System) : Move → Option System
  | .send event => some (system.call setup none (.send event)).2
  | .turn consumer fault askedAt sweptAt now =>
      match system.at? consumer with
      | .ready =>
          if system.stopping then some (system.put consumer .stopped)
          else if system.now ≤ askedAt ∧ askedAt ≤ sweptAt ∧ sweptAt ≤ now then
            some (system.turn setup consumer fault askedAt sweptAt now)
          else none
      | _ => none
  | .heartbeat consumer now =>
      match system.at? consumer with
      | .batch (message :: rest) =>
          if system.now ≤ now then some (system.heartbeat setup consumer message rest now) else none
      | _ => none
  | .land index =>
      match system.writes[index]? with
      | some write =>
          if write.landed then none
          else some { System.land setup write system with
            writes := system.writes.set index { write with landed := true } }
      | none => none
  | .returned consumer =>
      match system.at? consumer with
      | .writing sink message rest write =>
          if (system.writes[write]?).any Write.landed then
            some (system.afterWrite consumer sink message rest)
          else none
      | _ => none
  | .raised consumer checkedAt openedAt failedAt =>
      match system.at? consumer with
      | .writing sink message rest _ =>
          if system.now ≤ checkedAt ∧ checkedAt ≤ openedAt ∧ openedAt ≤ failedAt then
            some (system.failing setup consumer sink message rest checkedAt openedAt failedAt)
          else none
      | _ => none
  | .ack consumer =>
      match system.at? consumer with
      | .acking message rest => some (system.ack setup consumer message rest)
      | _ => none
  | .cancel consumer =>
      if (system.at? consumer).done then none else some (system.put consumer .cancelled)
  | .start =>
      if system.running.isEmpty then
        some { system with
          stopping := false
          tasks := system.tasks ++ List.replicate setup.worker.concurrency .ready
          running := List.range' system.tasks.length setup.worker.concurrency }
      else none
  | .stop =>
      if system.running.isEmpty then none
      else some { system with stopping := true, stops := system.stops ++ [system.running] }
  | .drained index =>
      match system.stops[index]? with
      | some waiting =>
          if waiting.all fun consumer => (system.at? consumer).done then
            some { system with running := [], stops := system.stops.eraseIdx index }
          else none
      | none => none

/-- The machine: a move that is not possible changes nothing. -/
def next (system : System) (move : Move) : System := (system.step setup move).getD system

end System

/-- The WARNING lines at shutdown. -/
inductive ShutdownLine where
  | losing (visible inFlight dlq capacity : ℕ)
  | lostOnShutdown (payload : String)
deriving DecidableEq

/-- The loop over `pending_events` in `lifespan`; a dump that raises ends it. -/
def lostLines (host : Host) : List Event → Except Exn (List ShutdownLine)
  | [] => .ok []
  | event :: events =>
      match host.modelDumpJson event with
      | none => .error (.serializationError event.eventId)
      | some payload => (lostLines host events).map (.lostOnShutdown payload :: ·)

/-- What `lifespan` logs about the queue after `worker.stop()`. -/
def shutdownLines (host : Host) (settings : QueueSettings) (queue : InMemoryEventQueue) :
    Except Exn (List ShutdownLine) :=
  let pending := queue.stats settings
  if pending.visible ≠ 0 ∨ pending.inFlight ≠ 0 then
    (lostLines host queue.pendingEvents).map
      (.losing pending.visible pending.inFlight pending.dlq pending.capacity :: ·)
  else .ok []

end FeathrEvents
