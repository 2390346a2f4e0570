/-
Module: FeathrEvents.App.Queue
Purpose: `InMemoryEventQueue` as the code computes it: every method is a function from the queue
  before the call to what the call returns or raises and the queue after it, because a method that
  raises keeps what it had already changed.
Trusted boundary: translation by hand of `app/queue.py`
Main exports: QueueSettings, Entry, Message, InMemoryEventQueue, send, receive, delete,
  changeVisibility, fail, clear, stats, pendingEvents, QueueCall, perform
-/
import FeathrEvents.Lib.BoundedDeque
import FeathrEvents.App.Host

namespace FeathrEvents

open Collections (OrderedDict BoundedDeque)

def backoffCapSeconds : ℚ := 900

def dlqMaxlen : ℕ := 1000

/-- The keyword arguments of `InMemoryEventQueue.__init__`.  The clock is not one of them here:
every method takes the values its clock readings return. -/
structure QueueSettings where
  visibilityTimeout : ℚ := 30
  maxReceives : ℤ := 5
  maxsize : ℕ := 10000
  arithmetic : Arithmetic := .float

/-- `_Entry`: a message's internal state.  `handle` is the live handle, `none` while visible. -/
structure Entry where
  event : Event
  receiveCount : ℕ := 0
  handle : Option String := none
  deadline : ℚ := 0

/-- An event lent to a consumer, with the receipt needed to return it. -/
structure Message where
  event : Event
  receiptHandle : String
  receiveCount : ℕ

/-- The ERROR lines of `_sweep`. -/
inductive QueueLine where
  | full (limit : ℕ) (discarded admitted : String)
  | deadLettering (eventId : String) (deliveries : ℕ) (payload : String)
deriving DecidableEq

/-- The attributes of `InMemoryEventQueue`.  `minted` and `log` are not attributes: they are the
number of uuid4 values drawn so far and what the module's logger has written. -/
structure InMemoryEventQueue where
  entries : OrderedDict String Entry
  visible : List String
  inflight : OrderedDict String String
  dlq : BoundedDeque Event dlqMaxlen
  minted : ℕ
  log : List QueueLine

/-- What one turn of the `while` loop of `receive` did with the id it popped. -/
inductive Popped where
  | deletedWhileQueued (messageId : String)
  | lent (messageId : String) (message : Message)

/-- The id that the turn popped. -/
def Popped.messageId : Popped → String
  | .deletedWhileQueued messageId | .lent messageId _ => messageId

/-- The message appended to `out`, if the turn appended one. -/
def Popped.message? : Popped → Option Message
  | .deletedWhileQueued _ => none
  | .lent _ message => some message

/-- `stats()`. -/
structure QueueStats where
  visible : ℕ
  inFlight : ℕ
  dlq : ℕ
  capacity : ℕ

namespace InMemoryEventQueue

variable (host : Host) (settings : QueueSettings)

/-- A fresh queue. -/
def create : InMemoryEventQueue where
  entries := .empty
  visible := []
  inflight := .empty
  dlq := .empty
  minted := 0
  log := []

/-! ### The port -/

def send (event : Event) (queue : InMemoryEventQueue) : Except Exn Unit × InMemoryEventQueue :=
  if queue.entries.size ≥ settings.maxsize then
    (.error (.queueFull s!"the queue reached its bound of {settings.maxsize} messages"), queue)
  else
    let messageId := host.uuid4 queue.minted
    (.ok (), { queue with
      entries := queue.entries.set messageId { event := event }
      visible := queue.visible ++ [messageId]
      minted := queue.minted + 1 })

/-- `_backoff_for`. -/
def backoffFor (receiveCount : ℕ) : Except Exn ℚ :=
  (timesPowerOfTwo settings.arithmetic settings.visibilityTimeout (receiveCount - 1)).map
    (min · backoffCapSeconds)

/-- The loans whose deadline has passed, in the order of `_inflight`. -/
def expired (now : ℚ) (entries : OrderedDict String Entry) :
    List (String × String) → Except Exn (List String)
  | [] => .ok []
  | (handle, messageId) :: rest =>
      match entries.get? messageId with
      | none => .error (.keyError messageId)
      | some entry => do
          let handles ← expired now entries rest
          if entry.deadline ≤ now then .ok (handle :: handles) else .ok handles

/-- Pop the loan from `_inflight` and clear the handle of its entry. -/
def release (handle messageId : String) (queue : InMemoryEventQueue) : InMemoryEventQueue :=
  { queue with
    inflight := queue.inflight.erase handle
    entries := queue.entries.modify messageId fun entry => { entry with handle := none } }

/-- The line that names the event about to be discarded from a full dead-letter queue. -/
def reportFull (entry : Entry) (queue : InMemoryEventQueue) : InMemoryEventQueue :=
  match queue.dlq.items with
  | [] => queue
  | oldest :: _ =>
      if queue.dlq.items.length = dlqMaxlen then
        { queue with
          log := queue.log ++ [.full dlqMaxlen oldest.eventId entry.event.eventId] }
      else queue

/-- Log the whole event, append it to the dead-letter queue and free its entry. -/
def bury (messageId : String) (entry : Entry) (payload : String) (queue : InMemoryEventQueue) :
    InMemoryEventQueue :=
  { queue with
    log := queue.log ++ [.deadLettering entry.event.eventId entry.receiveCount payload]
    dlq := queue.dlq.append entry.event
    entries := queue.entries.erase messageId }

/-- One turn of the loop of `_sweep`.  The dump is an argument of the logging call, so it is taken
after the loan is gone and before the event reaches the dead-letter queue. -/
def sweepOne (handle : String) (queue : InMemoryEventQueue) :
    Except Exn Unit × InMemoryEventQueue :=
  match queue.inflight.get? handle with
  | none => (.error (.keyError handle), queue)
  | some messageId =>
      match queue.entries.get? messageId with
      | none =>
          (.error (.keyError messageId), { queue with inflight := queue.inflight.erase handle })
      | some entry =>
          let released := queue.release handle messageId
          if settings.maxReceives ≤ entry.receiveCount then
            let reported := released.reportFull entry
            match host.modelDumpJson entry.event with
            | none => (.error (.serializationError entry.event.eventId), reported)
            | some payload => (.ok (), reported.bury messageId entry payload)
          else
            (.ok (), { released with visible := released.visible ++ [messageId] })

/-- The loop of `_sweep`; an exception leaves the remaining loans as they are. -/
def sweepLoop : List String → InMemoryEventQueue → Except Exn Unit × InMemoryEventQueue
  | [], queue => (.ok (), queue)
  | handle :: handles, queue =>
      match sweepOne host settings handle queue with
      | (.ok _, queue) => sweepLoop handles queue
      | (.error exn, queue) => (.error exn, queue)

/-- `_sweep`, its clock reading `now`. -/
def sweep (now : ℚ) (queue : InMemoryEventQueue) : Except Exn Unit × InMemoryEventQueue :=
  match expired now queue.entries queue.inflight.items with
  | .error exn => (.error exn, queue)
  | .ok handles => sweepLoop host settings handles queue

/-- The body of the `while` loop of `receive`, after `popleft` returned `messageId`. -/
def lendOne (deadline : ℚ) (messageId : String) (queue : InMemoryEventQueue) :
    Popped × InMemoryEventQueue :=
  match queue.entries.get? messageId with
  | none => (.deletedWhileQueued messageId, queue)
  | some entry =>
      let handle := host.uuid4 queue.minted
      (.lent messageId ⟨entry.event, handle, entry.receiveCount + 1⟩, { queue with
        entries := queue.entries.modify messageId fun entry =>
          { entry with
            receiveCount := entry.receiveCount + 1, deadline := deadline, handle := some handle }
        inflight := queue.inflight.set handle messageId
        minted := queue.minted + 1 })

/-- The `while` loop of `receive`: `waiting` is `_visible`, `taken` is `len(out)`. -/
def lend (deadline : ℚ) (maxN : ℤ) :
    List String → ℕ → InMemoryEventQueue → List Popped × InMemoryEventQueue
  | [], _, queue => ([], queue)
  | messageId :: waiting, taken, queue =>
      if (taken : ℤ) < maxN then
        let (popped, queue) := lendOne host deadline messageId { queue with visible := waiting }
        let (later, queue) :=
          lend deadline maxN waiting (taken + popped.message?.toList.length) queue
        (popped :: later, queue)
      else ([], queue)

/-- `receive`, with the clock readings of its sweep and of its own. -/
def receive (maxN : ℤ) (visibilityTimeout : Option ℚ) (sweptAt now : ℚ)
    (queue : InMemoryEventQueue) : Except Exn (List Message) × InMemoryEventQueue :=
  match sweep host settings sweptAt queue with
  | (.error exn, queue) => (.error exn, queue)
  | (.ok _, queue) =>
      let base := visibilityTimeout.getD settings.visibilityTimeout
      let (popped, queue) := lend host (now + base) maxN queue.visible 0 queue
      (.ok (popped.filterMap Popped.message?), queue)

/-- The text of `ReceiptHandleIsInvalid`, raised by three verbs. -/
def invalidHandle (receiptHandle : String) : Exn :=
  .receiptHandleIsInvalid
    ("unknown or expired handle: " ++ String.ofList (receiptHandle.toList.take 12) ++ "...")

def delete (receiptHandle : String) (queue : InMemoryEventQueue) :
    Except Exn Unit × InMemoryEventQueue :=
  match queue.inflight.get? receiptHandle with
  | none => (.error (invalidHandle receiptHandle), queue)
  | some messageId =>
      (.ok (), { queue with
        inflight := queue.inflight.erase receiptHandle
        entries := queue.entries.erase messageId })

/-- `self._entries[message_id].deadline = deadline`. -/
def setDeadline (messageId : String) (deadline : ℚ) (queue : InMemoryEventQueue) :
    Except Exn Unit × InMemoryEventQueue :=
  match queue.entries.get? messageId with
  | none => (.error (.keyError messageId), queue)
  | some _ =>
      (.ok (), { queue with
        entries := queue.entries.modify messageId fun entry => { entry with deadline := deadline } })

def changeVisibility (receiptHandle : String) (seconds now : ℚ) (queue : InMemoryEventQueue) :
    Except Exn Unit × InMemoryEventQueue :=
  match queue.inflight.get? receiptHandle with
  | none => (.error (invalidHandle receiptHandle), queue)
  | some messageId => setDeadline messageId (now + seconds) queue

def fail (receiptHandle : String) (now : ℚ) (queue : InMemoryEventQueue) :
    Except Exn Unit × InMemoryEventQueue :=
  match queue.inflight.get? receiptHandle with
  | none => (.error (invalidHandle receiptHandle), queue)
  | some messageId =>
      match queue.entries.get? messageId with
      | none => (.error (.keyError messageId), queue)
      | some entry =>
          match backoffFor settings entry.receiveCount with
          | .error exn => (.error exn, queue)
          | .ok backoff => setDeadline messageId (now + backoff) queue

/-! ### Observability -/

def stats (queue : InMemoryEventQueue) : QueueStats where
  visible := queue.visible.length
  inFlight := queue.inflight.size
  dlq := queue.dlq.items.length
  capacity := settings.maxsize

/-- Demo affordance: drop every message, in any state. -/
def clear (queue : InMemoryEventQueue) : InMemoryEventQueue :=
  { queue with entries := .empty, visible := [], inflight := .empty, dlq := .empty }

def pendingEvents (queue : InMemoryEventQueue) : List Event :=
  queue.entries.values.map Entry.event

/-! ### One call -/

end InMemoryEventQueue

/-- A call of a method that changes the queue, with its arguments and its clock readings. -/
inductive QueueCall where
  | send (event : Event)
  | receive (maxN : ℤ) (visibilityTimeout : Option ℚ) (sweptAt now : ℚ)
  | delete (receiptHandle : String)
  | changeVisibility (receiptHandle : String) (seconds now : ℚ)
  | fail (receiptHandle : String) (now : ℚ)
  | clear

namespace InMemoryEventQueue

variable (host : Host) (settings : QueueSettings)

/-- Carry out a call.  A method that returns nothing returns no messages. -/
def perform (queue : InMemoryEventQueue) :
    QueueCall → Except Exn (List Message) × InMemoryEventQueue
  | .send event => (queue.send host settings event).map (·.map fun _ => []) id
  | .receive maxN visibilityTimeout sweptAt now =>
      queue.receive host settings maxN visibilityTimeout sweptAt now
  | .delete receiptHandle => (queue.delete receiptHandle).map (·.map fun _ => []) id
  | .changeVisibility receiptHandle seconds now =>
      (queue.changeVisibility receiptHandle seconds now).map (·.map fun _ => []) id
  | .fail receiptHandle now => (queue.fail settings receiptHandle now).map (·.map fun _ => []) id
  | .clear => (.ok [], queue.clear)

/-- The queue after a call. -/
def after (queue : InMemoryEventQueue) (call : QueueCall) : InMemoryEventQueue :=
  (queue.perform host settings call).2

end InMemoryEventQueue

end FeathrEvents
