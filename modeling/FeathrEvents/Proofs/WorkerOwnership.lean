/-
Module: FeathrEvents.Proofs.WorkerOwnership
Purpose: Every delivery belongs to one consumer, which calls at most two verbs with its handle: one
  heartbeat, and then one `fail` or one `delete`.
Trusted boundary: none
Main exports: Consumer.untouched, Consumer.current?, verbs, VerbShape, Owned, owned_run
-/
import FeathrEvents.Proofs.WorkerCalls

namespace FeathrEvents

open InMemoryEventQueue (Drawn Lends Linked)

/-- The messages that a consumer has not begun to handle. -/
def Consumer.untouched : Consumer → List Message
  | .batch messages => messages
  | .writing _ _ rest _ | .acking _ rest => rest
  | .ready | .stopped | .cancelled | .died _ => []

/-- The message that a consumer is handling: the one whose writes it makes, or whose delete it waits
for.  The rest of its batch waits behind it. -/
def Consumer.current? : Consumer → Option Message
  | .writing _ message _ _ | .acking message _ => some message
  | .ready | .batch _ | .stopped | .cancelled | .died _ => none

/-- The messages whose handles a consumer may still use. -/
def Consumer.held (consumer : Consumer) : List Message :=
  consumer.current?.toList ++ consumer.untouched

@[simp] theorem Consumer.untouched_resume (rest : List Message) :
    (Consumer.resume rest).untouched = rest := by
  cases rest <;> rfl

@[simp] theorem Consumer.current?_resume (rest : List Message) :
    (Consumer.resume rest).current? = none := by
  cases rest <;> rfl

theorem Consumer.current_held {consumer : Consumer} {message : Message}
    (current : consumer.current? = some message) : message ∈ consumer.held := by
  simp [Consumer.held, current]

theorem Consumer.untouched_held {consumer : Consumer} {message : Message}
    (untouched : message ∈ consumer.untouched) : message ∈ consumer.held :=
  List.mem_append_right _ untouched

/-- The calls so far with a handle, each with its caller. -/
def verbs (past : List Happening) (handle : String) : List (Option ℕ × QueueCall) :=
  (callsBy past).filter fun entry => entry.2.receiptHandle? = some handle

/-- The calls that a handle ever sees: a heartbeat, then a `fail` or a `delete` by the same
consumer. -/
inductive VerbShape (window : ℚ) (handle : String) : List (Option ℕ × QueueCall) → Prop where
  | unused : VerbShape window handle []
  | beaten (consumer : ℕ) (now : ℚ) :
      VerbShape window handle [(some consumer, .changeVisibility handle window now)]
  | ended (consumer : ℕ) (now : ℚ) (call : QueueCall)
      (ends : call = .delete handle ∨ ∃ failedAt, call = .fail handle failedAt) :
      VerbShape window handle
        [(some consumer, .changeVisibility handle window now), (some consumer, call)]

/-- No verb follows a `fail` or a `delete`. -/
theorem VerbShape.last {window : ℚ} {handle : String} {before after : List (Option ℕ × QueueCall)}
    {caller : Option ℕ} {call : QueueCall}
    (shape : VerbShape window handle (before ++ (caller, call) :: after))
    (ends : call = .delete handle ∨ ∃ failedAt, call = .fail handle failedAt) : after = [] := by
  generalize split : before ++ (caller, call) :: after = all at shape
  cases shape with
  | unused => simp at split
  | beaten consumer now =>
      cases before with
      | nil =>
          cases split
          rcases ends with impossible | ⟨_, impossible⟩ <;> cases impossible
      | cons head before => simp at split
  | ended consumer now other =>
      cases before with
      | nil =>
          cases split
          rcases ends with impossible | ⟨_, impossible⟩ <;> cases impossible
      | cons head before =>
          cases before with
          | nil =>
              cases split
              rfl
          | cons next before => simp at split

/-- After a heartbeat there is at most one more verb, which ends the delivery for the same
consumer. -/
theorem VerbShape.after_heartbeat {window time seconds : ℚ} {handle : String}
    {before after : List (Option ℕ × QueueCall)} {consumer : ℕ}
    (shape : VerbShape window handle
      (before ++ (some consumer, .changeVisibility handle seconds time) :: after)) :
    after = [] ∨ ∃ call, after = [(some consumer, call)] ∧
      (call = .delete handle ∨ ∃ failedAt, call = .fail handle failedAt) := by
  generalize split : before ++ (some consumer, .changeVisibility handle seconds time) :: after = all
    at shape
  cases shape with
  | unused => simp at split
  | beaten other now =>
      cases before with
      | nil =>
          cases split
          exact .inl rfl
      | cons head before => simp at split
  | ended other now call ends =>
      cases before with
      | nil =>
          cases split
          exact .inr ⟨call, rfl, ends⟩
      | cons head before =>
          cases before with
          | nil =>
              cases split
              rcases ends with impossible | ⟨_, impossible⟩ <;> cases impossible
          | cons next before => simp at split

namespace System

/-- Who may use which handle, and how: every handle is held by one consumer, which sends a heartbeat
with it before its writes and calls `delete` or `fail` with it at most once. -/
structure Owned (setup : Setup) (system : System) : Prop where
  nodup : ∀ consumer, ((system.at? consumer).held.map Message.receiptHandle).Nodup
  apart : ∀ one two, one ≠ two → ∀ first ∈ (system.at? one).held,
    ∀ second ∈ (system.at? two).held, first.receiptHandle ≠ second.receiptHandle
  drawn : ∀ consumer, ∀ message ∈ (system.at? consumer).held,
    Drawn setup.host system.queue message.receiptHandle
  lends : ∀ consumer, ∀ message ∈ (system.at? consumer).held, Lends system.queue message
  untouched : ∀ consumer, ∀ message ∈ (system.at? consumer).untouched,
    verbs system.past message.receiptHandle = []
  current : ∀ consumer message, (system.at? consumer).current? = some message →
    ∃ now, verbs system.past message.receiptHandle = [(some consumer,
      .changeVisibility message.receiptHandle setup.worker.visibilityTimeout now)]
  shape : ∀ handle, VerbShape setup.worker.visibilityTimeout handle (verbs system.past handle)
  verbsDrawn : ∀ handle, verbs system.past handle ≠ [] → Drawn setup.host system.queue handle

variable {setup : Setup} {system later : System}

theorem owned_create : Owned setup System.create where
  nodup := by simp [System.create, at?, Consumer.held, Consumer.current?, Consumer.untouched]
  apart := by simp [System.create, at?, Consumer.held, Consumer.current?, Consumer.untouched]
  drawn := by simp [System.create, at?, Consumer.held, Consumer.current?, Consumer.untouched]
  lends := by simp [System.create, at?, Consumer.held, Consumer.current?, Consumer.untouched]
  untouched := by simp [System.create, at?, Consumer.untouched]
  current := by simp [System.create, at?, Consumer.current?]
  shape _ := .unused
  verbsDrawn := by simp [System.create, verbs]

/-- The queue after a move: nothing drawn is lost, and what a handle lends stays the same. -/
structure QueueGrows (host : Host) (before after : InMemoryEventQueue) : Prop where
  drawn : ∀ name, Drawn host before name → Drawn host after name
  lends : ∀ message, Drawn host before message.receiptHandle → Lends before message →
    Lends after message

theorem QueueGrows.refl (host : Host) (queue : InMemoryEventQueue) : QueueGrows host queue queue :=
  ⟨fun _ drawn => drawn, fun _ _ lends => lends⟩

theorem queueGrows_after {host : Host} {queue : InMemoryEventQueue} (settings : QueueSettings)
    (linked : Linked host queue) (call : QueueCall) :
    QueueGrows host queue (queue.after host settings call) :=
  ⟨fun _ => InMemoryEventQueue.drawn_after linked call,
    fun _ drawn lends => InMemoryEventQueue.lends_after settings linked drawn lends call⟩

/-- A move after which no consumer holds more than before, and which calls no verb. -/
theorem Owned.keep (owned : Owned setup system)
    (grows : QueueGrows setup.host system.queue later.queue)
    (silent : ∀ handle, verbs later.past handle = verbs system.past handle)
    (held : ∀ other, (later.at? other).held.Sublist (system.at? other).held)
    (untouched : ∀ other, (later.at? other).untouched.Sublist (system.at? other).untouched)
    (current : ∀ other message, (later.at? other).current? = some message →
      (system.at? other).current? = some message) :
    Owned setup later where
  nodup other := (owned.nodup other).sublist ((held other).map _)
  apart one two different first firstHeld second secondHeld :=
    owned.apart one two different first ((held one).subset firstHeld) second
      ((held two).subset secondHeld)
  drawn other message member :=
    grows.drawn _ (owned.drawn other message ((held other).subset member))
  lends other message member := by
    have before := (held other).subset member
    exact grows.lends message (owned.drawn other message before) (owned.lends other message before)
  untouched other message member := by
    rw [silent]
    exact owned.untouched other message ((untouched other).subset member)
  current other message shape := by
    rw [silent]
    exact owned.current other message (current other message shape)
  shape handle := by
    rw [silent]
    exact owned.shape handle
  verbsDrawn handle used := by
    rw [silent] at used
    exact grows.drawn handle (owned.verbsDrawn handle used)

/-- A move in which nobody moves on, and which calls no verb. -/
theorem Owned.still (owned : Owned setup system)
    (grows : QueueGrows setup.host system.queue later.queue)
    (silent : ∀ handle, verbs later.past handle = verbs system.past handle)
    (tasks : later.tasks = system.tasks) : Owned setup later := by
  have same : ∀ other, later.at? other = system.at? other := fun other => by rw [at?, tasks, at?]
  exact owned.keep grows silent (fun other => same other ▸ .refl _) (fun other => same other ▸ .refl _)
    fun other _ shape => same other ▸ shape

/-- A move in which a consumer calls a verb with a handle of its own. -/
theorem Owned.touch (owned : Owned setup system) {consumer : ℕ} {message : Message}
    (mine : message ∈ (system.at? consumer).held)
    (grows : QueueGrows setup.host system.queue later.queue)
    (silent : ∀ handle, handle ≠ message.receiptHandle →
      verbs later.past handle = verbs system.past handle)
    (shape : VerbShape setup.worker.visibilityTimeout message.receiptHandle
      (verbs later.past message.receiptHandle))
    (others : ∀ other, other ≠ consumer → later.at? other = system.at? other)
    (held : (later.at? consumer).held.Sublist (system.at? consumer).held)
    (untouched : (later.at? consumer).untouched.Sublist (system.at? consumer).untouched)
    (fresh : ∀ kept ∈ (later.at? consumer).untouched,
      kept.receiptHandle ≠ message.receiptHandle)
    (current : ∀ begun, (later.at? consumer).current? = some begun → ∃ now,
      verbs later.past begun.receiptHandle = [(some consumer,
        .changeVisibility begun.receiptHandle setup.worker.visibilityTimeout now)]) :
    Owned setup later := by
  have heldAt : ∀ other, (later.at? other).held.Sublist (system.at? other).held := by
    intro other
    by_cases same : other = consumer
    · exact same ▸ held
    · rw [others other same]
  have elsewhere : ∀ other, other ≠ consumer → ∀ kept ∈ (later.at? other).held,
      kept.receiptHandle ≠ message.receiptHandle := by
    intro other different kept member
    exact owned.apart other consumer different kept ((heldAt other).subset member) message mine
  refine ⟨fun other => ?_, ?_, ?_, ?_, ?_, ?_, ?_, ?_⟩
  · exact (owned.nodup other).sublist ((heldAt other).map _)
  · intro one two different first firstHeld second secondHeld
    exact owned.apart one two different first ((heldAt one).subset firstHeld) second
      ((heldAt two).subset secondHeld)
  · intro other kept member
    exact grows.drawn _ (owned.drawn other kept ((heldAt other).subset member))
  · intro other kept member
    have before := (heldAt other).subset member
    exact grows.lends kept (owned.drawn other kept before) (owned.lends other kept before)
  · intro other kept member
    by_cases same : other = consumer
    · subst same
      rw [silent _ (fresh kept member)]
      exact owned.untouched other kept (untouched.subset member)
    · rw [silent _ (elsewhere other same kept (Consumer.untouched_held member))]
      rw [others other same] at member
      exact owned.untouched other kept member
  · intro other begun begins
    by_cases same : other = consumer
    · subst same
      exact current begun begins
    · rw [silent _ (elsewhere other same begun (Consumer.current_held begins))]
      rw [others other same] at begins
      exact owned.current other begun begins
  · intro handle
    by_cases same : handle = message.receiptHandle
    · exact same ▸ shape
    · rw [silent handle same]
      exact owned.shape handle
  · intro handle used
    by_cases same : handle = message.receiptHandle
    · rw [same]
      exact grows.drawn _ (owned.drawn consumer message mine)
    · rw [silent handle same] at used
      exact grows.drawn handle (owned.verbsDrawn handle used)

/-- A move in which an idle consumer gets messages under new handles. -/
theorem Owned.fetch (owned : Owned setup system) {consumer : ℕ} {messages : List Message}
    (grows : QueueGrows setup.host system.queue later.queue)
    (silent : ∀ handle, verbs later.past handle = verbs system.past handle)
    (others : ∀ other, other ≠ consumer → later.at? other = system.at? other)
    (here : later.at? consumer = .batch messages)
    (nodup : (messages.map Message.receiptHandle).Nodup)
    (fresh : ∀ message ∈ messages, ¬ Drawn setup.host system.queue message.receiptHandle ∧
      Drawn setup.host later.queue message.receiptHandle ∧ Lends later.queue message) :
    Owned setup later := by
  have heldAt : ∀ other, ∀ message ∈ (later.at? other).held,
      (other = consumer ∧ message ∈ messages) ∨
        (other ≠ consumer ∧ message ∈ (system.at? other).held) := by
    intro other message member
    by_cases same : other = consumer
    · subst same
      rw [here] at member
      exact .inl ⟨rfl, by simpa [Consumer.held, Consumer.current?, Consumer.untouched] using member⟩
    · rw [others other same] at member
      exact .inr ⟨same, member⟩
  refine ⟨fun other => ?_, ?_, ?_, ?_, ?_, ?_, ?_, ?_⟩
  · by_cases same : other = consumer
    · subst same
      rw [here]
      simpa [Consumer.held, Consumer.current?, Consumer.untouched] using nodup
    · rw [others other same]
      exact owned.nodup other
  · intro one two different first firstHeld second secondHeld equal
    rcases heldAt one first firstHeld with ⟨rfl, firstNew⟩ | ⟨-, firstOld⟩
    · rcases heldAt two second secondHeld with ⟨rfl, -⟩ | ⟨-, secondOld⟩
      · exact different rfl
      · exact (fresh first firstNew).1 (equal ▸ owned.drawn two second secondOld)
    · rcases heldAt two second secondHeld with ⟨rfl, secondNew⟩ | ⟨-, secondOld⟩
      · exact (fresh second secondNew).1 (equal ▸ owned.drawn one first firstOld)
      · exact owned.apart one two different first firstOld second secondOld equal
  · intro other message member
    rcases heldAt other message member with ⟨-, new⟩ | ⟨-, old⟩
    · exact (fresh message new).2.1
    · exact grows.drawn _ (owned.drawn other message old)
  · intro other message member
    rcases heldAt other message member with ⟨-, new⟩ | ⟨-, old⟩
    · exact (fresh message new).2.2
    · exact grows.lends message (owned.drawn other message old) (owned.lends other message old)
  · intro other message member
    rw [silent]
    by_cases same : other = consumer
    · subst same
      rw [here] at member
      by_contra used
      exact (fresh message member).1 (owned.verbsDrawn _ used)
    · rw [others other same] at member
      exact owned.untouched other message member
  · intro other message shape
    rw [silent]
    by_cases same : other = consumer
    · subst same
      rw [here] at shape
      cases shape
    · rw [others other same] at shape
      exact owned.current other message shape
  · intro handle
    rw [silent]
    exact owned.shape handle
  · intro handle used
    rw [silent] at used
    exact grows.drawn handle (owned.verbsDrawn handle used)

/-! ### Every move -/

theorem verbs_congr {past more : List Happening} (same : callsBy more = callsBy past)
    (handle : String) : verbs more handle = verbs past handle := by
  rw [verbs, same, verbs]

theorem verbs_snoc {past more : List Happening} {consumer : Option ℕ} {call : QueueCall}
    (made : callsBy more = callsBy past ++ [(consumer, call)]) (handle : String) :
    verbs more handle = verbs past handle ++
      if call.receiptHandle? = some handle then [(consumer, call)] else [] := by
  rw [verbs, made, List.filter_append, verbs]
  by_cases same : call.receiptHandle? = some handle <;> simp [same]

/-- The handle of the message being handled is not among those of the messages after it. -/
theorem Owned.rest_apart (owned : Owned setup system) {consumer : ℕ} {message : Message}
    {rest : List Message} (held : (system.at? consumer).held = message :: rest) :
    ∀ kept ∈ rest, kept.receiptHandle ≠ message.receiptHandle := by
  intro kept member same
  have nodup := owned.nodup consumer
  rw [held, List.map_cons, List.nodup_cons] at nodup
  exact nodup.1 (same ▸ List.mem_map_of_mem (f := Message.receiptHandle) member)

/-- A task moves on without a call of the queue. -/
theorem Owned.silent (owned : Owned setup system) {consumer : ℕ} {standing : Consumer}
    (stood : system.at? consumer ≠ .stopped)
    (tasks : later.tasks = system.tasks.set consumer standing)
    (queue : later.queue = system.queue) (past : callsBy later.past = callsBy system.past)
    (held : standing.held.Sublist (system.at? consumer).held)
    (untouched : standing.untouched.Sublist (system.at? consumer).untouched)
    (current : ∀ message, standing.current? = some message →
      (system.at? consumer).current? = some message) : Owned setup later := by
  have stands := at?_of_tasks tasks stood
  refine owned.keep (queue ▸ .refl ..) (verbs_congr past) ?_ ?_ ?_
  all_goals
    intro other
    rw [stands]
    split
    · rename_i same
      subst same
      assumption
  · exact .refl _
  · exact .refl _
  · exact fun _ shape => shape

/-- New tasks hold nothing. -/
theorem Owned.recruit (owned : Owned setup system) {count : ℕ}
    (tasks : later.tasks = system.tasks ++ List.replicate count .ready)
    (queue : later.queue = system.queue) (past : later.past = system.past) :
    Owned setup later := by
  refine owned.keep (queue ▸ .refl ..) (fun _ => by rw [past]) ?_ ?_ ?_
  all_goals
    intro other
    rcases at?_of_started tasks other with same | ⟨-, ready⟩
  · rw [same]
  · rw [ready]
    exact List.nil_sublist _
  · rw [same]
  · rw [ready]
    exact List.nil_sublist _
  · rw [same]
    exact fun _ shape => shape
  · rw [ready]
    exact fun _ shape => nomatch shape

/-- A task that calls a verb with the handle of the message at its head, and then handles that
message, or drops it. -/
theorem Owned.verb (owned : Owned setup system) (linked : Linked setup.host system.queue)
    {consumer : ℕ} {standing : Consumer} {message : Message} {rest : List Message}
    {call : QueueCall} (stood : system.at? consumer ≠ .stopped)
    (head : (system.at? consumer).held = message :: rest)
    (tail : rest.Sublist (system.at? consumer).untouched)
    (tasks : later.tasks = system.tasks.set consumer standing)
    (queue : later.queue = system.queue.after setup.host setup.queue call)
    (past : callsBy later.past = callsBy system.past ++ [(some consumer, call)])
    (verb : call.receiptHandle? = some message.receiptHandle)
    (shape : VerbShape setup.worker.visibilityTimeout message.receiptHandle
      (verbs system.past message.receiptHandle ++ [(some consumer, call)]))
    (untouched : standing.untouched.Sublist rest)
    (current : ∀ begun, standing.current? = some begun → begun = message ∧ ∃ now,
      verbs system.past message.receiptHandle ++ [(some consumer, call)] = [(some consumer,
        .changeVisibility message.receiptHandle setup.worker.visibilityTimeout now)]) :
    Owned setup later := by
  have stands := at?_of_tasks tasks stood
  have here : later.at? consumer = standing := by rw [stands, if_pos rfl]
  have own : verbs later.past message.receiptHandle =
      verbs system.past message.receiptHandle ++ [(some consumer, call)] := by
    rw [verbs_snoc past, if_pos verb]
  have held : standing.held.Sublist (message :: rest) := by
    cases begins : standing.current? with
    | none => simpa [Consumer.held, begins] using untouched.cons message
    | some begun =>
        obtain ⟨rfl, -⟩ := current begun begins
        simpa [Consumer.held, begins] using untouched
  have mine : message ∈ (system.at? consumer).held := by
    rw [head]
    exact List.mem_cons_self ..
  refine owned.touch mine
    (queue ▸ queueGrows_after setup.queue linked call) (fun handle different => ?_) (own ▸ shape)
    (fun other different => ?_) (by rw [here, head]; exact held)
    (by rw [here]; exact untouched.trans tail) ?_ ?_
  · rw [verbs_snoc past, verb, if_neg fun same => different (Option.some.inj same).symm,
      List.append_nil]
  · rw [stands, if_neg different]
  · rw [here]
    exact fun kept member => owned.rest_apart head kept (untouched.subset member)
  · rw [here]
    intro begun begins
    obtain ⟨rfl, now, only⟩ := current begun begins
    exact ⟨now, own.trans only⟩

/-- A task that calls `delete` or `fail` for the message that it is handling, and is done with it. -/
theorem Owned.ends (owned : Owned setup system) (linked : Linked setup.host system.queue)
    {consumer : ℕ} {standing : Consumer} {message : Message} {call : QueueCall}
    (handling : (system.at? consumer).current? = some message)
    (tasks : later.tasks = system.tasks.set consumer standing)
    (queue : later.queue = system.queue.after setup.host setup.queue call)
    (past : callsBy later.past = callsBy system.past ++ [(some consumer, call)])
    (final : call = .delete message.receiptHandle ∨
      ∃ failedAt, call = .fail message.receiptHandle failedAt)
    (untouched : standing.untouched.Sublist (system.at? consumer).untouched)
    (idle : standing.current? = none) : Owned setup later := by
  obtain ⟨now, beaten⟩ := owned.current consumer message handling
  have stood : system.at? consumer ≠ .stopped := by
    intro stopped
    rw [stopped] at handling
    cases handling
  have head : (system.at? consumer).held = message :: (system.at? consumer).untouched := by
    rw [Consumer.held, handling]
    rfl
  have verb : call.receiptHandle? = some message.receiptHandle := by
    rcases final with rfl | ⟨failedAt, rfl⟩ <;> rfl
  refine owned.verb linked stood head (.refl _) tasks queue past verb ?_ untouched ?_
  · rw [beaten]
    exact .ended consumer now _ final
  · rw [idle]
    exact fun _ begins => nomatch begins

theorem Owned.moved (owned : Owned setup system) (linked : Linked setup.host system.queue)
    {move : Move} (moved : Moved setup system move later) : Owned setup later := by
  have grows : ∀ call, QueueGrows setup.host system.queue
      (system.queue.after setup.host setup.queue call) := queueGrows_after setup.queue linked
  cases moved with
  | idle => exact owned
  | sent event =>
      refine owned.still (grows _) (fun handle => ?_) rfl
      simp [made, verbs, Happening.call?, QueueCall.receiptHandle?]
  | @quit consumer _ _ _ _ stands =>
      exact owned.silent (stands ▸ by simp) rfl rfl rfl (List.nil_sublist _) (List.nil_sublist _)
        (by simp [Consumer.current?])
  | waited | faulted | stopCalled | drained =>
      exact owned.still (.refl ..) (fun _ => rfl) rfl
  | found =>
      refine owned.still (grows _) (fun handle => ?_) rfl
      simp [made, withSink, tick, verbs, Happening.call?, QueueCall.receiptHandle?]
  | @fetched consumer _ _ sweptAt now allowance circuit messages stands ordered asked granted
      answer =>
      obtain ⟨nodup, issued⟩ := InMemoryEventQueue.receive_handles linked answer
      have stood : system.at? consumer ≠ .stopped := by simp [stands]
      refine owned.fetch (grows _) (fun handle => ?_)
        (fun other different => (at?_of_tasks rfl stood other).trans (if_neg different))
        ((at?_of_tasks rfl stood consumer).trans (if_pos rfl)) nodup fun message member => ?_
      · simp [made, withSink, tick, put, note, verbs, Happening.call?, QueueCall.receiptHandle?]
      · obtain ⟨fresh, messageId, entry, live, found, event, count⟩ := issued message member
        have linkedAfter : Linked setup.host (system.queue.after setup.host setup.queue
            (.receive allowance none sweptAt now)) := InMemoryEventQueue.linked_after linked _
        refine ⟨fresh, linkedAfter.handleMinted _ _ live, fun other lent => ?_⟩
        have one : messageId = other := Option.some.inj (live.symm.trans lent)
        exact ⟨entry, one ▸ found, event, count⟩
  | @beat consumer now message rest stands =>
      have unused := owned.untouched consumer message (by simp [stands, Consumer.untouched])
      refine owned.verb linked (by simp [stands])
        (by rw [stands]; rfl) (by simp [stands, Consumer.untouched]) rfl rfl
        (by simp [made, begin, tick, Happening.call?]) rfl ?_ (.refl _) ?_
      · rw [unused]
        exact .beaten consumer now
      · intro begun begins
        refine ⟨(Option.some.inj begins).symm, now, ?_⟩
        rw [unused, List.nil_append]
  | @stale consumer now message rest stands =>
      have unused := owned.untouched consumer message (by simp [stands, Consumer.untouched])
      refine owned.verb linked (by simp [stands])
        (by rw [stands]; rfl) (by simp [stands, Consumer.untouched]) rfl rfl
        (by simp [made, put, tick, Happening.call?]) rfl ?_ (by simp) (by simp)
      rw [unused]
      exact .beaten consumer now
  | @landed index write =>
      obtain ⟨sink, event, landed⟩ := write
      cases sink <;> exact owned.still (.refl ..) (fun _ => rfl) rfl
  | stored stands | indexed stands =>
      refine owned.silent (by simp [stands]) rfl rfl
        (by simp [begin, put, withSink, note, Happening.call?]) ?_ ?_ ?_
      · rw [stands]
        exact .refl _
      · rw [stands]
        exact .refl _
      · rw [stands]
        exact fun _ shape => shape
  | @overflowed consumer _ _ _ sink message rest index _ _ stands =>
      exact owned.silent (by simp [stands]) rfl rfl (by simp [put, reported, Happening.call?])
        (List.nil_sublist _) (List.nil_sublist _) (by simp [Consumer.current?])
  | @failed consumer _ _ failedAt sink message rest index circuit stands =>
      exact owned.ends linked (by simp [stands, Consumer.current?]) rfl rfl
        (by simp [made, put, reported, Happening.call?]) (.inr ⟨failedAt, rfl⟩)
        (by rw [stands, Consumer.untouched_resume]; exact .refl _) (by simp)
  | @backoffOverflowed consumer _ _ failedAt sink message rest index circuit stands =>
      exact owned.ends linked (by simp [stands, Consumer.current?]) rfl rfl
        (by simp [made, put, reported, Happening.call?]) (.inr ⟨failedAt, rfl⟩)
        (List.nil_sublist _) rfl
  | acked stands | refused stands =>
      exact owned.ends linked (by simp [stands, Consumer.current?]) rfl rfl
        (by simp [made, put, Happening.call?]) (.inl rfl)
        (by rw [stands, Consumer.untouched_resume]; exact .refl _) (by simp)
  | @cancelled consumer unfinished =>
      have stood : system.at? consumer ≠ .stopped := Consumer.ne_stopped unfinished
      exact owned.silent stood rfl rfl rfl (List.nil_sublist _) (List.nil_sublist _)
        (by simp [Consumer.current?])
  | started =>
      exact owned.recruit rfl rfl rfl

theorem owned_run (setup : Setup) (moves : List Move) : Owned setup (run setup moves) := by
  have both := Machine.run_invariant (System.next setup)
    (fun system => Driven setup system ∧ Owned setup system) (fun _ => True)
    ⟨driven_create, owned_create⟩
    (fun _ move _ ⟨driven, owned⟩ =>
      ⟨driven.next move, owned.moved driven.linked (next_moved driven.linked move)⟩)
    moves fun _ _ => trivial
  exact both.2

/-! ### What follows a verb -/

/-- After a report no verb is ever called with the handle. -/
theorem Owned.after_report (owned : Owned setup system) {handle : String} {failedAt : ℚ}
    {before after : List (Option ℕ × QueueCall)} {caller : Option ℕ}
    (split : callsBy system.past = before ++ (caller, .fail handle failedAt) :: after) :
    ∀ call ∈ after.map Prod.snd, call.receiptHandle? ≠ some handle := by
  have shape := owned.shape handle
  rw [verbs, split, List.filter_append,
    List.filter_cons_of_pos (by simp [QueueCall.receiptHandle?])] at shape
  have none := shape.last (.inr ⟨failedAt, rfl⟩)
  intro call member
  obtain ⟨entry, listed, rfl⟩ := List.mem_map.mp member
  simpa using List.filter_eq_nil_iff.mp none entry listed

/-- After a heartbeat only its consumer calls a verb with the handle, to end the delivery. -/
theorem Owned.after_heartbeat (owned : Owned setup system) {handle : String} {seconds time : ℚ}
    {before after : List (Option ℕ × QueueCall)} {consumer : ℕ}
    (split : callsBy system.past =
      before ++ (some consumer, .changeVisibility handle seconds time) :: after) :
    ∀ entry ∈ after, entry.2.receiptHandle? = some handle → entry.1 = some consumer ∧
      (entry.2 = .delete handle ∨ ∃ failedAt, entry.2 = .fail handle failedAt) := by
  have shape := owned.shape handle
  rw [verbs, split, List.filter_append,
    List.filter_cons_of_pos (by simp [QueueCall.receiptHandle?])] at shape
  intro entry member verb
  have listed : entry ∈ after.filter fun entry => entry.2.receiptHandle? = some handle := by
    simp [member, verb]
  rcases shape.after_heartbeat with none | ⟨call, one, ends⟩
  · rw [none] at listed
    cases listed
  · rw [one, List.mem_singleton] at listed
    subst listed
    exact ⟨rfl, ends⟩

end System

end FeathrEvents
