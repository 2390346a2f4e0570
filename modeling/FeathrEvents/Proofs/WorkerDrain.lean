/-
Module: FeathrEvents.Proofs.WorkerDrain
Purpose: Nothing that happened can keep a worker from finishing: as long as one consumer lives, the stores
  answer again and nobody took the probe away, its own moves empty the queue.
Trusted boundary: none
Main exports: InMemoryEventQueue.receive_progress, Move.Calm, System.Undisturbed, System.Calmer,
  System.calmer_ready, System.calmer_resting, System.backlog_can_drain, System.Blocked,
  System.Blocked.forever
-/
import Mathlib.Data.Finset.Order
import FeathrEvents.Proofs.ApiMoves
import FeathrEvents.Proofs.QueueDeadLetters
import FeathrEvents.Proofs.WorkerProbe

namespace FeathrEvents

open Collections (OrderedDict)
open InMemoryEventQueue (Placed Linked placed_reached)

namespace InMemoryEventQueue

variable {host : Host} {settings : QueueSettings} {queue swept : InMemoryEventQueue}

/-! ### One receive -/

/-- The loop that lends takes at least one message when there is one and it may. -/
theorem lend_takes (linked : Linked host queue) (deadline : ℚ) {maxN : ℤ} (may : 1 ≤ maxN)
    (waits : queue.visible ≠ []) :
    (queue.lend host deadline maxN queue.visible 0).1.filterMap Popped.message? ≠ [] := by
  cases shape : queue.visible with
  | nil => exact absurd shape waits
  | cons messageId waiting =>
      obtain ⟨entry, -, -, lent, -⟩ := lendOne_place linked shape deadline
      have room : ((0 : ℕ) : ℤ) < maxN := by
        have : ((0 : ℕ) : ℤ) = 0 := rfl
        omega
      simp only [lend, if_pos room, lent, List.filterMap_cons, Popped.message?]
      exact List.cons_ne_nil _ _

/-- After a sweep that returned and found every loan due, whatever has an entry waits. -/
theorem waits_of_swept (linked : Linked host queue) {sweptAt : ℚ}
    (returned : queue.sweep host settings sweptAt = (.ok (), swept)) (placed : Placed swept)
    (due : ∀ messageId entry, queue.entries.get? messageId = some entry → entry.deadline ≤ sweptAt)
    {messageId : String} (listed : messageId ∈ swept.entries.keys) : messageId ∈ swept.visible := by
  obtain ⟨linkedSwept, -, -, fates⟩ := sweep_place settings linked sweptAt
  rw [returned] at linkedSwept fates
  rcases placed messageId listed with visible | lent
  · exact visible
  · exfalso
    obtain ⟨handle, live⟩ := OrderedDict.mem_values.mp lent
    obtain ⟨count, deadline, held⟩ := linkedSwept.inflight_iff.mp live
    rcases fates messageId with ⟨same, spared⟩ | ⟨-, entry, -, -, -, ended, -⟩
    · have before := same.symm.trans held
      obtain ⟨entry, stored, -, -, rfl⟩ := place_eq_held.mp before
      exact absurd (spared rfl _ _ _ before) (not_lt.mpr (due messageId entry stored))
    · dsimp only at held ended
      rw [held] at ended
      cases ended

/-- When every loan is due and every event can be serialised, a `receive` hands out a message, or leaves
no entry. -/
theorem receive_progress (settings : QueueSettings) (serialises : host.Serialises)
    (linked : Linked host queue) {maxN : ℤ} (may : 1 ≤ maxN) (visibilityTimeout : Option ℚ)
    {sweptAt : ℚ} (now : ℚ)
    (placed : Placed (queue.after host settings (.receive maxN visibilityTimeout sweptAt now)))
    (due : ∀ messageId entry, queue.entries.get? messageId = some entry → entry.deadline ≤ sweptAt) :
    ∃ messages, (queue.perform host settings (.receive maxN visibilityTimeout sweptAt now)).1 =
        .ok messages ∧
      (messages = [] →
        (queue.after host settings (.receive maxN visibilityTimeout sweptAt now)).entries.size = 0) := by
  obtain ⟨⟨messages, answer⟩, -⟩ :=
    receive_buries settings serialises linked maxN visibilityTimeout sweptAt now
  refine ⟨messages, answer, fun nothing => ?_⟩
  rcases receive_cases settings linked maxN visibilityTimeout sweptAt now with
    ⟨eventId, -, shape⟩ | ⟨swept, returned, shape⟩
  · simp [perform, shape] at answer
  · have linkedSwept := (sweep_place settings linked sweptAt).1
    simp only [returned] at linkedSwept
    simp only [perform, shape, Except.ok.injEq] at answer
    simp only [after, perform, shape] at placed ⊢
    have emptied : swept.visible = [] := by
      by_contra waits
      exact lend_takes linkedSwept _ may waits (answer.trans nothing)
    simp only [emptied, lend] at placed ⊢
    have absent : ∀ messageId, messageId ∉ swept.entries.keys := by
      intro messageId listed
      have waits := waits_of_swept linked returned placed due listed
      rw [emptied] at waits
      cases waits
    exact List.length_eq_zero_iff.mpr (List.map_eq_nil_iff.mp (List.eq_nil_iff_forall_not_mem.mpr absent))

/-- Whatever is not sent adds no entry. -/
theorem size_after_le {call : QueueCall} (silent : call.sent? = none) :
    (queue.after host settings call).entries.size ≤ queue.entries.size := by
  cases call with
  | send event => cases silent
  | receive maxN visibilityTimeout sweptAt now =>
      have swept : (queue.sweep host settings sweptAt).2.entries.size ≤ _ := size_sweep_le queue sweptAt
      simp only [after, perform, receive]
      generalize queue.sweep host settings sweptAt = turn at *
      obtain ⟨result, next⟩ := turn
      cases result with
      | error exn => exact swept
      | ok _ => simpa only [size_lend] using swept
  | delete handle =>
      simp only [after, perform, delete]
      split
      · exact Nat.le_refl _
      · exact OrderedDict.size_erase_le _ _
  | changeVisibility handle seconds now =>
      simp only [after, perform, changeVisibility]
      split
      · exact Nat.le_refl _
      · exact (size_setDeadline _ _).le
  | fail handle now =>
      simp only [after, perform, fail]
      split
      · exact Nat.le_refl _
      · split
        · exact Nat.le_refl _
        · split
          · exact Nat.le_refl _
          · exact (size_setDeadline _ _).le
  | clear => exact Nat.zero_le _

/-- Deleting a message by a live handle takes its entry away. -/
theorem size_delete_lt (settings : QueueSettings) (linked : Linked host queue) {handle : String}
    (live : queue.inflight.get? handle ≠ none) :
    (queue.after host settings (.delete handle)).entries.size < queue.entries.size := by
  obtain ⟨messageId, lent⟩ := Option.ne_none_iff_exists'.mp live
  obtain ⟨entry, stored, -⟩ := linked.inflightEntry handle messageId lent
  have fewer := (OrderedDict.values_perm_erase stored).length_eq
  simp only [OrderedDict.values, List.length_map, List.length_cons] at fewer
  simp only [after, perform, delete, lent, OrderedDict.size]
  exact Nat.lt_of_succ_le fewer.ge

/-- A heartbeat leaves the loans as they are. -/
theorem inflight_changeVisibility (host : Host) (settings : QueueSettings)
    (queue : InMemoryEventQueue)
    (handle : String) (seconds now : ℚ) :
    (queue.after host settings (.changeVisibility handle seconds now)).inflight = queue.inflight := by
  simp only [after, perform, changeVisibility, setDeadline]
  split
  · rfl
  · split <;> rfl

end InMemoryEventQueue

/-! ### Calm moves -/

/-- A move of a consumer or of a store in which nothing fails: a task goes on, a write lands or
returns, a delete is answered.  Sends, cancels and the lifecycle are left out. -/
def Move.Calm : Move → Prop
  | .turn _ fault .. => fault = none
  | .heartbeat .. | .land _ | .returned _ | .ack _ => True
  | .send _ | .raised .. | .cancel _ | .start | .stop | .drained _ => False

namespace System

variable {setup : Setup} {system later last : System} {consumer : ℕ} {message : Message}
  {rest : List Message}

/-- A calm move that leaves whoever runs to run on: one that the event loop can make. -/
def Undisturbed (system : System) (move : Move) : Prop :=
  move.Calm ∧ ∀ consumer < system.tasks.length, (system.at? consumer).runs = true →
    move.during consumer = true

theorem Unbroken.goes_on {moves more : List Move} (unbroken : Unbroken setup moves)
    (quiet : ∀ visit ∈ Machine.visits (System.next setup) (run setup moves) more,
      Undisturbed visit.1 visit.2) : Unbroken setup (moves ++ more) := by
  intro visit member
  rw [Machine.visits_append] at member
  rcases List.mem_append.mp member with early | late
  · exact unbroken visit early
  · exact (quiet visit late).2

/-- Some schedule of the event loop that leaves the probe to its consumer leads to the state. -/
def Ran (setup : Setup) (system : System) : Prop :=
  ∃ moves, Unbroken setup moves ∧ (∀ visit ∈ Machine.visits (System.next setup) System.create moves,
    SparesProbe visit.1 visit.2) ∧ run setup moves = system

theorem Undisturbed.spares {move : Move} (undisturbed : Undisturbed system move) :
    SparesProbe system move := by
  cases move with
  | cancel other => exact undisturbed.1.elim
  | _ => trivial

theorem Ran.leads (ran : Ran setup system)
    (leads : Machine.Leads (System.next setup) Undisturbed system later) : Ran setup later := by
  obtain ⟨moves, unbroken, spared, rfl⟩ := ran
  obtain ⟨more, quiet, rfl⟩ := leads
  refine ⟨moves ++ more, unbroken.goes_on quiet, fun visit member => ?_, Machine.run_append ..⟩
  rw [Machine.visits_append] at member
  rcases List.mem_append.mp member with early | late
  · exact spared visit early
  · exact (quiet visit late).spares

theorem Ran.linked (ran : Ran setup system) : Linked setup.host system.queue := by
  obtain ⟨moves, -, -, rfl⟩ := ran
  exact (driven_run setup moves).linked

/-- Nobody else runs, so the consumer may make its moves one after the other. -/
def Alone (system : System) (consumer : ℕ) : Prop :=
  ∀ other, other ≠ consumer → (system.at? other).runs = false

theorem Alone.undisturbed (alone : Alone system consumer) {move : Move} (calm : move.Calm)
    (mine : move.during consumer = true) : Undisturbed system move := by
  refine ⟨calm, fun other _ running => ?_⟩
  by_cases same : other = consumer
  · rw [same]
    exact mine
  · rw [alone other same] at running
    cases running

theorem Alone.of_tasks (alone : Alone system consumer) (stood : system.at? consumer ≠ .stopped)
    {standing : Consumer} (tasks : later.tasks = system.tasks.set consumer standing) :
    Alone later consumer := by
  intro other apart
  rw [at?_of_tasks tasks stood, if_neg apart]
  exact alone other apart

/-- Calm moves of one consumer lead to a state in which the others stand where they stood, no message was
added, and the circuit is as it was or closed. -/
structure Calmer (setup : Setup) (consumer : ℕ) (system later : System) : Prop where
  leads : Machine.Leads (System.next setup) Undisturbed system later
  others : ∀ other, other ≠ consumer → later.at? other = system.at? other
  stopping : later.stopping = system.stopping
  size : later.queue.entries.size ≤ system.queue.entries.size
  sink : later.sink = system.sink ∨ later.sink.openUntil = none

theorem Calmer.refl (setup : Setup) (consumer : ℕ) (system : System) :
    Calmer setup consumer system system where
  leads := .refl system
  others _ _ := rfl
  stopping := rfl
  size := Nat.le_refl _
  sink := .inl rfl

theorem Calmer.trans (first : Calmer setup consumer system later)
    (second : Calmer setup consumer later last) : Calmer setup consumer system last where
  leads := first.leads.trans second.leads
  others other apart := (second.others other apart).trans (first.others other apart)
  stopping := second.stopping.trans first.stopping
  size := second.size.trans first.size
  sink := by
    rcases second.sink with same | closed
    · rw [same]
      exact first.sink
    · exact .inr closed

theorem Calmer.alone (calmer : Calmer setup consumer system later) (alone : Alone system consumer) :
    Alone later consumer := by
  intro other apart
  rw [calmer.others other apart]
  exact alone other apart

/-- A calm move of the consumer itself, which leaves the others alone. -/
theorem Calmer.single {move : Move} {standing : Consumer} (alone : Alone system consumer)
    (taken : system.next setup move = later) (calm : move.Calm) (mine : move.during consumer = true)
    (stood : system.at? consumer ≠ .stopped)
    (tasks : later.tasks = system.tasks.set consumer standing)
    (stopping : later.stopping = system.stopping)
    (size : later.queue.entries.size ≤ system.queue.entries.size)
    (sink : later.sink = system.sink ∨ later.sink.openUntil = none) :
    Calmer setup consumer system later ∧ later.at? consumer = standing := by
  refine ⟨⟨taken ▸ .single (alone.undisturbed calm mine), fun other apart => ?_, stopping, size, sink⟩,
    ?_⟩
  · rw [at?_of_tasks tasks stood, if_neg apart]
  · rw [at?_of_tasks tasks stood, if_pos rfl]

theorem Consumer.resume_ne_batch_nil (rest : List Message) : Consumer.resume rest ≠ .batch [] := by
  cases rest <;> simp [Consumer.resume]

theorem Moved.batch_ne_nil {move : Move} (moved : Moved setup system move later)
    (full : ∀ consumer, system.at? consumer ≠ .batch []) : ∀ consumer, later.at? consumer ≠ .batch [] := by
  intro other
  have moves : ∀ {mover : ℕ} {standing : Consumer}, system.at? mover ≠ .stopped →
      later.tasks = system.tasks.set mover standing → standing ≠ .batch [] →
      later.at? other ≠ .batch [] := by
    intro mover standing stood tasks fresh
    rcases same_or_of_tasks (fun _ standing => standing ≠ .batch []) stood tasks fresh other with
      same | fresh
    · rw [same]
      exact full other
    · exact fresh
  have starts : ∀ {count : ℕ}, later.tasks = system.tasks ++ List.replicate count .ready →
      later.at? other ≠ .batch [] := by
    intro count tasks
    rcases at?_of_started tasks other with same | ⟨-, ready⟩
    · rw [same]
      exact full other
    · simp [ready]
  cases moved with
  | idle | sent | waited | faulted | found | stopCalled | drained => exact full other
  | @landed _ write =>
      obtain ⟨sink, event, landed⟩ := write
      cases sink <;> exact full other
  | quit stands => exact moves (by simp [stands]) rfl (by simp)
  | @fetched _ _ _ _ _ _ _ messages stands _ _ _ _ handed =>
      exact moves (by simp [stands]) rfl (by simpa using handed)
  | beat stands | stored stands => exact moves (by simp [stands]) rfl (by simp)
  | stale stands | acked stands | refused stands | failed stands =>
      exact moves (by simp [stands]) rfl (Consumer.resume_ne_batch_nil _)
  | indexed stands => exact moves (by simp [stands]) rfl (by simp)
  | overflowed stands | backoffOverflowed stands => exact moves (by simp [stands]) rfl (by simp)
  | cancelled unfinished => exact moves (Consumer.ne_stopped unfinished) rfl (by simp)
  | started => exact starts rfl

theorem Ran.batch_ne_nil (ran : Ran setup system) (consumer : ℕ) :
    system.at? consumer ≠ .batch [] := by
  obtain ⟨moves, -, -, rfl⟩ := ran
  induction moves using List.reverseRecOn generalizing consumer with
  | nil => simp [System.create, at?]
  | append_singleton moves move ih =>
      rw [run_snoc]
      exact (next_moved (driven_run setup moves).linked move).batch_ne_nil ih consumer

/-! ### One message -/

theorem calmer_ack (ran : Ran setup system) (alone : Alone system consumer)
    (stands : system.at? consumer = .acking message rest) :
    ∃ later, Calmer setup consumer system later ∧ later.at? consumer = .resume rest ∧
      (system.queue.inflight.get? message.receiptHandle ≠ none →
        later.queue.entries.size < system.queue.entries.size) := by
  have linked := ran.linked
  have stood : system.at? consumer ≠ .stopped := by simp [stands]
  have taken : system.next setup (.ack consumer) = system.ack setup consumer message rest := by
    simp only [next, step, stands, Option.getD_some]
  have verb : (QueueCall.delete message.receiptHandle).receiptHandle? =
      some message.receiptHandle := rfl
  have size : (system.queue.after setup.host setup.queue (.delete message.receiptHandle)).entries.size ≤
      system.queue.entries.size := InMemoryEventQueue.size_after_le rfl
  rcases verb_result linked verb with ⟨dead, text, raised⟩ | ⟨live, returned | ⟨⟨time, shape⟩, -⟩⟩
  · simp only [ack, call_eq, raised] at taken
    obtain ⟨calmer, resumed⟩ := Calmer.single alone taken trivial (decide_eq_true rfl) stood rfl rfl size
      (.inl rfl)
    exact ⟨_, calmer, resumed, fun live => absurd dead live⟩
  · simp only [ack, call_eq, returned] at taken
    obtain ⟨calmer, resumed⟩ := Calmer.single alone taken trivial (decide_eq_true rfl) stood rfl rfl size
      (.inl rfl)
    exact ⟨_, calmer, resumed, fun live => InMemoryEventQueue.size_delete_lt setup.queue linked live⟩
  · cases shape

/-- A store takes what it was sent. -/
theorem calmer_land (ran : Ran setup system) (alone : Alone system consumer) {sink : Sink}
    {index : ℕ} (stands : system.at? consumer = .writing sink message rest index) :
    ∃ later, Calmer setup consumer system later ∧
      later.at? consumer = .writing sink message rest index ∧
      later.queue = system.queue ∧ (later.writes[index]?).any Write.landed := by
  obtain ⟨moves, -, -, rfl⟩ := ran
  obtain ⟨landed, sent⟩ := (stored_run setup moves).awaited consumer index sink message.event
    (by rw [stands]; rfl)
  generalize run setup moves = system at *
  obtain ⟨inside, -⟩ := List.getElem?_eq_some_iff.mp sent
  cases landed with
  | true => exact ⟨system, .refl setup consumer system, stands, rfl, by simp [sent]⟩
  | false =>
      have leads : Machine.Leads (System.next setup) Undisturbed system
          (system.next setup (.land index)) := .single (alone.undisturbed trivial rfl)
      simp only [next, step, sent, Option.getD_some, Bool.false_eq_true, if_false] at leads
      cases sink with
      | mongodb =>
          exact ⟨_, ⟨leads, fun _ _ => rfl, rfl, Nat.le_refl _, .inl rfl⟩, stands, rfl, by simp [inside]⟩
      | elasticsearch =>
          exact ⟨_, ⟨leads, fun _ _ => rfl, rfl, Nat.le_refl _, .inl rfl⟩, stands, rfl, by simp [inside]⟩

/-- A store that took what it was sent returns. -/
theorem calmer_return (alone : Alone system consumer) {sink : Sink} {index : ℕ}
    (stands : system.at? consumer = .writing sink message rest index)
    (landed : (system.writes[index]?).any Write.landed) :
    ∃ later, Calmer setup consumer system later ∧ later.queue = system.queue ∧
      ((sink = .mongodb ∧ ∃ write, later.at? consumer = .writing .elasticsearch message rest write) ∨
        (sink = .elasticsearch ∧ later.at? consumer = .acking message rest ∧
          later.sink.openUntil = none)) := by
  have stood : system.at? consumer ≠ .stopped := by simp [stands]
  have taken : system.next setup (.returned consumer) =
      system.afterWrite consumer sink message rest := by
    simp only [next, step, stands, landed, if_true, Option.getD_some]
  cases sink with
  | mongodb =>
      obtain ⟨calmer, writes⟩ := Calmer.single alone taken trivial (decide_eq_true rfl) stood rfl rfl
        (Nat.le_refl _) (.inl rfl)
      exact ⟨_, calmer, rfl, .inl ⟨rfl, _, writes⟩⟩
  | elasticsearch =>
      obtain ⟨calmer, acking⟩ := Calmer.single alone taken trivial (decide_eq_true rfl) stood rfl rfl
        (Nat.le_refl _) (.inr rfl)
      exact ⟨_, calmer, rfl, .inr ⟨rfl, acking, rfl⟩⟩

/-- Stores that answer let a consumer write to both, which closes the circuit. -/
theorem calmer_write (ran : Ran setup system) (alone : Alone system consumer) {sink : Sink}
    {index : ℕ} (stands : system.at? consumer = .writing sink message rest index) :
    ∃ later, Calmer setup consumer system later ∧ later.queue = system.queue ∧
      later.at? consumer = .acking message rest ∧ later.sink.openUntil = none := by
  have last : ∀ {system index}, Ran setup system → Alone system consumer →
      system.at? consumer = .writing .elasticsearch message rest index →
      ∃ later, Calmer setup consumer system later ∧ later.queue = system.queue ∧
        later.at? consumer = .acking message rest ∧ later.sink.openUntil = none := by
    intro system index ran alone stands
    obtain ⟨written, calmer, still, same, landed⟩ := calmer_land ran alone stands
    obtain ⟨later, returned, queue, ⟨other, -⟩ | ⟨-, acking, closed⟩⟩ :=
      calmer_return (calmer.alone alone) still landed
    · cases other
    · exact ⟨later, calmer.trans returned, queue.trans same, acking, closed⟩
  cases sink with
  | elasticsearch => exact last ran alone stands
  | mongodb =>
      obtain ⟨written, calmer, still, same, landed⟩ := calmer_land ran alone stands
      obtain ⟨stored, returned, queue, ⟨-, write, writes⟩ | ⟨other, -⟩⟩ :=
        calmer_return (calmer.alone alone) still landed
      · have calm := calmer.trans returned
        obtain ⟨later, further, kept, acking, closed⟩ :=
          last (ran.leads calm.leads) (calm.alone alone) writes
        exact ⟨later, calm.trans further, kept.trans (queue.trans same), acking, closed⟩
      · cases other

/-- A consumer claims the next message of its batch, or finds that its handle is stale. -/
theorem calmer_heartbeat (ran : Ran setup system) (alone : Alone system consumer)
    (stands : system.at? consumer = .batch (message :: rest)) :
    ∃ later, Calmer setup consumer system later ∧
      ((system.queue.inflight.get? message.receiptHandle = none ∧ later.at? consumer = .resume rest) ∨
        (later.queue.inflight.get? message.receiptHandle ≠ none ∧
          ∃ write, later.at? consumer = .writing .mongodb message rest write)) := by
  have linked := ran.linked
  have stood : system.at? consumer ≠ .stopped := by simp [stands]
  have size : (system.queue.after setup.host setup.queue (.changeVisibility message.receiptHandle
      setup.worker.visibilityTimeout system.now)).entries.size ≤ system.queue.entries.size :=
    InMemoryEventQueue.size_after_le rfl
  rcases next_heartbeat linked stands (le_refl system.now) with ⟨dead, taken⟩ | ⟨live, taken⟩
  · obtain ⟨calmer, resumed⟩ := Calmer.single alone taken trivial (decide_eq_true rfl) stood rfl rfl size
      (.inl rfl)
    exact ⟨_, calmer, .inl ⟨dead, resumed⟩⟩
  · obtain ⟨calmer, writes⟩ := Calmer.single alone taken trivial (decide_eq_true rfl) stood rfl rfl size
      (.inl rfl)
    refine ⟨_, calmer, .inr ⟨?_, _, writes⟩⟩
    have loans := InMemoryEventQueue.inflight_changeVisibility setup.host setup.queue system.queue
      message.receiptHandle setup.worker.visibilityTimeout system.now
    exact loans.symm ▸ live

/-- A consumer finishes the next message of its batch: a live one leaves the queue, and closes the
circuit. -/
theorem calmer_handle (ran : Ran setup system) (alone : Alone system consumer)
    (stands : system.at? consumer = .batch (message :: rest)) :
    ∃ later, Calmer setup consumer system later ∧ later.at? consumer = .resume rest ∧
      (system.queue.inflight.get? message.receiptHandle ≠ none →
        later.queue.entries.size < system.queue.entries.size ∧ later.sink.openUntil = none) := by
  obtain ⟨claimed, calmer, ⟨dead, resumed⟩ | ⟨live, write, writes⟩⟩ := calmer_heartbeat ran alone stands
  · exact ⟨claimed, calmer, resumed, fun live => absurd dead live⟩
  · have ranClaimed := ran.leads calmer.leads
    obtain ⟨written, wrote, same, acking, closed⟩ :=
      calmer_write ranClaimed (calmer.alone alone) writes
    have both := calmer.trans wrote
    obtain ⟨later, acked, resumed, fewer⟩ :=
      calmer_ack (ran.leads both.leads) (both.alone alone) acking
    refine ⟨later, both.trans acked, resumed, fun _ => ⟨?_, ?_⟩⟩
    · exact (fewer (same.symm ▸ live)).trans_le both.size
    · rcases acked.sink with kept | shut
      · rw [kept]
        exact closed
      · exact shut

/-- A consumer finishes its batch. -/
theorem calmer_batch (ran : Ran setup system) (alone : Alone system consumer)
    {messages : List Message} (stands : system.at? consumer = .resume messages) :
    ∃ later, Calmer setup consumer system later ∧ later.at? consumer = .ready := by
  induction messages generalizing system with
  | nil => exact ⟨system, .refl setup consumer system, stands⟩
  | cons message rest ih =>
      obtain ⟨handled, calmer, resumed, -⟩ := calmer_handle ran alone stands
      obtain ⟨later, finished, ready⟩ := ih (ran.leads calmer.leads) (calmer.alone alone) resumed
      exact ⟨later, calmer.trans finished, ready⟩

/-- A consumer that is not over comes back for more. -/
theorem calmer_ready (ran : Ran setup system) (alone : Alone system consumer)
    (alive : (system.at? consumer).done = false) :
    ∃ later, Calmer setup consumer system later ∧ later.at? consumer = .ready := by
  have acks : ∀ {system message rest}, Ran setup system → Alone system consumer →
      system.at? consumer = .acking message rest →
      ∃ later, Calmer setup consumer system later ∧ later.at? consumer = .ready := by
    intro system message rest ran alone stands
    obtain ⟨acked, calmer, resumed, -⟩ := calmer_ack ran alone stands
    obtain ⟨later, finished, ready⟩ :=
      calmer_batch (ran.leads calmer.leads) (calmer.alone alone) resumed
    exact ⟨later, calmer.trans finished, ready⟩
  cases stands : system.at? consumer with
  | ready => exact ⟨system, .refl setup consumer system, stands⟩
  | batch messages =>
      cases messages with
      | nil => exact absurd stands (ran.batch_ne_nil consumer)
      | cons message rest =>
          -- a batch is what is left to do, from its first message on
          have left : system.at? consumer = .resume (message :: rest) := stands
          exact calmer_batch ran alone left
  | acking message rest => exact acks ran alone stands
  | writing sink message rest write =>
      obtain ⟨written, calmer, -, acking, -⟩ := calmer_write ran alone stands
      obtain ⟨later, finished, ready⟩ :=
        acks (ran.leads calmer.leads) (calmer.alone alone) acking
      exact ⟨later, calmer.trans finished, ready⟩
  | stopped | cancelled | died => simp [stands, Consumer.done] at alive

/-- Nobody runs: every task is over, or waits for its next turn or for a store.  From here any
consumer may be the next to move. -/
def Resting (system : System) : Prop := ∀ consumer, (system.at? consumer).runs = false

theorem Resting.alone (resting : Resting system) (consumer : ℕ) : Alone system consumer :=
  fun other _ => resting other

/-- Whoever runs finishes its batch, and then nobody runs. -/
theorem calmer_resting (ran : Ran setup system) :
    ∃ runner later, Calmer setup runner system later ∧ Resting later ∧
      ∀ other, (system.at? other).done = false → (later.at? other).done = false := by
  by_cases busy : ∃ runner, (system.at? runner).runs = true
  · obtain ⟨runner, running⟩ := busy
    have alone : Alone system runner := by
      obtain ⟨moves, unbroken, -, rfl⟩ := ran
      intro other apart
      by_contra also
      exact apart (unbroken.one_runs (Bool.eq_true_of_not_eq_false also) running)
    have alive : (system.at? runner).done = false := by
      cases stands : system.at? runner <;> simp_all [Consumer.runs, Consumer.done]
    obtain ⟨later, calmer, ready⟩ := calmer_ready ran alone alive
    refine ⟨runner, later, calmer, fun other => ?_, fun other unfinished => ?_⟩
    · by_cases same : other = runner
      · rw [same, ready]
        rfl
      · exact calmer.alone alone other same
    · by_cases same : other = runner
      · rw [same, ready]
        rfl
      · rw [calmer.others other same]
        exact unfinished
  · have resting : Resting system := fun other =>
      Bool.eq_false_of_not_eq_true fun running => busy ⟨other, running⟩
    exact ⟨0, system, .refl setup 0 system, resting, fun _ unfinished => unfinished⟩

/-! ### One batch after the other -/

/-- A consumer that comes back for more would be given a message. -/
def Pulls (system : System) : Prop := system.sink.openUntil = none ∨ system.sink.probing = false

theorem Pulls.allowance (pulls : Pulls system) {batchSize : ℤ} (batches : 1 ≤ batchSize) {late : ℚ}
    (elapsed : ∀ openUntil, system.sink.openUntil = some openUntil → openUntil ≤ late) :
    1 ≤ (system.sink.allowance batchSize late).1 := by
  unfold SinkCircuit.allowance
  cases shape : system.sink.openUntil with
  | none => exact batches
  | some openUntil =>
      have lowered : system.sink.probing = false := pulls.resolve_left (by simp [shape])
      simp [lowered, not_lt.mpr (elapsed openUntil shape)]

/-- Where events can be serialised, whatever the queue is asked next leaves every entry in its place. -/
theorem Ran.placed (ran : Ran setup system) (serialises : setup.host.Serialises)
    (call : QueueCall) :
    Placed (system.queue.after setup.host setup.queue call) := by
  obtain ⟨moves, -, -, rfl⟩ := ran
  rw [(driven_run setup moves).queue, ← InMemoryEventQueue.reached_snoc]
  exact placed_reached serialises _

/-- A moment past the clock, past the pause and past every loan. -/
theorem exists_late (system : System) : ∃ late, system.now ≤ late ∧
    (∀ openUntil, system.sink.openUntil = some openUntil → openUntil ≤ late) ∧
    ∀ messageId entry, system.queue.entries.get? messageId = some entry → entry.deadline ≤ late := by
  obtain ⟨late, above⟩ := (system.now :: (system.sink.openUntil.toList ++
    system.queue.entries.values.map Entry.deadline)).toFinset.exists_le
  simp only [List.mem_toFinset, List.mem_cons, List.mem_append, Option.mem_toList] at above
  refine ⟨late, above _ (.inl rfl), fun openUntil opened => above _ (.inr (.inl opened)), ?_⟩
  intro messageId entry stored
  exact above _ (.inr (.inr (List.mem_map_of_mem (OrderedDict.mem_values.mpr ⟨_, stored⟩))))

/-- A consumer that may pull takes a message out of the queue, or finds it empty. -/
theorem leads_pull (serialises : setup.host.Serialises) (batches : 1 ≤ setup.worker.batchSize)
    (ran : Ran setup system) (alone : Alone system consumer) (working : system.stopping = false)
    (stands : system.at? consumer = .ready) (pulls : Pulls system) :
    ∃ later, Machine.Leads (System.next setup) Undisturbed system later ∧ later.stopping = false ∧
      (later.queue.entries.size = 0 ∨ (later.at? consumer = .ready ∧ Alone later consumer ∧
        Pulls later ∧ later.queue.entries.size < system.queue.entries.size)) := by
  obtain ⟨late, ahead, elapsed, due⟩ := exists_late system
  have linked := ran.linked
  have stood : system.at? consumer ≠ .stopped := by simp [stands]
  have leads : Machine.Leads (System.next setup) Undisturbed system
      (system.next setup (.turn consumer none late late late)) :=
    .single (alone.undisturbed rfl (decide_eq_true rfl))
  have ranLater := ran.leads leads
  have taken : system.next setup (.turn consumer none late late late) =
      system.turn setup consumer none late late late := by
    simp [next, step, stands, working, ahead]
  rw [taken] at leads ranLater
  have may := pulls.allowance batches elapsed
  generalize asked : system.sink.allowance setup.worker.batchSize late = pulled at may
  obtain ⟨allowance, circuit⟩ := pulled
  have granted : allowance ≠ 0 := by
    rintro rfl
    exact absurd may (by simp)
  obtain ⟨messages, answer, emptied⟩ := InMemoryEventQueue.receive_progress setup.queue serialises linked
    may none late (ran.placed serialises (.receive allowance none late late)) due
  have same : ((system.withSink circuit).tick late).queue = system.queue := rfl
  cases messages with
  | nil =>
      simp only [turn, asked, if_neg granted, call_eq, same, answer] at leads
      exact ⟨_, leads, working, .inl (emptied rfl)⟩
  | cons message rest =>
      simp only [turn, asked, if_neg granted, call_eq, same, answer] at leads ranLater
      obtain ⟨-, messageId, entry, live, -⟩ :=
        (InMemoryEventQueue.receive_handles linked answer).2 message (List.mem_cons_self ..)
      have fewer : (system.queue.after setup.host setup.queue
          (.receive allowance none late late)).entries.size ≤ system.queue.entries.size :=
        InMemoryEventQueue.size_after_le rfl
      obtain ⟨handled, calmer, resumed, finished⟩ :=
        calmer_handle ranLater (alone.of_tasks stood rfl) (by rw [at?_of_tasks rfl stood, if_pos rfl])
      have aloneHandled := calmer.alone (alone.of_tasks stood rfl)
      obtain ⟨smaller, closed⟩ := finished (Option.ne_none_iff_exists'.mpr ⟨messageId, live⟩)
      obtain ⟨later, rested, ready⟩ :=
        calmer_batch (ranLater.leads calmer.leads) aloneHandled resumed
      refine ⟨later, (leads.trans calmer.leads).trans rested.leads, ?_,
        .inr ⟨ready, rested.alone aloneHandled, ?_, ?_⟩⟩
      · exact (rested.stopping.trans calmer.stopping).trans working
      · exact .inl (rested.sink.elim (fun kept => kept ▸ closed) id)
      · exact rested.size.trans_lt (smaller.trans_le fewer)

theorem leads_empty (serialises : setup.host.Serialises) (batches : 1 ≤ setup.worker.batchSize)
    (ran : Ran setup system) (alone : Alone system consumer) (working : system.stopping = false)
    (stands : system.at? consumer = .ready) (pulls : Pulls system) :
    ∃ last, Machine.Leads (System.next setup) Undisturbed system last ∧
      last.queue.entries.size = 0 := by
  have progress : ∀ state : System,
      (Ran setup state ∧ state.stopping = false ∧ state.at? consumer = .ready ∧
        Alone state consumer ∧ Pulls state) →
      ∃ later, Machine.Leads (System.next setup) Undisturbed state later ∧
        (later.queue.entries.size = 0 ∨ ((Ran setup later ∧ later.stopping = false ∧
          later.at? consumer = .ready ∧ Alone later consumer ∧ Pulls later) ∧
          later.queue.entries.size < state.queue.entries.size)) := by
    rintro state ⟨ran, working, stands, alone, pulls⟩
    obtain ⟨later, leads, still, emptied | ⟨again, apart, may, smaller⟩⟩ :=
      leads_pull serialises batches ran alone working stands pulls
    · exact ⟨later, leads, .inl emptied⟩
    · exact ⟨later, leads, .inr ⟨⟨ran.leads leads, still, again, apart, may⟩, smaller⟩⟩
  exact Machine.leads_of_measure (fun state : System => state.queue.entries.size) progress
    ⟨ran, working, stands, alone, pulls⟩

/-- Where nobody runs, some living consumer comes back for more, and would then be given a message. -/
theorem calmer_pulls (ran : Ran setup system) (resting : Resting system)
    (alive : (system.at? consumer).done = false) :
    ∃ puller later, Calmer setup puller system later ∧ later.at? puller = .ready ∧ Pulls later := by
  cases probing : system.sink.probing with
  | false =>
      obtain ⟨later, calmer, ready⟩ := calmer_ready ran (resting.alone consumer) alive
      refine ⟨consumer, later, calmer, ready, calmer.sink.elim (fun same => .inr ?_) .inl⟩
      rw [same, probing]
  | true =>
      -- the one that has the probe waits for a store, and its success closes the circuit
      obtain ⟨prober, message, sink, write, writes⟩ : ∃ prober message sink write,
          system.at? prober = .writing sink message [] write := by
        obtain ⟨moves, unbroken, spared, rfl⟩ := ran
        obtain ⟨prober, probes⟩ := held_of_spared setup unbroken spared probing
        obtain ⟨message, -, claims | ⟨sink, write, writes⟩⟩ := (probed_run setup moves).stands probes
        · have idle := resting prober
          rw [claims] at idle
          cases idle
        · exact ⟨prober, message, sink, write, writes⟩
      have alone := resting.alone prober
      obtain ⟨written, calmer, -, acking, closed⟩ := calmer_write ran alone writes
      obtain ⟨later, acked, ready, -⟩ :=
        calmer_ack (ran.leads calmer.leads) (calmer.alone alone) acking
      exact ⟨prober, later, calmer.trans acked, ready,
        .inl (acked.sink.elim (fun kept => kept ▸ closed) id)⟩

theorem acceptedEvents_grow (setup : Setup) (moves more : List Move) :
    acceptedEvents setup (run setup moves).past ⊆ acceptedEvents setup (run setup (moves ++ more)).past := by
  induction more using List.reverseRecOn with
  | nil => simp
  | append_singleton more move ih =>
      rw [← List.append_assoc, run_snoc]
      exact List.Subset.trans ih (accepted_grows (driven_run setup (moves ++ more)) move)

/-- Nothing that happened keeps a worker from finishing, when events can be serialised: after every run in
which nobody cancelled the consumer that had the probe, if the worker is not told to stop and one consumer
lives, some moves of consumers and stores in which nothing fails, and which the event loop can make next,
leave no message in the queue, and every event that was accepted in both stores or in the log of the
dead-letter queue. -/
theorem backlog_can_drain (setup : Setup) (serialises : setup.host.Serialises)
    (batches : 1 ≤ setup.worker.batchSize) (moves : List Move) (unbroken : Unbroken setup moves)
    (spared : ∀ visit ∈ Machine.visits (System.next setup) System.create moves,
      SparesProbe visit.1 visit.2) (working : (run setup moves).stopping = false) {consumer : ℕ}
    (alive : ((run setup moves).at? consumer).done = false) :
    ∃ more, (∀ move ∈ more, move.Calm) ∧ Unbroken setup (moves ++ more) ∧
      (run setup (moves ++ more)).queue.pendingEvents = [] ∧
      ∀ event ∈ acceptedEvents setup (run setup moves).past,
        InMemoryEventQueue.DeadLetteredInLog setup.host (run setup (moves ++ more)).queue event ∨
          ∀ sink, InStore setup (run setup (moves ++ more)) sink event := by
  have ran : Ran setup (run setup moves) := ⟨moves, unbroken, spared, rfl⟩
  obtain ⟨runner, rested, settles, resting, living⟩ := calmer_resting ran
  have ranRested := ran.leads settles.leads
  obtain ⟨puller, calm, calmer, ready, pulls⟩ := calmer_pulls ranRested resting (living consumer alive)
  obtain ⟨last, drains, emptied⟩ := leads_empty serialises batches (ranRested.leads calmer.leads)
    (calmer.alone (resting.alone puller)) (calmer.stopping.trans (settles.stopping.trans working))
    ready pulls
  obtain ⟨more, quiet, reached⟩ := (settles.leads.trans calmer.leads).trans drains
  have whole : run setup (moves ++ more) = last := (Machine.run_append ..).trans reached
  have pending : (run setup (moves ++ more)).queue.pendingEvents = [] := by
    rw [whole]
    exact List.map_eq_nil_iff.mpr (List.map_eq_nil_iff.mpr (List.length_eq_zero_iff.mp emptied))
  refine ⟨more, fun move member => ?_, unbroken.goes_on quiet, pending, fun event listed => ?_⟩
  · obtain ⟨state, visited⟩ := Machine.exists_visit (System.next setup) (run setup moves) member
    exact (quiet _ visited).1
  · have fate := fate_of_accepted setup serialises (moves ++ more)
      (acceptedEvents_grow setup moves more listed)
    rw [pending] at fate
    exact fate.resolve_left List.not_mem_nil

/-- A probe hangs in a store, and its message is the backlog. -/
theorem the_hanging_probe_can_drain : ∃ more, (∀ move ∈ more, move.Calm) ∧
    Unbroken oneFailureSetup (hangingProbe ++ more) ∧
    (run oneFailureSetup (hangingProbe ++ more)).queue.pendingEvents = [] := by
  obtain ⟨more, calm, unbroken, emptied, -⟩ := backlog_can_drain oneFailureSetup (fun _ => rfl)
    (by decide) hangingProbe (by decide +kernel) (fun visit member => by
      obtain ⟨first, second, shape, -⟩ := Machine.mem_visits_split _ member
      have taken : visit.2 ∈ hangingProbe := by simp [shape]
      simp only [hangingProbe, oneFailure, List.cons_append, List.nil_append, List.mem_cons,
        List.not_mem_nil, or_false] at taken
      rcases taken with same | same | same | same | same | same | same <;> simp [same, SparesProbe])
    (by decide +kernel) (show ((run oneFailureSetup hangingProbe).at? 0).done = false by decide +kernel)
  exact ⟨more, calm, unbroken, emptied⟩

/-! ### A lost probe -/

/-- Nobody has work, the circuit is open and its flag is up.  Nobody is given a message in this
state, so no report can end it. -/
structure Blocked (system : System) : Prop where
  idle : ∀ consumer, system.at? consumer = .ready ∨ (system.at? consumer).done = true
  opened : system.sink.openUntil ≠ none
  raised : system.sink.probing = true

/-- No calm move gets a blocked worker to take a message. -/
theorem Blocked.next (blocked : Blocked system) {move : Move} (calm : move.Calm)
    (linked : Linked setup.host system.queue) :
    Blocked (system.next setup move) ∧ (system.next setup move).queue = system.queue := by
  have moved := next_moved linked move
  generalize system.next setup move = later at moved
  have refused : ∀ {askedAt allowance circuit},
      system.sink.allowance setup.worker.batchSize askedAt = (allowance, circuit) → allowance = 0 := by
    intro askedAt allowance circuit asked
    rcases allowance_cases setup.worker.batchSize askedAt system.sink with
      ⟨closed, -⟩ | ⟨_, -, -, lowered, -⟩ | ⟨-, shape⟩
    · exact absurd closed blocked.opened
    · rw [blocked.raised] at lowered
      cases lowered
    · exact congrArg Prod.fst (asked.symm.trans shape)
  have working : ∀ {consumer standing}, system.at? consumer = standing → standing ≠ .ready →
      standing.done = false → False := by
    rintro consumer standing rfl busy unfinished
    rcases blocked.idle consumer with ready | done
    · exact busy ready
    · rw [done] at unfinished
      cases unfinished
  cases moved with
  | idle => exact ⟨blocked, rfl⟩
  | quit stands =>
      refine ⟨⟨fun other => ?_, blocked.opened, blocked.raised⟩, rfl⟩
      rw [at?_of_tasks rfl (by simp [stands])]
      split
      · exact .inr rfl
      · exact blocked.idle other
  | waited => exact ⟨⟨blocked.idle, blocked.opened, blocked.raised⟩, rfl⟩
  | faulted _ _ granted => exact absurd (refused rfl) granted
  | found _ _ asked granted => exact absurd (refused asked) granted
  | fetched _ _ asked granted => exact absurd (refused asked) granted
  | @landed _ write =>
      obtain ⟨sink, event, landed⟩ := write
      cases sink <;> exact ⟨⟨blocked.idle, blocked.opened, blocked.raised⟩, rfl⟩
  | beat stands | stale stands | stored stands | indexed stands | acked stands | refused stands =>
      exact (working stands (by simp) rfl).elim
  | sent | overflowed | failed | backoffOverflowed | cancelled | started | stopCalled | drained =>
      exact calm.elim

/-- A worker whose probe was lost leaves its queue as it is, however well everything goes. -/
theorem Blocked.forever {moves : List Move} (blocked : Blocked (run setup moves)) {more : List Move}
    (calm : ∀ move ∈ more, move.Calm) :
    Blocked (run setup (moves ++ more)) ∧
      (run setup (moves ++ more)).queue = (run setup moves).queue := by
  induction more using List.reverseRecOn with
  | nil =>
      rw [List.append_nil]
      exact ⟨blocked, rfl⟩
  | append_singleton more move ih =>
      obtain ⟨still, same⟩ := ih fun earlier member => calm earlier (List.mem_append_left _ member)
      rw [← List.append_assoc, run_snoc]
      obtain ⟨again, kept⟩ := still.next (calm move (by simp)) (driven_run setup (moves ++ more)).linked
      exact ⟨again, kept.trans same⟩

/-- `stop` can leave a worker so, when it cancels the probe. -/
theorem cancelledProbe_blocks : Blocked (run oneFailureSetup cancelledProbe) := by
  have tasks : (run oneFailureSetup cancelledProbe).tasks = [.cancelled, .ready] := by
    with_unfolding_all rfl
  refine ⟨fun consumer => ?_, by decide +kernel, by decide +kernel⟩
  rw [at?, tasks]
  rcases consumer with _ | _ | consumer
  · exact .inr rfl
  · exact .inl rfl
  · exact .inr rfl

/-- Its backlog is never worked off by moves in which nothing fails, so `backlog_can_drain` does not hold
without the condition on the probe. -/
theorem a_cancelled_probe_keeps_its_backlog {more : List Move} (calm : ∀ move ∈ more, move.Calm) :
    (run oneFailureSetup (cancelledProbe ++ more)).queue.pendingEvents.length = 1 := by
  rw [(cancelledProbe_blocks.forever calm).2]
  decide +kernel

end System

end FeathrEvents
