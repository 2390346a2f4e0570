/-
Module: FeathrEvents.Proofs.WorkerProbe
Purpose: The probe of a half-open circuit: when the flag that guards it is left up with nobody to take
  it down, and when two consumers can process probes at once.
Trusted boundary: none
Main exports: Consumer.unrecorded, Probes, Fetches, Probed, probed_run, ProbeHeld, SparesProbe,
  probe_is_held_iff_never_cancelled, SingleFlight, NoStraggler, Guarded, probe_is_single_flight
-/
import FeathrEvents.Proofs.WorkerLoop
import FeathrEvents.Proofs.WorkerOutage
import FeathrEvents.Proofs.WorkerOwnership

namespace FeathrEvents

open InMemoryEventQueue (Drawn Linked drawn_after receive_handles receive_length)

/-- The messages of a consumer whose outcome has not been recorded. -/
def Consumer.unrecorded : Consumer → List Message
  | .batch messages => messages
  | .writing _ message rest _ => message :: rest
  | .acking _ rest => rest
  | .ready | .stopped | .cancelled | .died _ => []

section Messages

variable (sink : Sink) (message : Message) (messages rest : List Message) (write : ℕ) (exn : Exn)

@[simp] theorem Consumer.held_batch : (Consumer.batch messages).held = messages := rfl

@[simp] theorem Consumer.held_writing :
    (Consumer.writing sink message rest write).held = message :: rest := rfl

@[simp] theorem Consumer.held_acking : (Consumer.acking message rest).held = message :: rest := rfl

@[simp] theorem Consumer.held_resume : (Consumer.resume rest).held = rest := by
  cases rest <;> rfl

@[simp] theorem Consumer.untouched_batch : (Consumer.batch messages).untouched = messages := rfl

@[simp] theorem Consumer.untouched_writing :
    (Consumer.writing sink message rest write).untouched = rest := rfl

@[simp] theorem Consumer.untouched_acking : (Consumer.acking message rest).untouched = rest := rfl

@[simp] theorem Consumer.unrecorded_batch : (Consumer.batch messages).unrecorded = messages := rfl

@[simp] theorem Consumer.unrecorded_writing :
    (Consumer.writing sink message rest write).unrecorded = message :: rest := rfl

@[simp] theorem Consumer.unrecorded_acking : (Consumer.acking message rest).unrecorded = rest := rfl

@[simp] theorem Consumer.unrecorded_resume : (Consumer.resume rest).unrecorded = rest := by
  cases rest <;> rfl

end Messages

theorem Consumer.unrecorded_held (consumer : Consumer) :
    consumer.unrecorded.Sublist consumer.held := by
  cases consumer with
  | batch | writing => exact List.Sublist.refl _
  | acking => exact List.sublist_cons_self _ _
  | ready | stopped | cancelled | died => exact List.nil_sublist _

/-- A message was received while the circuit was open. -/
def Happening.isProbe : Happening → Bool
  | .received _ probe _ => probe
  | _ => false

/-- One standing has no message that another one has not. -/
structure Consumer.Fewer (standing former : Consumer) : Prop where
  held : standing.held.Sublist former.held
  unrecorded : standing.unrecorded.Sublist former.unrecorded
  untouched : standing.untouched.Sublist former.untouched

theorem Consumer.Fewer.refl (standing : Consumer) : standing.Fewer standing where
  held := List.Sublist.refl _
  unrecorded := List.Sublist.refl _
  untouched := List.Sublist.refl _

theorem Consumer.fewer_of_empty {standing : Consumer} (former : Consumer)
    (empty : standing.held = []) :
    standing.Fewer former where
  held := by simp [empty]
  unrecorded := by
    have within := standing.unrecorded_held
    rw [empty] at within
    simp [List.sublist_nil.mp within]
  untouched := by
    have within : standing.untouched = [] := (List.append_eq_nil_iff.mp empty).2
    simp [within]

namespace System

/-- A consumer processes a probe: a message received while the circuit was open, whose outcome has not
been recorded. -/
def Probes (system : System) (consumer : ℕ) : Prop :=
  ∃ message ∈ (system.at? consumer).unrecorded, .received consumer true message ∈ system.past

variable {setup : Setup} {system later : System} {move : Move} {consumer : ℕ}
variable {messages : List Message}

/-! ### What a move does to the messages of the consumers -/

/-- A consumer has received messages; while the circuit is open it is the probe, and one message. -/
structure Fetches (setup : Setup) (system later : System) (consumer : ℕ) (messages : List Message) :
    Prop where
  stood : system.at? consumer = .ready
  stands : ∀ other, later.at? other = if other = consumer then .batch messages else system.at? other
  handed : messages ≠ []
  past : ∃ call, later.past = system.past ++ .called (some consumer) call ::
    messages.map (.received consumer system.sink.isOpen)
  fresh : ∀ message ∈ messages, ¬ Drawn setup.host system.queue message.receiptHandle
  live : ∀ message ∈ messages, later.queue.inflight.get? message.receiptHandle ≠ none
  probe : system.sink.isOpen = true → messages.length ≤ 1 ∧ system.sink.probing = false ∧
    later.sink = { system.sink with probing := true }
  batch : system.sink.isOpen = false → later.sink = system.sink

/-- A move that hands out nothing: nobody has more messages than before. -/
structure Keeps (system later : System) : Prop where
  received : ∀ consumer probe message, .received consumer probe message ∈ later.past →
    .received consumer probe message ∈ system.past
  flag : later.sink.probing = true → later.sink = system.sink
  fewer : ∀ consumer, (later.at? consumer).Fewer (system.at? consumer)

section

variable (received : ∀ consumer probe message, .received consumer probe message ∈ later.past →
  .received consumer probe message ∈ system.past)
variable (flag : later.sink.probing = true → later.sink = system.sink)

include received flag

theorem Keeps.of_same
    (stands : ∀ other, later.at? other = system.at? other) : Keeps system later where
  received := received
  flag := flag
  fewer other := by
    rw [stands]
    exact .refl _

theorem Keeps.of_set {consumer : ℕ} {standing former : Consumer}
    (stands : system.at? consumer = former) (stood : former ≠ .stopped)
    (tasks : later.tasks = system.tasks.set consumer standing) (fewer : standing.Fewer former) :
    Keeps system later where
  received := received
  flag := flag
  fewer other := by
    rw [at?_of_tasks tasks (by rw [stands]; exact stood)]
    split
    · rename_i same
      rw [same, stands]
      exact fewer
    · exact .refl _

theorem Keeps.of_started {count : ℕ}
    (tasks : later.tasks = system.tasks ++ List.replicate count .ready) : Keeps system later where
  received := received
  flag := flag
  fewer other := by
    rcases at?_of_started tasks other with same | ⟨-, ready⟩
    · rw [same]
      exact .refl _
    · rw [ready]
      exact Consumer.fewer_of_empty _ rfl

end

/-- Reporting a failure takes the flag down. -/
theorem lowered_of_recorded {settings : CircuitSettings} {eventId : String} {checkedAt openedAt : ℚ}
    {circuit later : SinkCircuit} {result : Except Exn Unit}
    (recorded : circuit.recordFailure settings eventId checkedAt openedAt = (result, later)) :
    later.probing = false := by
  rcases recordFailure_cases settings eventId checkedAt openedAt circuit with
    ⟨-, shape⟩ | ⟨-, -, ⟨_, -, shape⟩ | ⟨-, -, shape⟩⟩
  all_goals
    rw [recorded] at shape
    cases shape
    rfl

theorem Moved.fetches_or_keeps (moved : Moved setup system move later)
    (linked : Linked setup.host system.queue) :
    (∃ consumer messages, Fetches setup system later consumer messages) ∨ Keeps system later := by
  have empty : ∀ {standing : Consumer} (former : Consumer), standing.held = [] →
      standing.Fewer former := Consumer.fewer_of_empty
  have lowered : ∀ {eventId : String} {checkedAt openedAt : ℚ} {result : Except Exn Unit}
      {circuit : SinkCircuit},
      system.sink.recordFailure setup.worker.sink eventId checkedAt openedAt = (result, circuit) →
      circuit.probing = true → circuit = system.sink := by
    intro eventId checkedAt openedAt result circuit recorded raised
    cases (lowered_of_recorded recorded).symm.trans raised
  cases moved with
  | idle | waited | stopCalled | drained =>
      exact .inr (.of_same (fun _ _ _ member => member) (fun _ => rfl) fun _ => rfl)
  | faulted =>
      exact .inr (.of_same (fun _ _ _ member => member) (fun raised => by cases raised) fun _ => rfl)
  | sent =>
      exact .inr (.of_same (fun _ _ _ member => by simpa [made] using member) (fun _ => rfl)
        fun _ => rfl)
  | found =>
      exact .inr (.of_same (fun _ _ _ member => by simpa [made, withSink, tick] using member)
        (fun raised => by cases raised) fun _ => rfl)
  | quit stands =>
      exact .inr (.of_set (fun _ _ _ member => member) (fun _ => rfl) stands (by simp) rfl
        (empty _ rfl))
  | @fetched consumer _ askedAt sweptAt now allowance circuit messages stands ordered asked granted
      answer handed =>
      obtain ⟨-, issued⟩ := receive_handles linked answer
      refine .inl ⟨consumer, messages, stands, ?_, handed,
        ⟨.receive allowance none sweptAt now, ?_⟩, ?_, ?_, ?_, ?_⟩
      · exact at?_of_tasks rfl (by simp [stands])
      · simp [made, note, put, withSink, tick]
      · exact fun message member => (issued message member).1
      · intro message member
        obtain ⟨-, messageId, -, live, -⟩ := issued message member
        exact ne_of_eq_of_ne live (by simp)
      · intro opened
        rcases allowance_cases setup.worker.batchSize askedAt system.sink with
          ⟨closed, -⟩ | ⟨openUntil, -, -, idle, shape⟩ | ⟨-, shape⟩
        · simp [SinkCircuit.isOpen, closed] at opened
        · cases asked.symm.trans shape
          exact ⟨by exact_mod_cast receive_length linked (by decide) answer, idle, rfl⟩
        · cases asked.symm.trans shape
          exact absurd rfl granted
      · intro closed
        rcases allowance_cases setup.worker.batchSize askedAt system.sink with
          ⟨-, shape⟩ | ⟨openUntil, opened, -⟩ | ⟨opened, -⟩
        · cases asked.symm.trans shape
          rfl
        · simp [SinkCircuit.isOpen, opened] at closed
        · simp [SinkCircuit.isOpen, opened] at closed
  | beat stands =>
      exact .inr (.of_set (fun _ _ _ member => by simpa [made, begin, tick] using member)
        (fun _ => rfl) stands (by simp) rfl ⟨by simp, by simp, by simp⟩)
  | stale stands =>
      exact .inr (.of_set (fun _ _ _ member => by simpa [made, put, tick] using member)
        (fun _ => rfl) stands (by simp) rfl ⟨by simp, by simp, by simp⟩)
  | @landed _ write =>
      obtain ⟨sink, event, landed⟩ := write
      cases sink <;>
        exact .inr (.of_same (fun _ _ _ member => member) (fun _ => rfl) fun _ => rfl)
  | stored stands =>
      exact .inr (.of_set (fun _ _ _ member => by simpa [note, begin] using member)
        (fun _ => rfl) stands (by simp) rfl ⟨by simp, by simp, by simp⟩)
  | indexed stands =>
      exact .inr (.of_set (fun _ _ _ member => by simpa [note, put, withSink] using member)
        (fun raised => by cases raised) stands (by simp) rfl ⟨by simp, by simp, by simp⟩)
  | overflowed stands ordered raised =>
      exact .inr (.of_set (fun _ _ _ member => by simpa [reported, put] using member)
        (lowered raised) stands (by simp) rfl (empty _ rfl))
  | failed stands ordered recorded =>
      exact .inr (.of_set (fun _ _ _ member => by simpa [reported, made, put] using member)
        (lowered recorded) stands (by simp) rfl ⟨by simp, by simp, by simp⟩)
  | backoffOverflowed stands ordered recorded =>
      exact .inr (.of_set (fun _ _ _ member => by simpa [reported, made, put] using member)
        (lowered recorded) stands (by simp) rfl (empty _ rfl))
  | acked stands | refused stands =>
      exact .inr (.of_set (fun _ _ _ member => by simpa [made, put] using member)
        (fun _ => rfl) stands (by simp) rfl ⟨by simp, by simp, by simp⟩)
  | @cancelled consumer unfinished =>
      have stood : system.at? consumer ≠ .stopped := Consumer.ne_stopped unfinished
      exact .inr (.of_set (fun _ _ _ member => member) (fun _ => rfl) rfl stood rfl (empty _ rfl))
  | started =>
      exact .inr (.of_started (fun _ _ _ member => member) (fun _ => rfl) rfl)

/-! ### The probes of a state -/

/-- Received messages have drawn handles, and a probe is all that its consumer holds, since a
half-open circuit allows one message. -/
structure Probed (setup : Setup) (system : System) : Prop where
  drawn : ∀ consumer probe message, .received consumer probe message ∈ system.past →
    Drawn setup.host system.queue message.receiptHandle
  alone : ∀ consumer, ∀ message ∈ (system.at? consumer).held,
    .received consumer true message ∈ system.past → (system.at? consumer).held = [message]

theorem probed_create : Probed setup System.create where
  drawn := by simp [System.create]
  alone := by simp [System.create]

theorem Fetches.received (fetches : Fetches setup system later consumer messages) {other : ℕ}
    {probe : Bool} {message : Message} (member : .received other probe message ∈ later.past) :
    .received other probe message ∈ system.past ∨
      (other = consumer ∧ message ∈ messages ∧ probe = system.sink.isOpen) := by
  obtain ⟨call, past⟩ := fetches.past
  rw [past, List.mem_append, List.mem_cons, List.mem_map] at member
  rcases member with old | same | ⟨fresh, listed, same⟩
  · exact .inl old
  · cases same
  · cases same
    exact .inr ⟨rfl, listed, rfl⟩

theorem Moved.grows (moved : Moved setup system move later)
    (linked : Linked setup.host system.queue) :
    QueueGrows setup.host system.queue later.queue := by
  rcases moved.calls with ⟨-, ⟨same, -⟩ | ⟨_, call, same, -⟩⟩
  · rw [same]
    exact .refl _ _
  · rw [same]
    exact queueGrows_after setup.queue linked call

theorem Probed.moved (probed : Probed setup system) (linked : Linked setup.host system.queue)
    (moved : Moved setup system move later) (linkedLater : Linked setup.host later.queue) :
    Probed setup later := by
  have grows := moved.grows linked
  rcases moved.fetches_or_keeps linked with ⟨consumer, messages, fetches⟩ | keeps
  · refine ⟨fun other probe message member => ?_, fun other message held received => ?_⟩
    · rcases fetches.received member with old | ⟨-, listed, -⟩
      · exact grows.drawn _ (probed.drawn other probe message old)
      · obtain ⟨messageId, live⟩ := Option.ne_none_iff_exists'.mp (fetches.live message listed)
        exact linkedLater.handleMinted _ _ live
    · rw [fetches.stands] at held ⊢
      split
      · rename_i mover
        rw [if_pos mover, Consumer.held_batch] at held
        rcases fetches.received received with old | ⟨-, -, opened⟩
        · exact absurd (probed.drawn other true message old) (fetches.fresh message held)
        · have short := (fetches.probe opened.symm).1
          obtain ⟨only, rfl⟩ := List.length_eq_one_iff.mp
            (le_antisymm short (List.length_pos_of_mem held))
          rw [List.mem_singleton.mp held, Consumer.held_batch]
      · rename_i elsewhere
        rw [if_neg elsewhere] at held
        rcases fetches.received received with old | ⟨mover, -⟩
        · exact probed.alone other message held old
        · exact absurd mover elsewhere
  · refine ⟨fun other probe message member => ?_, fun other message held received => ?_⟩
    · exact grows.drawn _ (probed.drawn other probe message (keeps.received other probe message member))
    · have fewer := (keeps.fewer other).held
      have before := probed.alone other message (fewer.subset held)
        (keeps.received other true message received)
      rw [before] at fewer
      rcases List.sublist_singleton.mp fewer with empty | same
      · rw [empty] at held
        cases held
      · exact same

theorem probed_run (setup : Setup) (moves : List Move) : Probed setup (run setup moves) := by
  induction moves using List.reverseRecOn with
  | nil => exact probed_create
  | append_singleton moves move ih =>
      have linked := (driven_run setup moves).linked
      have linkedLater := (driven_run setup (moves ++ [move])).linked
      rw [run_snoc] at linkedLater ⊢
      exact ih.moved linked (next_moved linked move) linkedLater

/-! ### Probes come and go -/

theorem Fetches.probes (fetches : Fetches setup system later consumer messages)
    (probed : Probed setup system) {other : ℕ} (probes : Probes later other) :
    Probes system other ∨ (other = consumer ∧ system.sink.isOpen = true) := by
  obtain ⟨message, listed, received⟩ := probes
  rw [fetches.stands] at listed
  split at listed
  · rename_i mover
    rcases fetches.received received with old | ⟨-, -, opened⟩
    · exact absurd (probed.drawn other true message old) (fetches.fresh message listed)
    · exact .inr ⟨mover, opened.symm⟩
  · rename_i elsewhere
    rcases fetches.received received with old | ⟨mover, -⟩
    · exact .inl ⟨message, listed, old⟩
    · exact absurd mover elsewhere

/-- A message received while the circuit is open is a probe. -/
theorem Fetches.grants (fetches : Fetches setup system later consumer messages)
    (opened : system.sink.isOpen = true) : Probes later consumer := by
  obtain ⟨message, listed⟩ := List.exists_mem_of_ne_nil messages fetches.handed
  obtain ⟨call, past⟩ := fetches.past
  refine ⟨message, ?_, ?_⟩
  · rw [fetches.stands, if_pos rfl]
    exact listed
  · rw [past, opened]
    simp [listed]

theorem Keeps.probes (keeps : Keeps system later) {other : ℕ} (probes : Probes later other) :
    Probes system other := by
  obtain ⟨message, listed, received⟩ := probes
  exact ⟨message, (keeps.fewer other).unrecorded.subset listed, keeps.received _ _ _ received⟩

/-- A consumer that probes stands at its heartbeat or waits for a store, with one message. -/
theorem Probed.stands (probed : Probed setup system) (probes : Probes system consumer) :
    ∃ message, .received consumer true message ∈ system.past ∧
      (system.at? consumer = .batch [message] ∨
        ∃ sink write, system.at? consumer = .writing sink message [] write) := by
  obtain ⟨message, listed, received⟩ := probes
  have alone := probed.alone consumer message
    ((system.at? consumer).unrecorded_held.subset listed) received
  refine ⟨message, received, ?_⟩
  cases stands : system.at? consumer with
  | batch messages =>
      rw [stands, Consumer.held_batch] at alone
      exact .inl (by rw [alone])
  | writing sink current rest write =>
      rw [stands, Consumer.held_writing] at alone
      cases alone
      exact .inr ⟨sink, write, rfl⟩
  | acking current rest =>
      rw [stands, Consumer.held_acking] at alone
      cases alone
      rw [stands, Consumer.unrecorded_acking] at listed
      cases listed
  | ready | stopped | cancelled | died =>
      rw [stands] at listed
      cases listed

theorem Probes.mono (probes : Probes system consumer)
    (unrecorded : ∀ message ∈ (system.at? consumer).unrecorded,
      message ∈ (later.at? consumer).unrecorded) (past : system.past ⊆ later.past) :
    Probes later consumer := by
  obtain ⟨message, listed, received⟩ := probes
  exact ⟨message, unrecorded message listed, past received⟩

/-- A task that moves keeps its probe if it keeps its unrecorded messages. -/
theorem Probes.of_set (probes : Probes system consumer) {other : ℕ} {standing former : Consumer}
    (stands : system.at? other = former) (stood : former ≠ .stopped)
    (tasks : later.tasks = system.tasks.set other standing)
    (unrecorded : consumer = other → ∀ message ∈ former.unrecorded, message ∈ standing.unrecorded)
    (past : system.past ⊆ later.past) : Probes later consumer := by
  apply probes.mono _ past
  rw [at?_of_tasks tasks (by rw [stands]; exact stood)]
  split
  · rename_i mover
    rw [mover, stands]
    exact unrecorded mover
  · exact fun message listed => listed

theorem Probes.of_started (probes : Probes system consumer) {count : ℕ}
    (tasks : later.tasks = system.tasks ++ List.replicate count .ready)
    (past : system.past ⊆ later.past) : Probes later consumer := by
  apply probes.mono _ past
  rcases at?_of_started tasks consumer with same | ⟨stopped, -⟩
  · rw [same]
    exact fun _ listed => listed
  · intro message listed
    rw [stopped] at listed
    cases listed

/-- While the flag is up, a probe ends only with its task or with a handle that went stale. -/
theorem Moved.probe_goes_on (moved : Moved setup system move later)
    (raised : later.sink.probing = true) (probes : Probes system consumer) :
    Probes later consumer ∨ move = .cancel consumer ∨
      ∃ now message rest, move = .heartbeat consumer now ∧
        system.at? consumer = .batch (message :: rest) ∧
        system.queue.inflight.get? message.receiptHandle = none := by
  cases moved with
  | idle | waited | stopCalled | drained => exact .inl probes
  | sent => exact .inl (probes.mono (fun _ listed => listed) (List.subset_append_left ..))
  | faulted | found => cases raised
  | quit stands =>
      exact .inl (probes.of_set stands (by simp) rfl (by simp [Consumer.unrecorded]) (List.Subset.refl _))
  | fetched stands =>
      refine .inl (probes.of_set stands (by simp) rfl (by simp [Consumer.unrecorded]) ?_)
      simp [made, note, put, withSink, tick]
  | beat stands =>
      refine .inl (probes.of_set stands (by simp) rfl (by simp) ?_)
      simp [made, begin, tick]
  | @stale other now message rest stands ordered dead =>
      by_cases mover : consumer = other
      · subst mover
        exact .inr (.inr ⟨now, message, rest, rfl, stands, dead⟩)
      · refine .inl (probes.of_set stands (by simp) rfl (fun same => absurd same mover) ?_)
        simp [made, put, tick]
  | @landed _ write =>
      obtain ⟨sink, event, landed⟩ := write
      cases sink <;> exact .inl probes
  | stored stands =>
      refine .inl (probes.of_set stands (by simp) rfl (by simp) ?_)
      simp [note, begin]
  | indexed => cases raised
  | overflowed _ _ recorded => cases (lowered_of_recorded recorded).symm.trans raised
  | failed _ _ recorded => cases (lowered_of_recorded recorded).symm.trans raised
  | backoffOverflowed _ _ recorded => cases (lowered_of_recorded recorded).symm.trans raised
  | acked stands | refused stands =>
      refine .inl (probes.of_set stands (by simp) rfl (by simp) ?_)
      simp [made, put]
  | @cancelled other unfinished =>
      by_cases mover : consumer = other
      · exact .inr (.inl (by rw [mover]))
      · have stood : system.at? other ≠ .stopped := Consumer.ne_stopped unfinished
        exact .inl (probes.of_set rfl stood rfl (fun same => absurd same mover) (List.Subset.refl _))
  | started => exact .inl (probes.of_started rfl (List.Subset.refl _))

/-! ### The probe is not lost -/

/-- Who is about to handle a probe was already about to, unless it has just received it. -/
theorem Keeps.stood (keeps : Keeps system later) (probed : Probed setup system) {message : Message}
    (stands : later.at? consumer = .batch [message])
    (received : .received consumer true message ∈ system.past) :
    system.at? consumer = .batch [message] := by
  have fewer := keeps.fewer consumer
  rw [stands] at fewer
  have alone := probed.alone consumer message (fewer.held.subset (by simp)) received
  have waiting : message ∈ (system.at? consumer).untouched := fewer.untouched.subset (by simp)
  cases stood : system.at? consumer with
  | batch messages =>
      rw [stood, Consumer.held_batch] at alone
      rw [alone]
  | writing sink current rest write =>
      rw [stood, Consumer.held_writing] at alone
      cases alone
      simp [stood] at waiting
  | acking current rest =>
      rw [stood, Consumer.held_acking] at alone
      cases alone
      simp [stood] at waiting
  | ready | stopped | cancelled | died => simp [stood, Consumer.untouched] at waiting

/-- A heartbeat takes its consumer on, unless nothing happens. -/
theorem Moved.beat_leaves {now : ℚ} {message : Message}
    (moved : Moved setup system (.heartbeat consumer now) later)
    (stood : system.at? consumer = .batch [message]) (stands : later.at? consumer = .batch [message]) :
    later = system := by
  have elsewhere : system.at? consumer ≠ .stopped := by simp [stood]
  cases moved with
  | idle => rfl
  | beat =>
      rw [at?_of_tasks rfl elsewhere, if_pos rfl] at stands
      cases stands
  | @stale _ _ _ rest before =>
      cases stood.symm.trans before
      rw [at?_of_tasks rfl elsewhere, if_pos rfl] at stands
      cases stands

/-- Between the `receive` of a probe and its heartbeat nothing else touches the queue. -/
theorem probe_live (setup : Setup) {moves : List Move} (unbroken : Unbroken setup moves)
    {message : Message} (stands : (run setup moves).at? consumer = .batch [message])
    (received : .received consumer true message ∈ (run setup moves).past) :
    (run setup moves).queue.inflight.get? message.receiptHandle ≠ none := by
  induction moves using List.reverseRecOn with
  | nil => cases received
  | append_singleton moves move ih =>
      have linked := (driven_run setup moves).linked
      have moved := next_moved linked move
      have probed := probed_run setup moves
      rw [run_snoc] at stands received ⊢
      -- a consumer that was already there cannot have been interrupted
      have there : (run setup moves).at? consumer = .batch [message] →
          .received consumer true message ∈ (run setup moves).past →
          ((run setup moves).next setup move).queue.inflight.get? message.receiptHandle ≠ none := by
        intro stood before
        have running : ((run setup moves).at? consumer).runs = true := by rw [stood]; rfl
        have live := ih unbroken.left stood before
        rcases moved.runs_on running (unbroken.during running) with
          ⟨-, same, -⟩ | ⟨now, _, _, rfl, -⟩ | ⟨_, _, elsewhere, -⟩
        · rw [same]
          exact live
        · rw [moved.beat_leaves stood stands]
          exact live
        · cases stood.symm.trans elsewhere
      rcases moved.fetches_or_keeps linked with ⟨other, messages, fetches⟩ | keeps
      · have place := fetches.stands consumer
        rcases fetches.received received with before | ⟨-, listed, -⟩
        · split at place
          · rename_i mover
            cases stands.symm.trans place
            exact fetches.live message (by simp)
          · exact there (place.symm.trans stands) before
        · exact fetches.live message listed
      · have before := keeps.received consumer true message received
        exact there (keeps.stood probed stands before) before

/-- While the flag is up some consumer has the probe, so that a pause that is over lets a message
through or has already let one through. -/
structure ProbeHeld (setup : Setup) (system : System) : Prop where
  held : system.sink.probing = true → ∃ consumer, Probes system consumer
  pulls : ∀ openUntil now, system.sink.openUntil = some openUntil → openUntil ≤ now →
    (system.sink.allowance setup.worker.batchSize now).1 = 1 ∨ ∃ consumer, Probes system consumer

/-- The move does not cancel the one task that has the probe.  Whoever is cancelled with it leaves
the flag up, and reports to the circuit no more. -/
def SparesProbe (system : System) : Move → Prop
  | .cancel consumer => system.sink.probing = true → Probes system consumer →
      ∃ other, other ≠ consumer ∧ Probes system other
  | .send _ | .turn .. | .heartbeat .. | .land _ | .returned _ | .raised .. | .ack _ | .start
  | .stop | .drained _ => True

theorem ProbeHeld.of_held (held : system.sink.probing = true → ∃ consumer, Probes system consumer) :
    ProbeHeld setup system where
  held := held
  pulls openUntil now opened elapsed := by
    rcases allowance_cases setup.worker.batchSize now system.sink with
      ⟨closed, -⟩ | ⟨_, -, -, -, shape⟩ | ⟨-, shape⟩
    · cases opened.symm.trans closed
    · exact .inl (by rw [shape])
    · apply Or.inr (held _)
      by_contra lowered
      simp [SinkCircuit.allowance, opened, not_lt.mpr elapsed, lowered] at shape

/-- A probe that nobody cancels goes on while the flag is up. -/
theorem Moved.probe_spared (setup : Setup) {moves : List Move}
    (unbroken : Unbroken setup (moves ++ [move]))
    (moved : Moved setup (run setup moves) move later) (raised : later.sink.probing = true)
    (probes : Probes (run setup moves) consumer) (spared : move ≠ .cancel consumer) :
    Probes later consumer := by
  rcases moved.probe_goes_on raised probes with on | cancelled | ⟨now, current, rest, rfl, stands, dead⟩
  · exact on
  · exact absurd cancelled spared
  · obtain ⟨message, received, stood | ⟨sink, write, stood⟩⟩ := (probed_run setup moves).stands probes
    · cases stands.symm.trans stood
      exact absurd dead (probe_live setup unbroken.left stood received)
    · cases stands.symm.trans stood

theorem held_of_spared (setup : Setup) {moves : List Move} (unbroken : Unbroken setup moves)
    (spared : ∀ visit ∈ Machine.visits (System.next setup) System.create moves,
      SparesProbe visit.1 visit.2) (raised : (run setup moves).sink.probing = true) :
    ∃ consumer, Probes (run setup moves) consumer := by
  induction moves using List.reverseRecOn with
  | nil => cases raised
  | append_singleton moves move ih =>
      have linked := (driven_run setup moves).linked
      have moved := next_moved linked move
      rw [Machine.visits_snoc] at spared
      have kept := spared _ (List.mem_append_right _ (List.mem_singleton_self _))
      have earlier := fun visit member => spared visit (List.mem_append_left _ member)
      rw [run_snoc] at raised ⊢
      -- the flag was up before, unless it was just put up with a probe
      have goes_on : (run setup moves).sink.probing = true →
          ∃ consumer, Probes ((run setup moves).next setup move) consumer := by
        intro up
        obtain ⟨consumer, probes⟩ := ih unbroken.left earlier up
        by_cases cancelled : move = .cancel consumer
        · rw [cancelled] at kept
          obtain ⟨other, different, also⟩ := kept up probes
          apply Exists.intro other
          apply moved.probe_spared setup unbroken raised also
          rw [cancelled]
          exact fun same => different (Move.cancel.inj same).symm
        · exact ⟨consumer, moved.probe_spared setup unbroken raised probes cancelled⟩
      rcases moved.fetches_or_keeps linked with ⟨consumer, messages, fetches⟩ | keeps
      · cases opened : (run setup moves).sink.isOpen with
        | true => exact ⟨consumer, fetches.grants opened⟩
        | false =>
            rw [fetches.batch opened] at raised
            exact goes_on raised
      · rw [keeps.flag raised] at raised
        exact goes_on raised

theorem next_cancel (unfinished : (system.at? consumer).done = false) :
    system.next setup (.cancel consumer) = system.put consumer .cancelled := by
  simp [System.next, step, unfinished]

@[simp] theorem next_cancel_sink :
    (system.next setup (.cancel consumer)).sink = system.sink := by
  simp only [System.next, step]
  split <;> rfl

/-- A cancel that takes the last probe away leaves the flag up with nobody to take it down. -/
theorem spared_of_held {moves : List Move} (probes : Probes (run setup moves) consumer)
    (held : ∃ other, Probes (run setup (moves ++ [.cancel consumer])) other) :
    ∃ other, other ≠ consumer ∧ Probes (run setup moves) other := by
  obtain ⟨other, message, listed, received⟩ := held
  obtain ⟨mine, place, -⟩ := probes
  have unfinished : ((run setup moves).at? consumer).done = false := by
    cases stands : (run setup moves).at? consumer with
    | stopped | cancelled | died | ready => simp [stands, Consumer.unrecorded] at place
    | batch | writing | acking => rfl
  have stood : (run setup moves).at? consumer ≠ .stopped := Consumer.ne_stopped unfinished
  rw [run_snoc, next_cancel unfinished] at listed received
  rw [at?_of_tasks rfl stood] at listed
  split at listed
  · cases listed
  · rename_i different
    exact ⟨other, different, message, listed, received⟩

/-- The probe is lost by a cancel and by nothing else: the flag has its owner in every state of a run
exactly when no step of it cancels the one task that has the probe. -/
theorem probe_is_held_iff_never_cancelled (setup : Setup) (moves : List Move)
    (unbroken : Unbroken setup moves) :
    (∀ before after, moves = before ++ after → ProbeHeld setup (run setup before)) ↔
      ∀ visit ∈ Machine.visits (System.next setup) System.create moves,
        SparesProbe visit.1 visit.2 := by
  constructor
  · intro held visit member
    obtain ⟨first, second, shape, here⟩ := Machine.mem_visits_split _ member
    have later : ProbeHeld setup (run setup (first ++ [visit.2])) :=
      held (first ++ [visit.2]) second (by rw [shape]; simp)
    have reached : visit.1 = run setup first := here
    cases taken : visit.2 with
    | cancel consumer =>
        intro raised probes
        rw [reached] at raised probes ⊢
        rw [taken] at later
        apply spared_of_held probes (later.held _)
        rw [run_snoc, next_cancel_sink]
        exact raised
    | _ => trivial
  · rintro spared before after rfl
    apply ProbeHeld.of_held
    apply held_of_spared setup unbroken.left
    intro visit member
    apply spared visit
    rw [Machine.visits_append]
    exact List.mem_append_left _ member

theorem not_probes_of_idle (idle : ∀ task ∈ system.tasks, task.unrecorded = []) :
    ¬ Probes system consumer := by
  rintro ⟨message, listed, -⟩
  cases place : system.tasks[consumer]? with
  | none => simp [at?, place, Consumer.unrecorded] at listed
  | some task =>
      have empty := idle task (List.mem_of_getElem? place)
      simp [at?, place, empty] at listed

/-- An outage with one consumer, up to the probe that hangs in a store. -/
def hangingProbe : List Move := oneFailure ++ [.turn 0 none 40 40 40, .heartbeat 0 40]

/-- `stop` gives up waiting for the probe and cancels it, and the worker is started again. -/
def cancelledProbe : List Move := hangingProbe ++ [.stop, .cancel 0, .drained 0, .start]

theorem a_cancelled_probe_is_lost :
    Unbroken oneFailureSetup cancelledProbe ∧
      ¬ ProbeHeld oneFailureSetup (run oneFailureSetup cancelledProbe) := by
  refine ⟨by decide +kernel, fun held => ?_⟩
  obtain ⟨consumer, probes⟩ := held.held (by decide +kernel)
  exact not_probes_of_idle (by decide +kernel) probes

theorem a_hanging_probe_is_held : ProbeHeld oneFailureSetup (run oneFailureSetup hangingProbe) := by
  apply (probe_is_held_iff_never_cancelled oneFailureSetup hangingProbe (by decide +kernel)).mpr
  · intro visit member
    obtain ⟨first, second, shape, -⟩ := Machine.mem_visits_split _ member
    have taken : visit.2 ∈ hangingProbe := by simp [shape]
    simp only [hangingProbe, oneFailure, List.cons_append, List.nil_append, List.mem_cons,
      List.not_mem_nil, or_false] at taken
    rcases taken with same | same | same | same | same | same | same <;> simp [same, SparesProbe]
  · exact (List.append_nil _).symm

/-! ### One probe at a time -/

/-- While the circuit is open, at most one consumer processes a probe.  This is what half-open is
meant to be, and `_probing` is how the code goes about it. -/
def SingleFlight (system : System) : Prop :=
  system.sink.isOpen = true → ∀ first second, Probes system first → Probes system second →
    first = second

/-- The move reports to the circuit how the writes of a consumer ended. -/
def Records (system : System) (move : Move) (consumer : ℕ) : Prop :=
  match move with
  | .returned mover => mover = consumer ∧ ∃ message rest write,
      system.at? consumer = .writing .elasticsearch message rest write ∧
        (system.writes[write]?).any Write.landed
  | .raised mover checkedAt openedAt failedAt => mover = consumer ∧
      (∃ sink message rest write, system.at? consumer = .writing sink message rest write) ∧
        system.now ≤ checkedAt ∧ checkedAt ≤ openedAt ∧ openedAt ≤ failedAt
  | _ => False

/-- Nobody but the consumer with the probe reports to the circuit.  A write that began before the
circuit opened and fails while a probe is out breaks this. -/
def NoStraggler (system : System) (move : Move) : Prop :=
  ∀ consumer, Records system move consumer → ∀ other, Probes system other → other = consumer

/-- Before the first probe every report is harmless, and so is every move that is no report. -/
theorem noStraggler_of_quiet (quiet : system.past.all (!·.isProbe) = true ∨
    ∀ consumer, ¬ Records system move consumer) : NoStraggler system move := by
  rintro consumer records other ⟨message, -, received⟩
  rcases quiet with unprobed | silent
  · have none := List.all_eq_true.mp unprobed _ received
    simp [Happening.isProbe] at none
  · exact absurd records (silent consumer)

/-- Every probe is guarded: the circuit is open with its flag up, and there is only one.  A report
beside the probe lowers the flag, and ends this. -/
structure Guarded (system : System) : Prop where
  opened : ∀ consumer, Probes system consumer → system.sink.isOpen = true
  raised : ∀ consumer, Probes system consumer → system.sink.probing = true
  alone : ∀ first second, Probes system first → Probes system second → first = second

theorem guarded_create : Guarded System.create where
  opened _ probes := by
    obtain ⟨_, _, received⟩ := probes
    cases received
  raised _ probes := by
    obtain ⟨_, _, received⟩ := probes
    cases received
  alone _ _ probes _ := by
    obtain ⟨_, _, received⟩ := probes
    cases received

/-- Who reports was writing, and has at most the rest of its batch left. -/
theorem leaves_rest {sink : Sink} {message : Message} {rest : List Message} {write : ℕ}
    {standing : Consumer} (stands : system.at? consumer = .writing sink message rest write)
    (tasks : later.tasks = system.tasks.set consumer standing) (fewer : standing.unrecorded ⊆ rest) :
    (system.at? consumer).held ≠ (system.at? consumer).untouched ∧
      (later.at? consumer).unrecorded ⊆ (system.at? consumer).untouched := by
  have stood : system.at? consumer ≠ .stopped := by simp [stands]
  rw [at?_of_tasks tasks stood, if_pos rfl, stands]
  exact ⟨by simp, fewer⟩

/-- While a probe is out, only a report changes the circuit, and who reports goes on to the rest of its
batch. -/
theorem Moved.guards (moved : Moved setup system move later) (opened : system.sink.isOpen = true)
    (raised : system.sink.probing = true) :
    later.sink = system.sink ∨ ∃ consumer, Records system move consumer ∧
      (system.at? consumer).held ≠ (system.at? consumer).untouched ∧
      (later.at? consumer).unrecorded ⊆ (system.at? consumer).untouched := by
  have refused : ∀ {askedAt : ℚ},
      system.sink.allowance setup.worker.batchSize askedAt = (0, system.sink) := by
    intro askedAt
    rcases allowance_cases setup.worker.batchSize askedAt system.sink with
      ⟨closed, -⟩ | ⟨_, -, -, lowered, -⟩ | ⟨-, shape⟩
    · simp [SinkCircuit.isOpen, closed] at opened
    · cases lowered.symm.trans raised
    · exact shape
  cases moved with
  | idle | sent | quit | waited | beat | stale | stored | acked | refused | cancelled | started
  | stopCalled | drained => exact .inl rfl
  | @landed _ write =>
      obtain ⟨sink, event, landed⟩ := write
      cases sink <;> exact .inl rfl
  | faulted _ _ granted => exact absurd (by rw [refused]) granted
  | found _ _ asked granted =>
      cases refused.symm.trans asked
      exact absurd rfl granted
  | fetched _ _ asked granted =>
      cases refused.symm.trans asked
      exact absurd rfl granted
  | @indexed consumer message rest write stands landed =>
      exact .inr ⟨consumer, ⟨rfl, message, rest, write, stands, landed⟩,
        leaves_rest stands rfl (by simp)⟩
  | @overflowed consumer _ _ _ sink message rest write _ _ stands ordered =>
      exact .inr ⟨consumer, ⟨rfl, ⟨sink, message, rest, write, stands⟩, ordered⟩,
        leaves_rest stands rfl (by simp [Consumer.unrecorded])⟩
  | @failed consumer _ _ _ sink message rest write _ stands ordered =>
      exact .inr ⟨consumer, ⟨rfl, ⟨sink, message, rest, write, stands⟩, ordered⟩,
        leaves_rest stands rfl (by simp)⟩
  | @backoffOverflowed consumer _ _ _ sink message rest write _ stands ordered =>
      exact .inr ⟨consumer, ⟨rfl, ⟨sink, message, rest, write, stands⟩, ordered⟩,
        leaves_rest stands rfl (by simp [Consumer.unrecorded])⟩

theorem Guarded.moved (guarded : Guarded system) (probed : Probed setup system)
    (linked : Linked setup.host system.queue) (moved : Moved setup system move later)
    (alone : NoStraggler system move) : Guarded later := by
  rcases moved.fetches_or_keeps linked with ⟨mover, messages, fetches⟩ | keeps
  · cases opened : system.sink.isOpen with
    | false =>
        -- the circuit is closed, so there was no probe and there is none
        have none : ∀ consumer, ¬ Probes later consumer := by
          intro consumer probes
          rcases fetches.probes probed probes with before | ⟨-, shut⟩
          · cases opened.symm.trans (guarded.opened consumer before)
          · cases opened.symm.trans shut
        exact ⟨fun _ probes => (none _ probes).elim, fun _ probes => (none _ probes).elim,
          fun _ _ probes _ => (none _ probes).elim⟩
    | true =>
        obtain ⟨-, lowered, sink⟩ := fetches.probe opened
        have only : ∀ consumer, Probes later consumer → consumer = mover := by
          intro consumer probes
          rcases fetches.probes probed probes with before | ⟨same, -⟩
          · cases lowered.symm.trans (guarded.raised consumer before)
          · exact same
        refine ⟨fun _ _ => ?_, fun _ _ => ?_, fun first second one two => ?_⟩
        · rw [sink]
          exact opened
        · rw [sink]
        · rw [only first one, only second two]
  · have unchanged : ∀ consumer, Probes later consumer → later.sink = system.sink := by
      intro consumer probes
      have before := keeps.probes probes
      rcases moved.guards (guarded.opened _ before) (guarded.raised _ before) with
        same | ⟨reporter, records, busy, rest⟩
      · exact same
      · -- the one that reports is the one that probes, and a probe has no rest
        cases alone reporter records consumer before
        obtain ⟨message, listed, received⟩ := probes
        have waiting := rest listed
        have only := probed.alone consumer message (List.mem_append_right _ waiting)
          (keeps.received _ _ _ received)
        rcases List.append_eq_singleton_iff.mp only with ⟨-, all⟩ | ⟨-, none⟩
        · exact absurd (only.trans all.symm) busy
        · rw [none] at waiting
          cases waiting
    refine ⟨fun consumer probes => ?_, fun consumer probes => ?_, fun first second one two => ?_⟩
    · rw [unchanged consumer probes]
      exact guarded.opened consumer (keeps.probes probes)
    · rw [unchanged consumer probes]
      exact guarded.raised consumer (keeps.probes probes)
    · exact guarded.alone first second (keeps.probes one) (keeps.probes two)

theorem guarded_run (setup : Setup) {moves : List Move}
    (alone : ∀ visit ∈ Machine.visits (System.next setup) System.create moves,
      NoStraggler visit.1 visit.2) : Guarded (run setup moves) := by
  induction moves using List.reverseRecOn with
  | nil => exact guarded_create
  | append_singleton moves move ih =>
      have linked := (driven_run setup moves).linked
      rw [Machine.visits_snoc] at alone
      have earlier := ih fun visit member => alone visit (List.mem_append_left _ member)
      rw [run_snoc]
      apply earlier.moved (probed_run setup moves) linked (next_moved linked move)
      exact alone _ (List.mem_append_right _ (List.mem_singleton_self _))

/-- Half-open is single-flight in every run in which nobody reports to the circuit beside a probe:
of two consumers that process one while the circuit is open neither is another than the other. -/
theorem probe_is_single_flight (setup : Setup) (moves : List Move)
    (alone : ∀ visit ∈ Machine.visits (System.next setup) System.create moves,
      NoStraggler visit.1 visit.2)
    (before after : List Move) (split : moves = before ++ after) :
    SingleFlight (run setup before) := by
  intro _
  apply (guarded_run setup _).alone
  intro visit member
  apply alone visit
  rw [split, Machine.visits_append]
  exact List.mem_append_left _ member

/-- Three consumers, of which one writes slowly while another fails three times. -/
def stragglerSetup : Setup := sampleSetup {} { concurrency := 3 }

/-- A probe waits for its store. -/
def waitingProbe : List Move :=
  [.send (sampleEvent "s"), .start, .turn 1 none 0 0 0, .heartbeat 1 0,
    .send (sampleEvent "a"), .send (sampleEvent "b"), .send (sampleEvent "c"), .turn 0 none 0 0 0,
    .heartbeat 0 0, .raised 0 0 0 0, .heartbeat 0 0, .raised 0 0 0 0, .heartbeat 0 0,
    .raised 0 0 0 0, .send (sampleEvent "d"), .turn 2 none 6 6 6, .heartbeat 2 6]

/-- The slow write fails after all, and its report lets a second probe through. -/
def overtakenProbe : List Move :=
  waitingProbe ++ [.raised 1 7 7 7, .send (sampleEvent "e"), .turn 0 none 18 18 18]

theorem two_probes_at_once :
    Unbroken stragglerSetup overtakenProbe ∧
      ¬ SingleFlight (run stragglerSetup overtakenProbe) := by
  refine ⟨by decide +kernel, fun single => ?_⟩
  have waits : (run stragglerSetup overtakenProbe).at? 2 =
      .writing .mongodb ⟨sampleEvent "d", "1111111111", 1⟩ [] 4 := by
    with_unfolding_all rfl
  have starts : (run stragglerSetup overtakenProbe).at? 0 =
      .batch [⟨sampleEvent "e", "111111111111", 1⟩] := by
    with_unfolding_all rfl
  have first : Probes (run stragglerSetup overtakenProbe) 2 := by
    refine ⟨⟨sampleEvent "d", "1111111111", 1⟩, by simp [waits], ?_⟩
    apply List.mem_of_getElem?
    show _[29]? = _
    with_unfolding_all rfl
  have second : Probes (run stragglerSetup overtakenProbe) 0 := by
    refine ⟨⟨sampleEvent "e", "111111111111", 1⟩, by simp [starts], ?_⟩
    apply List.mem_of_getElem?
    show _[37]? = _
    with_unfolding_all rfl
  cases single (by decide +kernel) 2 0 first second

theorem one_waiting_probe : SingleFlight (run stragglerSetup waitingProbe) := by
  apply probe_is_single_flight stragglerSetup waitingProbe _ waitingProbe [] (List.append_nil _).symm
  have quiet : ∀ visit ∈ Machine.visits (System.next stragglerSetup) System.create waitingProbe,
      visit.1.past.all (!·.isProbe) = true ∨ visit.2 matches .heartbeat .. := by
    decide +kernel
  intro visit member
  apply noStraggler_of_quiet
  apply (quiet visit member).imp_right
  intro beats consumer
  split at beats
  · rename_i taken
    simp [taken, Records]
  · cases beats

end System

end FeathrEvents
