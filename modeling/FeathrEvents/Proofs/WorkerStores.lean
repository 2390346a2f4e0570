/-
Module: FeathrEvents.Proofs.WorkerStores
Purpose: No accepted event is lost without a trace: while it has no entry it is in both stores or its
  payload is in the log, a delete always means both writes, and shutdown names what is left.
Trusted boundary: none
Main exports: Consumer.awaits, InStore, Stored, stored_run, counted_run, no_accepted_event_is_lost
-/
import FeathrEvents.Proofs.QueueFates
import FeathrEvents.Proofs.WorkerTrail

namespace FeathrEvents

open InMemoryEventQueue

/-- The write that a consumer waits for: its index, its store and its event. -/
def Consumer.awaits : Consumer → Option (ℕ × Sink × Event)
  | .writing sink message _ index => some (index, sink, message.event)
  | .ready | .batch _ | .acking .. | .stopped | .cancelled | .died _ => none

@[simp] theorem Consumer.awaits_resume (rest : List Message) :
    (Consumer.resume rest).awaits = none := by
  cases rest <;> rfl

namespace System

/-- The document that a store has under an id is this event's: `toDocument` in MongoDB, and in
Elasticsearch what pydantic dumps, without the id that it is stored under. -/
def Documents (setup : Setup) (system : System) (eventId : String) (event : Event) : Sink → Prop
  | .mongodb => system.mongo.get? eventId = some event.toDocument
  | .elasticsearch =>
      system.elastic.get? eventId = some ((setup.host.modelDump event).erase "event_id")

/-- A write of the event has landed, and under its id the store has the document of an event that was
sent with that id. -/
def InStore (setup : Setup) (system : System) (sink : Sink) (event : Event) : Prop :=
  ⟨sink, event, true⟩ ∈ system.writes ∧
    ∃ stored, .send stored ∈ calls system.past ∧ stored.eventId = event.eventId ∧
      Documents setup system event.eventId stored sink

/-- What the history, the writes and the two stores say about each other: a write has a consumer
that waits for it or has returned, and what landed is still in its store. -/
structure Stored (setup : Setup) (system : System) : Prop where
  awaited : ∀ consumer index sink event,
    (system.at? consumer).awaits = some (index, sink, event) →
    ∃ landed, system.writes[index]? = some ⟨sink, event, landed⟩
  returned : ∀ consumer sink message, .returned consumer sink message ∈ system.past →
    ⟨sink, message.event, true⟩ ∈ system.writes
  sent : ∀ write ∈ system.writes, .send write.event ∈ calls system.past
  stored : ∀ sink event, ⟨sink, event, true⟩ ∈ system.writes → InStore setup system sink event

variable {setup : Setup} {system later : System} {move : Move}

theorem stored_create : Stored setup System.create where
  awaited := by simp [System.create, at?, Consumer.awaits]
  returned := by simp [System.create]
  sent := by simp [System.create]
  stored := by simp [System.create]

theorem calls_append (past fresh : List Happening) : calls
    (past ++ fresh) = calls past ++ calls fresh := by
  simp [calls]

/-- A move that writes nothing. -/
theorem Stored.keep (stored : Stored setup system) (fresh : List Happening)
    (past : later.past = system.past ++ fresh) (writes : later.writes = system.writes)
    (stores : later.mongo = system.mongo ∧ later.elastic = system.elastic)
    (stands : ∀ other, later.at? other = system.at? other ∨ (later.at? other).awaits = none)
    (returned : ∀ consumer sink message, .returned consumer sink message ∈ fresh →
      ⟨sink, message.event, true⟩ ∈ system.writes) : Stored setup later where
  awaited consumer index sink event waits := by
    rcases stands consumer with same | idle
    · rw [same] at waits
      rw [writes]
      exact stored.awaited consumer index sink event waits
    · cases idle.symm.trans waits
  returned consumer sink message member := by
    rw [past] at member
    rw [writes]
    rcases List.mem_append.mp member with old | new
    · exact stored.returned consumer sink message old
    · exact returned consumer sink message new
  sent write member := by
    rw [writes] at member
    rw [past, calls_append]
    exact List.mem_append_left _ (stored.sent write member)
  stored sink event member := by
    rw [writes] at member
    obtain ⟨landed, former, sent, named, documents⟩ := stored.stored sink event member
    refine ⟨writes ▸ landed, former, ?_, named, ?_⟩
    · rw [past, calls_append]
      exact List.mem_append_left _ sent
    · cases sink <;> simpa [Documents, stores] using documents

/-- A call of a store for an event that was sent. -/
theorem Stored.began (stored : Stored setup system) (consumer : ℕ) (sink : Sink) {message : Message}
    (rest : List Message) (sent : .send message.event ∈ calls system.past) :
    Stored setup (system.begin consumer sink message rest) := by
  have past : calls (system.begin consumer sink message rest).past = calls system.past := by
    simp [begin, calls, Happening.call?]
  have older : ∀ write ∈ system.writes, write ∈ (system.begin consumer sink message rest).writes :=
    fun write member => List.mem_append_left _ member
  have landed : ∀ other event, ⟨other, event, true⟩ ∈ (system.begin consumer sink message rest).writes →
      ⟨other, event, true⟩ ∈ system.writes := by
    intro other event member
    simpa [begin] using member
  refine ⟨?_, ?_, ?_, ?_⟩
  · intro other index otherSink event waits
    rw [at?, begin, at?_set] at waits
    split at waits
    · cases waits
      exact ⟨false, by simp [begin]⟩
    · obtain ⟨landed, here⟩ := stored.awaited other index otherSink event waits
      have inside : index < system.writes.length := (List.getElem?_eq_some_iff.mp here).1
      exact ⟨landed, by simp [begin, List.getElem?_append_left inside, here]⟩
  · intro other otherSink worked member
    apply older
    apply stored.returned other otherSink worked
    simpa [begin] using member
  · intro write member
    rw [past]
    rcases List.mem_append.mp member with old | new
    · exact stored.sent write old
    · rw [List.mem_singleton.mp new]
      exact sent
  · intro other event member
    obtain ⟨-, former, known, named, documents⟩ := stored.stored other event (landed other event member)
    refine ⟨member, former, past ▸ known, named, ?_⟩
    cases other <;> exact documents

/-- A write that lands replaces the document under its id, and no other. -/
theorem documents_land (setup : Setup) (system : System) (write : Write) (eventId : String) :
    (eventId = write.event.eventId →
      Documents setup (system.land setup write) eventId write.event write.sink) ∧
    ∀ event sink, Documents setup system eventId event sink →
      ¬ (eventId = write.event.eventId ∧ sink = write.sink) →
      Documents setup (system.land setup write) eventId event sink := by
  obtain ⟨landing, landed, -⟩ := write
  refine ⟨?_, fun event sink documents apart => ?_⟩
  · rintro rfl
    cases landing <;> simp [Documents, System.land, Event.toDocument]
  · by_cases same : eventId = landed.eventId
    · cases landing <;> cases sink <;> simp_all [Documents, System.land]
    · cases landing <;> cases sink <;>
        simpa [Documents, System.land, Event.toDocument, same] using documents

/-- A write that has landed stays landed when another one lands. -/
theorem landed_stays {index : ℕ} {write : Write} (called : system.writes[index]? = some write)
    {sink : Sink} {event : Event} (landed : ⟨sink, event, true⟩ ∈ system.writes) :
    ⟨sink, event, true⟩ ∈ system.writes.set index { write with landed := true } := by
  have inside : index < system.writes.length := (List.getElem?_eq_some_iff.mp called).1
  obtain ⟨position, here⟩ := List.mem_iff_getElem?.mp landed
  apply List.mem_iff_getElem?.mpr
  apply Exists.intro position
  by_cases same : index = position
  · subst same
    cases called.symm.trans here
    simp [inside]
  · rw [List.getElem?_set_ne same, here]

/-- A write that lands. -/
theorem Stored.landed (stored : Stored setup system) {index : ℕ} {write : Write}
    (called : system.writes[index]? = some write) :
    Stored setup { system.land setup write with
      writes := system.writes.set index { write with landed := true } } := by
  have inside : index < system.writes.length := (List.getElem?_eq_some_iff.mp called).1
  have past : (system.land setup write).past = system.past := by
    rw [System.land]
    split <;> rfl
  have tasks : (system.land setup write).tasks = system.tasks := by
    rw [System.land]
    split <;> rfl
  refine ⟨?_, ?_, ?_, ?_⟩
  · intro consumer position sink event waits
    have waits : (system.at? consumer).awaits = some (position, sink, event) := by
      simpa only [at?, tasks] using waits
    obtain ⟨landed, here⟩ := stored.awaited consumer position sink event waits
    by_cases same : index = position
    · subst same
      cases called.symm.trans here
      exact ⟨true, by simp [inside]⟩
    · exact ⟨landed, (List.getElem?_set_ne same).trans here⟩
  · intro consumer sink message member
    rw [show _ = system.past from past] at member
    exact landed_stays called (stored.returned consumer sink message member)
  · intro other member
    rw [show _ = system.past from past]
    rcases List.mem_or_eq_of_mem_set member with old | rfl
    · exact stored.sent other old
    · exact stored.sent write (List.mem_of_getElem? called)
  · intro sink event member
    have sent : .send write.event ∈ calls system.past :=
      stored.sent write (List.mem_of_getElem? called)
    obtain ⟨replaced, others⟩ := documents_land setup system write event.eventId
    refine ⟨member, ?_⟩
    rw [show _ = system.past from past]
    by_cases mine : event.eventId = write.event.eventId ∧ sink = write.sink
    · obtain ⟨named, rfl⟩ := mine
      exact ⟨write.event, sent, named.symm, replaced named⟩
    · rcases List.mem_or_eq_of_mem_set member with old | new
      · obtain ⟨-, former, known, named, documents⟩ := stored.stored sink event old
        exact ⟨former, known, named, others former sink documents mine⟩
      · cases new
        exact absurd ⟨rfl, rfl⟩ mine

/-- A consumer that moved where it waits for no write. -/
theorem idle_of_set {consumer : ℕ} {standing : Consumer} (stood : system.at? consumer ≠ .stopped)
    (tasks : later.tasks = system.tasks.set consumer standing) (here : standing.awaits = none) :
    ∀ other, later.at? other = system.at? other ∨ (later.at? other).awaits = none :=
  same_or_of_tasks (fun _ standing => standing.awaits = none) stood tasks here

/-- Where a store returned, the write that the consumer waited for has landed. -/
theorem Stored.returns (stored : Stored setup system) {consumer index : ℕ} {sink : Sink}
    {message : Message} {rest : List Message}
    (stands : system.at? consumer = .writing sink message rest index)
    (landed : (system.writes[index]?).any Write.landed) :
    ⟨sink, message.event, true⟩ ∈ system.writes := by
  obtain ⟨flag, called⟩ :=
    stored.awaited consumer index sink message.event (by simp [stands, Consumer.awaits])
  rw [called] at landed
  have flagged : flag = true := by simpa using landed
  rw [flagged] at called
  exact List.mem_of_getElem? called

theorem Stored.moved (stored : Stored setup system) (driven : Driven setup system)
    (owned : Owned setup system) (moved : Moved setup system move later) : Stored setup later := by
  have quiet : ∀ fresh : List Happening, later.past = system.past ++ fresh →
      later.writes = system.writes →
      later.mongo = system.mongo ∧ later.elastic = system.elastic →
      (∀ other, later.at? other = system.at? other ∨ (later.at? other).awaits = none) →
      (∀ consumer sink message, .returned consumer sink message ∉ fresh) → Stored setup later :=
    fun fresh past writes stores stands silent => stored.keep fresh past writes stores stands
      fun consumer sink message member => absurd member (silent consumer sink message)
  cases moved with
  | idle => exact stored
  | sent => exact quiet _ rfl rfl ⟨rfl, rfl⟩ (fun _ => .inl rfl) (by simp)
  | quit stands =>
      exact quiet [] (List.append_nil _).symm rfl ⟨rfl, rfl⟩
        (idle_of_set (by simp [stands]) rfl rfl) (by simp)
  | waited | faulted | stopCalled | drained =>
      exact quiet [] (List.append_nil _).symm rfl ⟨rfl, rfl⟩ (fun _ => .inl rfl) (by simp)
  | found => exact quiet _ rfl rfl ⟨rfl, rfl⟩ (fun _ => .inl rfl) (by simp)
  | @fetched consumer _ _ sweptAt now allowance _ messages stands =>
      refine quiet (.called (some consumer) (.receive allowance none sweptAt now) ::
        messages.map (.received consumer system.sink.isOpen)) ?_ rfl ⟨rfl, rfl⟩
        (idle_of_set (by simp [stands]) rfl rfl) (by simp)
      simp [made, note, put, withSink, tick]
  | @beat consumer now message rest stands ordered live =>
      obtain ⟨messageId, lent⟩ := Option.ne_none_iff_exists'.mp live
      have lends := owned.lends consumer message
        (Consumer.untouched_held (by simp [stands, Consumer.untouched]))
      obtain ⟨entry, found, same, -⟩ := lends messageId lent
      rw [driven.queue] at found
      have sent : .send message.event ∈ calls system.past := same ▸ sent_of_stored _ found
      have called : Stored setup ((system.tick now).made setup (some consumer)
          (.changeVisibility message.receiptHandle setup.worker.visibilityTimeout now)) :=
        stored.keep _ rfl rfl ⟨rfl, rfl⟩ (fun _ => .inl rfl) (by simp)
      apply called.began
      simp only [made, tick, calls_append]
      exact List.mem_append_left _ sent
  | stale stands =>
      exact quiet _ rfl rfl ⟨rfl, rfl⟩ (idle_of_set (by simp [stands]) rfl (by simp)) (by simp)
  | landed called => exact stored.landed called
  | @stored consumer message rest index stands landed =>
      have returned := stored.returns stands landed
      have noted : Stored setup (system.note [.returned consumer .mongodb message]) := by
        refine stored.keep _ rfl rfl ⟨rfl, rfl⟩ (fun _ => .inl rfl) ?_
        intro other sink worked member
        cases List.mem_singleton.mp member
        exact returned
      apply noted.began
      simp only [note, calls_append]
      exact List.mem_append_left _ (stored.sent _ returned)
  | @indexed consumer message rest index stands landed =>
      refine stored.keep [.returned consumer .elasticsearch message,
        .recordedSuccess consumer message] (by simp [put, withSink, note]) rfl ⟨rfl, rfl⟩
        (idle_of_set (by simp [stands]) rfl rfl) ?_
      intro other sink worked member
      rcases List.mem_cons.mp member with same | same
      · cases same
        exact stored.returns stands landed
      · cases List.mem_singleton.mp same
  | overflowed stands =>
      exact quiet _ rfl rfl ⟨rfl, rfl⟩ (idle_of_set (by simp [stands]) rfl rfl) (by simp)
  | @failed consumer _ _ failedAt sink message _ _ _ stands =>
      exact quiet [.raised consumer sink message, .recordedFailure consumer message,
        .called (some consumer) (.fail message.receiptHandle failedAt)]
        (by simp [made, put, reported]) rfl ⟨rfl, rfl⟩
        (idle_of_set (by simp [stands]) rfl (by simp)) (by simp)
  | @backoffOverflowed consumer _ _ failedAt sink message _ _ _ stands =>
      exact quiet [.raised consumer sink message, .recordedFailure consumer message,
        .called (some consumer) (.fail message.receiptHandle failedAt)]
        (by simp [made, put, reported]) rfl ⟨rfl, rfl⟩
        (idle_of_set (by simp [stands]) rfl rfl) (by simp)
  | acked stands | refused stands =>
      exact quiet _ rfl rfl ⟨rfl, rfl⟩ (idle_of_set (by simp [stands]) rfl (by simp)) (by simp)
  | @cancelled consumer unfinished =>
      have stood : system.at? consumer ≠ .stopped := Consumer.ne_stopped unfinished
      exact quiet [] (List.append_nil _).symm rfl ⟨rfl, rfl⟩ (idle_of_set stood rfl rfl) (by simp)
  | started =>
      refine quiet [] (List.append_nil _).symm rfl ⟨rfl, rfl⟩ ?_ (by simp)
      intro other
      refine (at?_of_started rfl other).imp_right fun ready => ?_
      rw [ready.2]
      rfl

theorem stored_run (setup : Setup) (moves : List Move) : Stored setup (run setup moves) := by
  induction moves using List.reverseRecOn with
  | nil => exact stored_create
  | append_singleton moves move ih =>
      rw [run_snoc]
      exact ih.moved (driven_run setup moves) (owned_run setup moves)
        (next_moved (driven_run setup moves).linked move)

/-! ### The counter -/

/-- `processed` counts the deletes that found their handle live. -/
theorem processed_moved (moved : Moved setup system move later) :
    (calls later.past = calls system.past ∧ later.processed = system.processed) ∨
    ∃ call, calls later.past = calls system.past ++ [call] ∧
      later.processed = system.processed + (ackedBy system.queue call).toList.length := by
  cases moved with
  | idle | quit | waited | faulted | cancelled | started | stopCalled | drained =>
      exact .inl ⟨rfl, rfl⟩
  | @landed index write =>
      obtain ⟨sink, event, landed⟩ := write
      cases sink <;> exact .inl ⟨rfl, rfl⟩
  | stored => exact .inl ⟨by simp [begin, note, calls, Happening.call?], rfl⟩
  | indexed => exact .inl ⟨by simp [put, withSink, note, calls, Happening.call?], rfl⟩
  | overflowed => exact .inl ⟨by simp [put, reported, calls, Happening.call?], rfl⟩
  | sent event => exact .inr ⟨.send event, by simp [made, calls, Happening.call?], rfl⟩
  | found => exact .inr ⟨_, by simp [made, withSink, tick, calls, Happening.call?]; rfl, rfl⟩
  | fetched => exact .inr ⟨_, by simp [made, note, put, withSink, tick, calls, Happening.call?]; rfl, rfl⟩
  | beat => exact .inr ⟨_, by simp [made, begin, tick, calls, Happening.call?]; rfl, rfl⟩
  | stale => exact .inr ⟨_, by simp [made, put, tick, calls, Happening.call?]; rfl, rfl⟩
  | failed | backoffOverflowed =>
      exact .inr ⟨_, by simp [made, put, reported, calls, Happening.call?]; rfl, rfl⟩
  | @acked consumer message rest stands live =>
      obtain ⟨messageId, lent⟩ := Option.ne_none_iff_exists'.mp live
      exact .inr ⟨.delete message.receiptHandle, by simp [made, put, calls, Happening.call?],
        by simp [put, made, ackedBy, lent]⟩
  | @refused consumer message rest stands dead =>
      exact .inr ⟨.delete message.receiptHandle, by simp [made, put, calls, Happening.call?],
        by simp [put, made, ackedBy, dead]⟩

theorem counted_run (setup : Setup) (moves : List Move) :
    (run setup moves).processed =
      (acked (history setup.host setup.queue (calls (run setup moves).past))).length := by
  induction moves using List.reverseRecOn with
  | nil => rfl
  | append_singleton moves move ih =>
      have driven := driven_run setup moves
      rw [run_snoc]
      rcases processed_moved (next_moved driven.linked move) with ⟨same, processed⟩ | ⟨call, more, processed⟩
      · rw [same, processed, ih]
      · rw [more, processed, ih, history_snoc, acked_snoc, List.length_append, driven.queue]

/-! ### Shutdown -/

/-- Every event that the queue still has is printed. -/
theorem lostLines_name {host : Host} (serialises : host.Serialises) (events : List Event) :
    ∃ lines, lostLines host events = .ok lines ∧ ∀ event ∈ events, ∃ payload,
      host.modelDumpJson event = some payload ∧ .lostOnShutdown payload ∈ lines := by
  induction events with
  | nil => exact ⟨[], rfl, by simp⟩
  | cons event events ih =>
      obtain ⟨lines, printed, named⟩ := ih
      obtain ⟨payload, dumped⟩ := Option.isSome_iff_exists.mp (serialises event)
      refine ⟨.lostOnShutdown payload :: lines, by simp [lostLines, dumped, printed, Except.map], ?_⟩
      intro other member
      rcases List.mem_cons.mp member with rfl | member
      · exact ⟨payload, dumped, List.mem_cons_self ..⟩
      · obtain ⟨text, found, listed⟩ := named other member
        exact ⟨text, found, List.mem_cons_of_mem _ listed⟩

theorem shutdown_names (settings : QueueSettings) {host : Host} {queue : InMemoryEventQueue}
    (serialises : host.Serialises) (placed : Placed queue) :
    ∃ lines, shutdownLines host settings queue = .ok lines ∧
      ∀ messageId entry, queue.entries.get? messageId = some entry →
        ((queue.stats settings).visible ≠ 0 ∨ (queue.stats settings).inFlight ≠ 0) ∧
        ∃ payload, host.modelDumpJson entry.event = some payload ∧
          .lostOnShutdown payload ∈ lines := by
  have guarded : ∀ messageId entry, queue.entries.get? messageId = some entry →
      (queue.stats settings).visible ≠ 0 ∨ (queue.stats settings).inFlight ≠ 0 := by
    intro messageId entry stored
    rcases placed messageId (Collections.OrderedDict.mem_keys.mpr ⟨entry, stored⟩) with
      visible | lent
    · left
      exact (List.length_pos_of_mem visible).ne'
    · right
      obtain ⟨handle, live⟩ := Collections.OrderedDict.mem_values.mp lent
      exact (List.length_pos_of_mem (Collections.OrderedDict.get?_eq_some.mp live)).ne'
  obtain ⟨lines, printed, named⟩ := lostLines_name serialises queue.pendingEvents
  by_cases warns : (queue.stats settings).visible ≠ 0 ∨ (queue.stats settings).inFlight ≠ 0
  · refine ⟨_, by rw [shutdownLines, if_pos warns, printed]; rfl, fun messageId entry stored => ?_⟩
    have pending : entry.event ∈ queue.pendingEvents :=
      List.mem_map.mpr ⟨entry, Collections.OrderedDict.mem_values.mpr ⟨messageId, stored⟩, rfl⟩
    obtain ⟨payload, dumped, listed⟩ := named entry.event pending
    exact ⟨warns, payload, dumped, List.mem_cons_of_mem _ listed⟩
  · refine ⟨[], by rw [shutdownLines, if_neg warns], fun messageId entry stored => ?_⟩
    exact absurd (guarded messageId entry stored) warns

/-! ### The contract -/

/-- Where a call stands in the history. -/
theorem past_of_calls {past : List Happening} {earlier later : List QueueCall} {call : QueueCall}
    (split : calls past = earlier ++ call :: later) :
    ∃ before caller after, past = before ++ .called caller call :: after ∧
      calls before = earlier := by
  rw [calls, List.map_eq_append_iff] at split
  obtain ⟨first, second, listed, rfl, tail⟩ := split
  obtain ⟨⟨caller, _⟩, rest, rfl, rfl, -⟩ := List.map_eq_cons_iff.mp tail
  obtain ⟨front, back, rfl, rfl, here⟩ := List.filterMap_eq_append_iff.mp listed
  obtain ⟨silent, happening, after, rfl, quiet, is, -⟩ := List.filterMap_eq_cons_iff.mp here
  refine ⟨front ++ silent, caller, after, ?_, ?_⟩
  · cases happening <;> cases is
    rw [List.append_assoc]
  · have none : callsBy silent = [] := List.filterMap_eq_nil_iff.mpr quiet
    rw [calls, callsBy_append, none, List.append_nil]
    rfl

/-- A message leaves by `delete` only after both writes of the same delivery returned, the store's
first. -/
theorem delete_follows_writes (setup : Setup) (moves : List Move) {before after : List Happening}
    {caller : Option ℕ} {handle messageId : String}
    (split : (run setup moves).past = before ++ .called caller (.delete handle) :: after)
    (lent : (reached setup.host setup.queue (calls before)).inflight.get? handle = some messageId) :
    ∃ entry consumer message,
      (reached setup.host setup.queue (calls before)).entries.get? messageId = some entry ∧
      caller = some consumer ∧ message.receiptHandle = handle ∧ message.event = entry.event ∧
      [.returned consumer .mongodb message, .returned consumer .elasticsearch message].Sublist
        before := by
  obtain ⟨consumer, message, rfl, rfl, written, lends⟩ :=
    (trailed_run setup moves).deleted before caller handle after split
  obtain ⟨entry, stored, same, -⟩ := lends messageId lent
  exact ⟨entry, consumer, message, stored, rfl, rfl, same.symm, written⟩

/-- An event whose message was deleted is in both stores. -/
theorem in_both_stores (setup : Setup) (moves : List Move) {earlier later : List QueueCall}
    {handle messageId : String} {entry : Entry} {event : Event}
    (split : calls (run setup moves).past = earlier ++ .delete handle :: later)
    (lent : (reached setup.host setup.queue earlier).inflight.get? handle = some messageId)
    (found : (reached setup.host setup.queue earlier).entries.get? messageId = some entry)
    (same : entry.event = event) (sink : Sink) : InStore setup (run setup moves) sink event := by
  have stored := stored_run setup moves
  obtain ⟨past, caller, future, here, rfl⟩ := past_of_calls split
  obtain ⟨holder, consumer, message, held, -, -, worked, written⟩ :=
    delete_follows_writes setup moves here lent
  cases held.symm.trans found
  have whole : past.Sublist (run setup moves).past := by
    rw [here]
    exact List.sublist_append_left _ _
  apply stored.stored
  rw [← same, ← worked]
  apply stored.returned consumer sink message
  apply (written.trans whole).subset
  cases sink <;> simp

/-- No accepted event is lost without a trace, in every state that a run reaches, when events can be
serialised: a delete that removes a message follows both writes of that delivery; every accepted event
has its entry, or was dead-lettered with its payload, or is in both stores; `processed` counts the
messages removed by `delete`, none of them twice; and the shutdown lines name every event that still
has an entry. -/
theorem no_accepted_event_is_lost (setup : Setup) (serialises : setup.host.Serialises)
    (moves : List Move) :
    let system := run setup moves
    let queueAfter := reached setup.host setup.queue
    (∀ before caller handle after messageId,
      system.past = before ++ .called caller (.delete handle) :: after →
      (queueAfter (calls before)).inflight.get? handle = some messageId →
      ∃ entry consumer message, (queueAfter (calls before)).entries.get? messageId = some entry ∧
        caller = some consumer ∧ message.receiptHandle = handle ∧ message.event = entry.event ∧
        [.returned consumer .mongodb message, .returned consumer .elasticsearch message].Sublist
          before) ∧
    (∀ before event after, calls system.past = before ++ .send event :: after →
      ((queueAfter before).perform setup.host setup.queue (.send event)).1 = .ok [] →
      (∃ entry, system.queue.entries.get? (setup.host.uuid4 (queueAfter before).minted) =
        some entry ∧ entry.event = event) ∨
      DeadLetteredInLog setup.host system.queue event ∨
      ∀ sink, InStore setup system sink event) ∧
    (system.processed =
        (acked (history setup.host setup.queue (calls system.past))).length ∧
      (acked (history setup.host setup.queue (calls system.past))).Nodup) ∧
    ∃ lines, shutdownLines setup.host setup.queue system.queue = .ok lines ∧
      ∀ messageId entry, system.queue.entries.get? messageId = some entry →
        ((system.queue.stats setup.queue).visible ≠ 0 ∨
          (system.queue.stats setup.queue).inFlight ≠ 0) ∧
        ∃ payload, setup.host.modelDumpJson entry.event = some payload ∧
          .lostOnShutdown payload ∈ lines := by
  intro system queueAfter
  have driven : Driven setup system := driven_run setup moves
  refine ⟨?_, ?_, ⟨counted_run setup moves, acked_nodup _ _ _⟩, ?_⟩
  · intro before caller handle after messageId split lent
    exact delete_follows_writes setup moves split lent
  · intro before event after sends accepted
    have port : .clear ∉ after := fun member => driven.port (by rw [sends]; simp [member])
    have fate := accepted_fate serialises accepted after port
    rw [← sends] at fate
    rw [driven.queue]
    rcases fate with kept | logged | ⟨earlier, handle, rest, entry, split, lent, found, same⟩
    · exact .inl kept
    · exact .inr (.inl logged)
    · right
      right
      exact in_both_stores setup moves split lent found same
  · apply shutdown_names setup.queue serialises
    rw [driven.queue]
    exact placed_reached serialises _

/-- One event is sent, written to both stores and deleted. -/
def oneEventRun : List Move :=
  [.send (sampleEvent "a"), .start, .turn 0 none 0 0 0, .heartbeat 0 0, .land 0, .returned 0,
    .land 1, .returned 0, .ack 0]

theorem one_event_reaches_both_stores :
    InStore (sampleSetup {} { concurrency := 1 }) (run (sampleSetup {} { concurrency := 1 })
        oneEventRun) .mongodb (sampleEvent "a") ∧
      InStore (sampleSetup {} { concurrency := 1 }) (run (sampleSetup {} { concurrency := 1 })
        oneEventRun) .elasticsearch (sampleEvent "a") := by
  have emptied : (run (sampleSetup {} { concurrency := 1 }) oneEventRun).queue.entries.get? "1" =
      none := by with_unfolding_all rfl
  have quiet : (run (sampleSetup {} { concurrency := 1 }) oneEventRun).queue.log = [] := by
    with_unfolding_all rfl
  rcases (no_accepted_event_is_lost (sampleSetup {} { concurrency := 1 }) (fun _ => rfl)
    oneEventRun).2.1 [] (sampleEvent "a")
      [.receive 10 none 0 0, .changeVisibility "11" 30 0, .delete "11"]
      (by with_unfolding_all rfl) rfl with
    ⟨entry, kept, -⟩ | ⟨count, payload, -, logged⟩ | both
  · cases kept.symm.trans emptied
  · rw [quiet] at logged
    cases logged
  · exact ⟨both .mongodb, both .elasticsearch⟩

end System

end FeathrEvents
