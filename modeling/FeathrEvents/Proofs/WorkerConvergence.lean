/-
Module: FeathrEvents.Proofs.WorkerConvergence
Purpose: What the two stores contain does not depend on the schedule: every document is the one of a
  write that landed, every indexed event was stored first, and two runs that acked the same events
  leave the same documents.
Trusted boundary: none
Main exports: ids, Sourced, sourced_run, no_phantom_search_results, Acked, contents_do_not_depend_on_schedule
-/
import FeathrEvents.Proofs.WorkerOutage
import FeathrEvents.Proofs.WorkerStores

namespace FeathrEvents.System

open InMemoryEventQueue (Linked reached)

/-- The ids under which a store has a document. -/
def ids (system : System) : Sink → List String
  | .mongodb => system.mongo.keys
  | .elasticsearch => system.elastic.keys

/-- Every document comes from a write that landed, and an event is indexed only after it was stored.
This holds of writes that have not landed yet as well. -/
structure Sourced (setup : Setup) (system : System) : Prop where
  present : ∀ sink, ∀ eventId ∈ system.ids sink, ∃ event,
    ⟨sink, event, true⟩ ∈ system.writes ∧ event.eventId = eventId ∧
      Documents setup system eventId event sink
  ordered : ∀ event landed, ⟨.elasticsearch, event, landed⟩ ∈ system.writes →
    ⟨.mongodb, event, true⟩ ∈ system.writes

variable {setup : Setup} {system later : System} {move : Move}

theorem mem_ids_of_documents {eventId : String} {event : Event} {sink : Sink}
    (documents : Documents setup system eventId event sink) : eventId ∈ system.ids sink := by
  cases sink <;> exact Collections.OrderedDict.mem_keys.mpr ⟨_, documents⟩

/-! ### What a move does to the writes and the stores -/

/-- A move leaves the stores alone, calls one of them, or makes a write land. -/
theorem Moved.stores (moved : Moved setup system move later) (stored : Stored setup system) :
    (later.writes = system.writes ∧ later.mongo = system.mongo ∧ later.elastic = system.elastic) ∨
    (∃ sink event, later.writes = system.writes ++ [⟨sink, event, false⟩] ∧
      later.mongo = system.mongo ∧ later.elastic = system.elastic ∧
      (sink = .elasticsearch → ⟨.mongodb, event, true⟩ ∈ system.writes)) ∨
    ∃ index write, system.writes[index]? = some write ∧
      later = { system.land setup write with
        writes := system.writes.set index { write with landed := true } } := by
  cases moved with
  | beat => exact .inr (.inl ⟨.mongodb, _, rfl, rfl, rfl, nofun⟩)
  | @stored consumer message rest index stands landed =>
      exact .inr (.inl ⟨.elasticsearch, message.event, rfl, rfl, rfl,
        fun _ => stored.returns stands landed⟩)
  | landed called => exact .inr (.inr ⟨_, _, called, rfl⟩)
  | _ => exact .inl ⟨rfl, rfl, rfl⟩

theorem sourced_create : Sourced setup System.create where
  present sink eventId member := by cases sink <;> cases member
  ordered := by simp [System.create]

/-- More writes, and the same documents. -/
theorem Sourced.of_more (sourced : Sourced setup system)
    (stores : later.mongo = system.mongo ∧ later.elastic = system.elastic)
    (writes : system.writes ⊆ later.writes)
    (ordered : ∀ event landed, ⟨.elasticsearch, event, landed⟩ ∈ later.writes →
      ⟨.mongodb, event, true⟩ ∈ system.writes) : Sourced setup later where
  present sink eventId member := by
    have before : eventId ∈ system.ids sink := by
      cases sink <;> simpa [ids, stores] using member
    obtain ⟨event, landed, named, documents⟩ := sourced.present sink eventId before
    refine ⟨event, writes landed, named, ?_⟩
    cases sink <;> simpa [Documents, stores] using documents
  ordered event landed member := writes (ordered event landed member)

/-- The ids of a store after a write has landed. -/
theorem ids_land (setup : Setup) (system : System) (write : Write) {sink : Sink} {eventId : String}
    (member : eventId ∈ (system.land setup write).ids sink) :
    (eventId = write.event.eventId ∧ sink = write.sink) ∨ eventId ∈ system.ids sink := by
  obtain ⟨landing, event, landed⟩ := write
  by_cases same : eventId = event.eventId
  · cases landing <;> cases sink <;> simp_all [ids, System.land]
  · cases landing <;> cases sink <;>
      simp_all [ids, System.land, Collections.OrderedDict.mem_keys, Event.toDocument]

/-- A write lands. -/
theorem Sourced.landed (sourced : Sourced setup system) {index : ℕ} {write : Write}
    (called : system.writes[index]? = some write) :
    Sourced setup { system.land setup write with
      writes := system.writes.set index { write with landed := true } } := by
  have inside : index < system.writes.length := (List.getElem?_eq_some_iff.mp called).1
  refine ⟨fun sink eventId member => ?_, fun event flag member => ?_⟩
  · obtain ⟨replaced, others⟩ := documents_land setup system write eventId
    by_cases mine : eventId = write.event.eventId ∧ sink = write.sink
    · obtain ⟨named, rfl⟩ := mine
      exact ⟨write.event, List.mem_set inside _, named.symm, replaced named⟩
    · have before := (ids_land setup system write member).resolve_left mine
      obtain ⟨event, landed, named, documents⟩ := sourced.present sink eventId before
      exact ⟨event, landed_stays called landed, named, others event sink documents mine⟩
  · apply landed_stays called
    obtain ⟨landing, written, landed⟩ := write
    rcases List.mem_or_eq_of_mem_set member with old | new
    · exact sourced.ordered event flag old
    · cases new
      exact sourced.ordered written landed (List.mem_of_getElem? called)

theorem Sourced.moved (sourced : Sourced setup system) (stored : Stored setup system)
    (moved : Moved setup system move later) : Sourced setup later := by
  rcases moved.stores stored with
    ⟨writes, stores⟩ | ⟨sink, event, writes, mongo, elastic, after⟩ | ⟨index, write, called, rfl⟩
  · apply sourced.of_more stores
    · rw [writes]
      exact List.Subset.refl _
    · rw [writes]
      exact sourced.ordered
  · apply sourced.of_more ⟨mongo, elastic⟩
    · rw [writes]
      exact List.subset_append_left _ _
    · intro other landed member
      rw [writes] at member
      rcases List.mem_append.mp member with old | new
      · exact sourced.ordered other landed old
      · cases List.mem_singleton.mp new
        exact after rfl
  · exact sourced.landed called

theorem sourced_run (setup : Setup) (moves : List Move) : Sourced setup (run setup moves) := by
  induction moves using List.reverseRecOn with
  | nil => exact sourced_create
  | append_singleton moves move ih =>
      rw [run_snoc]
      apply ih.moved (stored_run setup moves)
      exact next_moved (driven_run setup moves).linked move

/-- Every id in the index is in the collection, in every state that a run reaches: each consumer
writes to MongoDB first, and a write that raised is not followed by the next one. -/
theorem no_phantom_search_results (setup : Setup) (moves : List Move) :
    (run setup moves).elastic.keys ⊆ (run setup moves).mongo.keys := by
  intro eventId indexed
  have sourced := sourced_run setup moves
  obtain ⟨event, landed, rfl, -⟩ := sourced.present .elasticsearch eventId indexed
  have written := sourced.ordered event true landed
  obtain ⟨-, stored, -, -, documents⟩ := (stored_run setup moves).stored .mongodb event written
  have here : event.eventId ∈ (run setup moves).ids .mongodb := mem_ids_of_documents documents
  exact here

/-! ### Two schedules -/

/-- The message of the event was removed by `delete`: this is what a consumer does once both writes
have returned, as long as its handle is live. -/
def Acked (setup : Setup) (system : System) (event : Event) : Prop :=
  ∃ earlier handle later messageId entry,
    calls system.past = earlier ++ .delete handle :: later ∧
    (reached setup.host setup.queue earlier).inflight.get? handle = some messageId ∧
    (reached setup.host setup.queue earlier).entries.get? messageId = some entry ∧
    entry.event = event

/-- Every document in either store is that of the one event that was sent with its id.  No write of
another event, late or repeated, has left anything of its own behind. -/
def Faithful (setup : Setup) (events : List Event) (system : System) : Prop :=
  ∀ sink, ∀ eventId ∈ system.ids sink, ∃ event, .send event ∈ calls system.past ∧
    event.eventId = eventId ∧ (∀ other ∈ events, other.eventId = eventId → other = event) ∧
    Documents setup system eventId event sink

variable {events : List Event} {moves : List Move}

theorem faithful_run (distinct : (events.map Event.eventId).Nodup)
    (sent : ∀ event, .send event ∈ calls (run setup moves).past → event ∈ events) :
    Faithful setup events (run setup moves) := by
  intro sink eventId member
  obtain ⟨event, landed, named, documents⟩ := (sourced_run setup moves).present sink eventId member
  have known := (stored_run setup moves).sent _ landed
  refine ⟨event, known, named, fun other listed same => ?_, documents⟩
  exact List.inj_on_of_nodup_map distinct listed (sent event known) (same.trans named.symm)

/-- Both writes of an event have landed, and no other event was sent with its id, so that what they
left in the stores is still there. -/
structure Written (setup : Setup) (moves : List Move) (event : Event) : Prop where
  landed : ∀ sink, ⟨sink, event, true⟩ ∈ (run setup moves).writes
  own : ∀ other, .send other ∈ calls (run setup moves).past → other.eventId = event.eventId →
    other = event

/-- An event that was written has its own document in both stores. -/
theorem Written.documents {event : Event} (written : Written setup moves event) (sink : Sink) :
    Documents setup (run setup moves) event.eventId event sink := by
  obtain ⟨-, stored, known, named, documents⟩ :=
    (stored_run setup moves).stored sink event (written.landed sink)
  rw [written.own stored known named] at documents
  exact documents

/-- An acked event has its own document in both stores. -/
theorem documents_of_acked (distinct : (events.map Event.eventId).Nodup)
    (sent : ∀ event, .send event ∈ calls (run setup moves).past → event ∈ events) {event : Event}
    (listed : event ∈ events) (acked : Acked setup (run setup moves) event) (sink : Sink) :
    Documents setup (run setup moves) event.eventId event sink := by
  obtain ⟨earlier, handle, later, messageId, entry, split, lent, found, same⟩ := acked
  obtain ⟨-, stored, known, named, documents⟩ :=
    in_both_stores setup moves split lent found same sink
  cases List.inj_on_of_nodup_map distinct (sent stored known) listed named
  exact documents

/-- When every event is acked, either store has one document for each of them and no other. -/
theorem ids_of_acked (distinct : (events.map Event.eventId).Nodup)
    (sent : ∀ event, .send event ∈ calls (run setup moves).past → event ∈ events)
    (acked : ∀ event ∈ events, Acked setup (run setup moves) event) (sink : Sink) :
    ((run setup moves).ids sink).Perm (events.map Event.eventId) := by
  have nodup : ((run setup moves).ids sink).Nodup := by
    cases sink <;> exact Collections.OrderedDict.nodup_keys _
  rw [List.perm_ext_iff_of_nodup nodup distinct]
  intro eventId
  rw [List.mem_map]
  constructor
  · intro member
    obtain ⟨event, known, named, -⟩ := faithful_run distinct sent sink eventId member
    exact ⟨event, sent event known, named⟩
  · rintro ⟨event, listed, rfl⟩
    exact mem_ids_of_documents (documents_of_acked distinct sent listed (acked event listed) sink)

/-- Two stores that have the documents of the same events, and no others, have the same contents. -/
theorem contents_agree {other : Setup} (dumps : setup.host.modelDump = other.host.modelDump)
    {system otherSystem : System}
    (documents : ∀ event ∈ events, ∀ sink, Documents setup system event.eventId event sink)
    (otherDocuments : ∀ event ∈ events, ∀ sink,
      Documents other otherSystem event.eventId event sink)
    (ids : ∀ sink, (system.ids sink).Perm (events.map Event.eventId))
    (otherIds : ∀ sink, (otherSystem.ids sink).Perm (events.map Event.eventId)) (eventId : String) :
    system.mongo.get? eventId = otherSystem.mongo.get? eventId ∧
      system.elastic.get? eventId = otherSystem.elastic.get? eventId := by
  by_cases listed : eventId ∈ events.map Event.eventId
  · obtain ⟨event, member, rfl⟩ := List.mem_map.mp listed
    constructor
    · exact (documents event member .mongodb).trans (otherDocuments event member .mongodb).symm
    · have indexed : system.elastic.get? event.eventId = _ := documents event member .elasticsearch
      rw [indexed, dumps]
      exact (otherDocuments event member .elasticsearch).symm
  · have absent : ∀ sink, eventId ∉ system.ids sink ∧ eventId ∉ otherSystem.ids sink :=
      fun sink => ⟨fun here => listed ((ids sink).mem_iff.mp here),
        fun here => listed ((otherIds sink).mem_iff.mp here)⟩
    constructor
    · rw [Collections.OrderedDict.get?_eq_none.mpr (absent .mongodb).1,
        Collections.OrderedDict.get?_eq_none.mpr (absent .mongodb).2]
    · rw [Collections.OrderedDict.get?_eq_none.mpr (absent .elasticsearch).1,
        Collections.OrderedDict.get?_eq_none.mpr (absent .elasticsearch).2]

/-- What a prefix of a run sends, the run sends. -/
theorem sent_before {before after : List Move} (split : moves = before ++ after)
    (sent : ∀ event, .send event ∈ calls (run setup moves).past → event ∈ events) :
    ∀ event, .send event ∈ calls (run setup before).past → event ∈ events := by
  intro event member
  apply sent
  obtain ⟨later, grown⟩ := callsBy_grows setup before after
  rw [split, calls, grown, List.map_append]
  exact List.mem_append_left _ member

/-- What the stores contain does not depend on the schedule.  Two workers with any settings take any
moves and send events with distinct ids, over the same pydantic.  At every moment every document is
that of the one event with its id; and when both have acked every event, the stores of one have the
same contents as those of the other, one document for each event. -/
theorem contents_do_not_depend_on_schedule (setup other : Setup)
    (dumps : setup.host.modelDump = other.host.modelDump) (events : List Event)
    (distinct : (events.map Event.eventId).Nodup) (moves otherMoves : List Move)
    (sent : ∀ event, .send event ∈ calls (run setup moves).past → event ∈ events)
    (otherSent : ∀ event, .send event ∈ calls (run other otherMoves).past → event ∈ events) :
    (∀ before after, moves = before ++ after → Faithful setup events (run setup before)) ∧
    (∀ before after, otherMoves = before ++ after → Faithful other events (run other before)) ∧
    ((∀ event ∈ events, Acked setup (run setup moves) event) →
      (∀ event ∈ events, Acked other (run other otherMoves) event) →
      (∀ eventId,
        (run setup moves).mongo.get? eventId = (run other otherMoves).mongo.get? eventId ∧
        (run setup moves).elastic.get? eventId = (run other otherMoves).elastic.get? eventId) ∧
      ∀ sink, ((run setup moves).ids sink).Perm (events.map Event.eventId) ∧
        ((run other otherMoves).ids sink).Perm (events.map Event.eventId)) := by
  refine ⟨fun before after split => ?_, fun before after split => ?_, fun acked otherAcked => ?_⟩
  · exact faithful_run distinct (sent_before split sent)
  · exact faithful_run distinct (sent_before split otherSent)
  · have ids := ids_of_acked distinct sent acked
    have otherIds := ids_of_acked distinct otherSent otherAcked
    refine ⟨?_, fun sink => ⟨ids sink, otherIds sink⟩⟩
    apply contents_agree dumps _ _ ids otherIds
    · intro event listed
      exact documents_of_acked distinct sent listed (acked event listed)
    · intro event listed
      exact documents_of_acked distinct otherSent listed (otherAcked event listed)

/-- The first write of an event fails and lands after the event was acked. -/
def lateWrite : List Move :=
  oneFailure ++ [.turn 0 none 40 40 40, .heartbeat 0 40, .land 1, .returned 0, .land 2, .returned 0,
    .ack 0, .land 0]

theorem a_late_write_changes_nothing :
    (run (sampleSetup {} { concurrency := 1 }) oneEventRun).mongo.get? "a" =
        (run oneFailureSetup lateWrite).mongo.get? "a" ∧
      (run (sampleSetup {} { concurrency := 1 }) oneEventRun).elastic.get? "a" =
        (run oneFailureSetup lateWrite).elastic.get? "a" := by
  have calledOnce : calls (run (sampleSetup {} { concurrency := 1 }) oneEventRun).past =
      [.send (sampleEvent "a"), .receive 10 none 0 0, .changeVisibility "11" 30 0,
        .delete "11"] := by
    with_unfolding_all rfl
  have calledTwice : calls (run oneFailureSetup lateWrite).past =
      [.send (sampleEvent "a"), .receive 10 none 0 0, .changeVisibility "11" 30 0, .fail "11" 0,
        .receive 1 none 40 40, .changeVisibility "111" 30 40, .delete "111"] := by
    with_unfolding_all rfl
  apply ((contents_do_not_depend_on_schedule (sampleSetup {} { concurrency := 1 }) oneFailureSetup rfl
    [sampleEvent "a"] (by simp) oneEventRun lateWrite ?_ ?_).2.2 ?_ ?_).1
  · simp [calledOnce]
  · simp [calledTwice]
  · intro event listed
    cases List.mem_singleton.mp listed
    refine ⟨[.send (sampleEvent "a"), .receive 10 none 0 0, .changeVisibility "11" 30 0], "11", [],
      "1", ⟨sampleEvent "a", 1, some "11", 30⟩, calledOnce, ?_, ?_, rfl⟩
    · with_unfolding_all rfl
    · with_unfolding_all rfl
  · intro event listed
    cases List.mem_singleton.mp listed
    refine ⟨[.send (sampleEvent "a"), .receive 10 none 0 0, .changeVisibility "11" 30 0,
      .fail "11" 0, .receive 1 none 40 40, .changeVisibility "111" 30 40], "111", [], "1",
      ⟨sampleEvent "a", 2, some "111", 70⟩, calledTwice, ?_, ?_, rfl⟩
    · with_unfolding_all rfl
    · with_unfolding_all rfl

end FeathrEvents.System
