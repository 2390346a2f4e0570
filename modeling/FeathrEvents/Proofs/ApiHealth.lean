/-
Module: FeathrEvents.Proofs.ApiHealth
Purpose: What stays as the API goes on, and what the depths on `/health` say about every receipt that was
  given so far.
Trusted boundary: none
Main exports: InMemoryEventQueue.depth_exact, System.ids_next, Api.Issued.goes_on, Api.ids_grow,
  Api.post_stays, Api.answered_stays, Api.ids_after_question, Api.Issued.documents,
  Api.missing, Api.Issued.depth, Api.health_accounts_for_every_receipt
-/
import FeathrEvents.Lib.Polling
import FeathrEvents.Proofs.ApiReceipts
import FeathrEvents.Proofs.QueueRepresentation

namespace FeathrEvents

open Collections (OrderedDict)

namespace InMemoryEventQueue

variable {host : Host} {queue : InMemoryEventQueue}

/-- Every message waits or is lent, and not both: the two depths add up to the messages that the process
holds. -/
theorem depth_exact (linked : Linked host queue) (placed : Placed queue) :
    queue.visible.length + queue.inflight.size = queue.entries.size := by
  have lentOnce : queue.inflight.values.Nodup := by
    apply List.Nodup.map_on _ (List.Nodup.of_map Prod.fst queue.inflight.distinct)
    rintro ⟨first, messageId⟩ one ⟨second, other⟩ two same
    have sameId : messageId = other := same
    subst sameId
    rw [linked.inflight_injective (OrderedDict.get?_eq_some.mpr one) (OrderedDict.get?_eq_some.mpr two)]
  have apart : queue.visible.Disjoint queue.inflight.values := by
    intro messageId waits lent
    obtain ⟨handle, live⟩ := OrderedDict.mem_values.mp lent
    exact linked.not_visible live waits
  have both : (queue.visible ++ queue.inflight.values).Perm queue.entries.keys := by
    apply (List.perm_ext_iff_of_nodup (linked.visibleNodup.append lentOnce apart)
      (OrderedDict.nodup_keys _)).mpr
    intro messageId
    constructor
    · intro member
      rcases List.mem_append.mp member with waits | lent
      · obtain ⟨entry, stored, -⟩ := linked.visibleEntry messageId waits
        exact OrderedDict.mem_keys.mpr ⟨entry, stored⟩
      · obtain ⟨handle, live⟩ := OrderedDict.mem_values.mp lent
        obtain ⟨entry, stored, -⟩ := linked.inflightEntry handle messageId live
        exact OrderedDict.mem_keys.mpr ⟨entry, stored⟩
    · intro known
      exact List.mem_append.mpr (placed messageId known)
  have lengths := both.length_eq
  rw [List.length_append, OrderedDict.values, OrderedDict.keys, List.length_map, List.length_map] at lengths
  exact lengths

end InMemoryEventQueue

namespace System

open InMemoryEventQueue (history reached deadLetters deletedBy)

/-- No move takes a document out of a store. -/
theorem ids_next (setup : Setup) (moves : List Move) (move : Move) (sink : Sink) :
    (run setup moves).ids sink ⊆ ((run setup moves).next setup move).ids sink := by
  intro eventId listed
  have moved := next_moved (driven_run setup moves).linked move
  have stored := stored_run setup moves
  obtain ⟨event, -, -, documents⟩ := (sourced_run setup moves).present sink eventId listed
  generalize run setup moves = system at *
  generalize system.next setup move = later at *
  rcases moved.stores stored with
    ⟨-, mongo, elastic⟩ | ⟨_, _, -, mongo, elastic, -⟩ | ⟨index, write, called, rfl⟩
  · cases sink <;> simpa [ids, mongo, elastic] using listed
  · cases sink <;> simpa [ids, mongo, elastic] using listed
  · obtain ⟨replaced, others⟩ := documents_land setup system write eventId
    have landed : eventId ∈ (system.land setup write).ids sink := by
      by_cases mine : eventId = write.event.eventId ∧ sink = write.sink
      · obtain ⟨named, rfl⟩ := mine
        exact mem_ids_of_documents (replaced named)
      · exact mem_ids_of_documents (others event sink documents mine)
    cases sink <;> exact landed

/-- An accepted event is still there, was dead-lettered, or is in both stores. -/
theorem balance_of_accepted (setup : Setup) (serialises : setup.host.Serialises) (moves : List Move)
    {event : Event} (listed : event ∈ acceptedEvents setup (run setup moves).past) :
    event ∈ (run setup moves).queue.pendingEvents ∨
      event ∈ deadLetters setup.host setup.queue
        (history setup.host setup.queue (calls (run setup moves).past)) ∨
      ∀ sink, InStore setup (run setup moves) sink event := by
  have driven := driven_run setup moves
  have balance := InMemoryEventQueue.balance_reached setup.queue serialises
    (calls (run setup moves).past) driven.port
  have counted : event ∈ (acceptedEvents setup (run setup moves).past : Multiset Event) :=
    Multiset.mem_coe.mpr listed
  rw [acceptedEvents, balance, ← driven.queue] at counted
  rcases Multiset.mem_add.mp counted with here | dead
  · rcases Multiset.mem_add.mp here with waits | removed
    · exact .inl (Multiset.mem_coe.mp waits)
    · obtain ⟨⟨queue, call⟩, visited, gone⟩ := List.mem_filterMap.mp (Multiset.mem_coe.mp removed)
      obtain ⟨before, after, split, same⟩ := InMemoryEventQueue.mem_history visited
      simp only at same split
      subst same
      obtain ⟨messageId, acked, found⟩ := Option.bind_eq_some_iff.mp gone
      obtain ⟨entry, stored, named⟩ := Option.map_eq_some_iff.mp found
      obtain ⟨handle, -, -, rfl, lent, -⟩ := InMemoryEventQueue.acked_held
        (InMemoryEventQueue.linked_reached setup.host setup.queue before) acked
      exact .inr (.inr fun sink => in_both_stores setup moves split lent stored named sink)
  · exact .inr (.inl (Multiset.mem_coe.mp dead))

/-- As long as the dead-letter queue is not full, it has whatever was dead-lettered. -/
theorem deadLetters_of_room (setup : Setup) (serialises : setup.host.Serialises) (moves : List Move)
    (room : (run setup moves).queue.dlq.items.length < dlqMaxlen) :
    deadLetters setup.host setup.queue (history setup.host setup.queue (calls (run setup moves).past)) =
      (run setup moves).queue.dlq.items := by
  have driven := driven_run setup moves
  have kept := InMemoryEventQueue.dlq_reached setup.queue serialises (calls (run setup moves).past)
    driven.port
  rw [← driven.queue] at kept
  rw [kept, List.rtake, List.length_drop] at room
  have none : (deadLetters setup.host setup.queue
      (history setup.host setup.queue (calls (run setup moves).past))).length - dlqMaxlen = 0 := by
    omega
  rw [kept, List.rtake, none, List.drop_zero]

end System

namespace Api

variable {surround : Surround} {api : Api}

/-! ### What stays -/

theorem Issued.goes_on (issued : Issued surround api) (moves : List ApiMove) :
    Issued surround (Machine.run (Api.next surround) api moves) :=
  Machine.run_invariant (Api.next surround) (Issued surround) (fun _ => True) issued
    (fun api move _ issued => issued.moved (next_moved surround api move)) moves fun _ _ => trivial

theorem ids_moved (issued : Issued surround api) {move : ApiMove} {later : Api}
    (moved : Moved surround api move later) (sink : Sink) :
    api.system.ids sink ⊆ later.system.ids sink := by
  obtain ⟨worked, ran⟩ := issued.ran
  have grows : ∀ move : FeathrEvents.Move,
      api.system.ids sink ⊆ (api.system.next surround.setup move).ids sink := by
    intro move
    rw [ran]
    exact System.ids_next surround.setup worked move sink
  cases moved with
  | idle | arrived | read | declined => exact List.Subset.refl _
  | accepted | full => exact grows _
  | worked => exact grows _

/-- What is in a store stays there. -/
theorem ids_grow (issued : Issued surround api) (moves : List ApiMove) (sink : Sink) :
    api.system.ids sink ⊆ (Machine.run (Api.next surround) api moves).system.ids sink := by
  induction moves using List.reverseRecOn with
  | nil => exact List.Subset.refl _
  | append_singleton moves move ih =>
      rw [Machine.run_snoc]
      exact List.Subset.trans ih (ids_moved (issued.goes_on moves) (next_moved surround _ move) sink)

/-- A request keeps its place and its body, and the answer that it was given. -/
theorem post_stays (moves : List ApiMove) {index : ℕ} {post : Post}
    (here : api.posts[index]? = some post) :
    ∃ later, (Machine.run (Api.next surround) api moves).posts[index]? = some later ∧
      later.body = post.body ∧ (post.answer ≠ none → later = post) := by
  have kept : ∀ (api : Api) (move : ApiMove) (post : Post), api.posts[index]? = some post →
      ∃ later, (api.next surround move).posts[index]? = some later ∧ later.body = post.body ∧
        (post.answer ≠ none → later = post) := by
    intro api move post here
    have moved := next_moved surround api move
    generalize api.next surround move = later at moved
    have given : ∀ {client body} {waiting : ℕ} (answer : IngestAnswer),
        api.posts[waiting]? = some ⟨client, body, none⟩ →
        ∃ later, (api.posts.set waiting ⟨client, body, some answer⟩)[index]? = some later ∧
          later.body = post.body ∧ (post.answer ≠ none → later = post) := by
      intro client body waiting answer waits
      by_cases same : waiting = index
      · subst same
        rw [here] at waits
        cases waits
        have inside := (List.getElem?_eq_some_iff.mp here).1
        exact ⟨_, List.getElem?_set_self inside, rfl, fun answered => absurd rfl answered⟩
      · rw [List.getElem?_set_ne same, here]
        exact ⟨post, rfl, rfl, fun _ => rfl⟩
    cases moved with
    | idle | read | worked => exact ⟨post, here, rfl, fun _ => rfl⟩
    | arrived =>
        rw [List.getElem?_append_left (List.getElem?_eq_some_iff.mp here).1]
        exact ⟨post, here, rfl, fun _ => rfl⟩
    | declined waits | accepted waits | full waits => exact given _ waits
  induction moves using List.reverseRecOn with
  | nil => exact ⟨post, here, rfl, fun _ => rfl⟩
  | append_singleton moves move ih =>
      obtain ⟨middle, found, body, same⟩ := ih
      rw [Machine.run_snoc]
      obtain ⟨later, there, bodyLater, sameLater⟩ := kept _ move middle found
      refine ⟨later, there, bodyLater.trans body, fun answered => ?_⟩
      obtain rfl := same answered
      exact sameLater answered

/-- A request that was answered stays as it is. -/
theorem answered_stays (surround : Surround) (moves : List ApiMove) {index : ℕ} {post : Post}
    {answer : IngestAnswer} (here : api.posts[index]? = some post) (given : post.answer = some answer) :
    (Machine.run (Api.next surround) api moves).posts[index]? = some post := by
  obtain ⟨later, there, -, same⟩ := post_stays moves here
  have answered : post.answer ≠ none := by simp [given]
  exact same answered ▸ there

/-- What is in a store when a question is answered is there once all are. -/
theorem ids_after_question {τ ε κ : Type*} (issued : Issued surround api)
    {questions earlier later : List (Polling.Question ApiMove τ ε κ)}
    {question : Polling.Question ApiMove τ ε κ} (split : questions = earlier ++ question :: later)
    (sink : Sink) :
    (Machine.run (Api.next surround) api (Polling.moves earlier ++ question.before)).system.ids sink ⊆
      (Machine.run (Api.next surround) api (Polling.moves questions)).system.ids sink := by
  rw [split, Polling.run_moves]
  exact ids_grow (issued.goes_on _) (Polling.moves later) sink

/-! ### What is in a store -/

/-- What a store has under the id of an accepted event is its document. -/
theorem Issued.documents (issued : Issued surround api) {event : Event}
    (accepted : event ∈ acceptedEvents surround.setup api.system.past) {sink : Sink}
    (listed : event.eventId ∈ api.system.ids sink) :
    System.Documents surround.setup api.system event.eventId event sink := by
  obtain ⟨other, known, same, documents⟩ := issued.documented listed
  -- the id was given to one event only
  have equal : other = event := List.inj_on_of_nodup_map issued.accepted_nodup known accepted same
  exact equal ▸ documents

/-- The documents in MongoDB are under their own ids. -/
theorem Issued.id_of_document (issued : Issued surround api) {eventId : String}
    {document : Document}
    (found : api.system.mongo.get? eventId = some document) : document.id = eventId := by
  have listed : eventId ∈ api.system.ids .mongodb := OrderedDict.mem_keys.mpr ⟨document, found⟩
  obtain ⟨event, -, rfl, documents⟩ := issued.documented listed
  cases found.symm.trans documents
  rfl

/-- Whatever is indexed was stored before. -/
theorem Issued.stored_of_indexed (issued : Issued surround api) {eventId : String}
    (indexed : eventId ∈ api.system.ids .elasticsearch) : eventId ∈ api.system.ids .mongodb := by
  obtain ⟨worked, ran⟩ := issued.ran
  rw [ran] at indexed ⊢
  have sourced := System.sourced_run surround.setup worked
  obtain ⟨event, landed, rfl, -⟩ := sourced.present .elasticsearch eventId indexed
  obtain ⟨-, stored, -, -, documents⟩ := (System.stored_run surround.setup worked).stored .mongodb event
    (sourced.ordered event true landed)
  exact System.mem_ids_of_documents documents

/-! ### Health -/

/-- The ids that were answered with a 202 and are not in both stores: what the process still owes to
its clients. -/
def missing (api : Api) : List String :=
  api.receipts.filter fun eventId =>
    ¬ (eventId ∈ api.system.ids .mongodb ∧ eventId ∈ api.system.ids .elasticsearch)

/-- The event of a receipt that is missing from a store is in the queue, or was dead-lettered. -/
theorem Issued.missing_held (issued : Issued surround api)
    (serialises : surround.setup.host.Serialises)
    (room : api.system.queue.dlq.items.length < dlqMaxlen) {eventId : String}
    (lacks : eventId ∈ api.missing) :
    eventId ∈ (api.system.queue.pendingEvents ++ api.system.queue.dlq.items).map Event.eventId := by
  obtain ⟨given, absent⟩ := List.mem_filter.mp lacks
  obtain ⟨event, accepted, rfl⟩ := List.mem_map.mp (issued.receipts.mem_iff.mp given)
  obtain ⟨worked, ran⟩ := issued.ran
  rw [ran] at accepted absent room ⊢
  apply List.mem_map_of_mem
  rcases System.balance_of_accepted surround.setup serialises worked accepted with waits | dead | both
  · exact List.mem_append_left _ waits
  · rw [System.deadLetters_of_room surround.setup serialises worked room] at dead
    exact List.mem_append_right _ dead
  · exfalso
    have listed : ∀ sink, event.eventId ∈ (System.run surround.setup worked).ids sink := by
      intro sink
      obtain ⟨-, stored, -, -, documents⟩ := both sink
      exact System.mem_ids_of_documents documents
    exact of_decide_eq_true absent ⟨listed _, listed _⟩

/-- The two depths are the messages that the process holds, and never more than its capacity. -/
theorem Issued.depth (issued : Issued surround api) (serialises : surround.setup.host.Serialises) :
    api.system.queue.visible.length + api.system.queue.inflight.size =
        api.system.queue.pendingEvents.length ∧
      api.system.queue.pendingEvents.length ≤ surround.setup.queue.maxsize := by
  obtain ⟨worked, ran⟩ := issued.ran
  have driven := System.driven_run surround.setup worked
  have depth : api.system.queue.visible.length + api.system.queue.inflight.size =
      api.system.queue.entries.size := by
    apply InMemoryEventQueue.depth_exact
    · rw [ran]
      exact driven.linked
    · rw [ran, driven.queue]
      exact InMemoryEventQueue.placed_reached serialises _
  have pending : api.system.queue.pendingEvents.length = api.system.queue.entries.size := by
    simp [InMemoryEventQueue.pendingEvents, OrderedDict.values, OrderedDict.size]
  have bounded : (InMemoryEventQueue.reached surround.setup.host surround.setup.queue
      (calls (System.run surround.setup worked).past)).entries.size ≤ surround.setup.queue.maxsize :=
    InMemoryEventQueue.size_reached _
  rw [← driven.queue, ← ran, ← pending] at bounded
  exact ⟨depth.trans pending.symm, bounded⟩

/-- What `/health` says of the queue accounts for every receipt, in every state that requests and moves of
the worker lead to, when events can be serialised.  The two depths are exactly the events that the process
would take with it, never more than its capacity; and until the dead-letter queue is full, no more events
than waiting, lent and dead-lettered together are missing from a store. -/
theorem health_accounts_for_every_receipt (surround : Surround)
    (serialises : surround.setup.host.Serialises) (limiter : RateLimiter) (moves : List ApiMove) :
    let api := run surround limiter moves
    let stats := api.system.queue.stats surround.setup.queue
    stats.visible + stats.inFlight = api.system.queue.pendingEvents.length ∧
    stats.visible + stats.inFlight ≤ stats.capacity ∧
    (stats.dlq < dlqMaxlen → api.missing.length ≤ stats.visible + stats.inFlight + stats.dlq) := by
  intro api stats
  have issued : Issued surround api := issued_run surround limiter moves
  obtain ⟨depth, bounded⟩ := issued.depth serialises
  refine ⟨depth, depth.trans_le bounded, fun room => ?_⟩
  have once : api.missing.Nodup := (issued.receipts.nodup_iff.mpr issued.accepted_nodup).filter _
  have few := once.length_le_of_subset fun eventId lacks => issued.missing_held serialises room lacks
  rw [List.length_map, List.length_append, ← depth] at few
  exact few

/-- One receipt was given, and its event is in one store and in the hand of a consumer. -/
theorem the_event_in_hand_is_accounted_for :
    let api := run oneConsumer (.create 100 100 10) onePosted
    let stats := api.system.queue.stats oneConsumer.setup.queue
    api.missing = ["1"] ∧ stats.inFlight = 1 ∧
      api.missing.length ≤ stats.visible + stats.inFlight + stats.dlq := by
  intro api stats
  refine ⟨by with_unfolding_all rfl, by with_unfolding_all rfl, ?_⟩
  exact (health_accounts_for_every_receipt oneConsumer (fun _ => rfl) (.create 100 100 10) onePosted).2.2
    (by with_unfolding_all decide)

end Api

end FeathrEvents
