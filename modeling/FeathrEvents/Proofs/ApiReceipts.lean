/-
Module: FeathrEvents.Proofs.ApiReceipts
Purpose: A 202 is a receipt: no id is given out twice, the event behind each one waits in the queue, is
  in the log or is in both stores as it was posted, and nothing else is anywhere.
Trusted boundary: none
Main exports: Api.Issued, Api.issued_run, Api.made_of_accepted, Api.Kept, Api.receipts_are_honoured,
  Api.refusals_leave_no_trace
-/
import FeathrEvents.Proofs.ApiMoves

namespace FeathrEvents

open InMemoryEventQueue (DeadLetteredInLog acceptedBy)

/-- Replacing an element that reports nothing adds the report of the new one. -/
theorem filterMap_set_perm {α β : Type*} {report : α → Option β} {list : List α} {index : ℕ}
    {old : α} (here : list[index]? = some old) (silent : report old = none) (fresh : α) :
    ((list.set index fresh).filterMap report).Perm
      (list.filterMap report ++ (report fresh).toList) := by
  induction list generalizing index with
  | nil => cases here
  | cons head tail ih =>
      cases index with
      | zero =>
          cases here
          cases shape : report fresh with
          | none => simp [silent, shape]
          | some value => simpa [silent, shape] using (List.perm_append_singleton value _).symm
      | succ index =>
          have rest := ih here
          cases shape : report head with
          | none => simpa [shape] using rest
          | some value => simpa [shape] using rest.cons value

namespace Api

variable {surround : Surround} {api later : Api} {move : ApiMove}

/-- What the receipts, the ids and the events behind them say about each other: ids are drawn in
order, one for each event that is sent, and every receipt has the id of an event that was accepted. -/
structure Issued (surround : Surround) (api : Api) : Prop where
  ran : ∃ moves, api.system = System.run surround.setup moves
  numbered : (sentEvents api.system.past).map Event.eventId =
    (List.range api.drawn).map surround.eventIds
  answered : ∀ post ∈ api.posts, ∀ eventId, post.answer = some (.accepted eventId) →
    ∃ event ∈ acceptedEvents surround.setup api.system.past,
      event.eventId = eventId ∧ MadeFrom surround post.body event
  receipts : api.receipts.Perm ((acceptedEvents surround.setup api.system.past).map Event.eventId)

theorem issued_start (surround : Surround) (limiter : RateLimiter) :
    Issued surround (Api.start limiter) where
  ran := ⟨[], rfl⟩
  numbered := rfl
  answered := by simp [Api.start]
  receipts := .nil

/-- The answers that a request without a receipt is given keep the receipts. -/
theorem Issued.of_posts (issued : Issued surround api) {posts : List Post} {limiter : RateLimiter}
    (older : ∀ post ∈ posts, ∀ eventId, post.answer = some (.accepted eventId) → post ∈ api.posts)
    (same : (posts.filterMap fun post => post.answer.bind IngestAnswer.eventId?).Perm api.receipts) :
    Issued surround { api with limiter := limiter, posts := posts } where
  ran := issued.ran
  numbered := issued.numbered
  answered post member eventId answer :=
    issued.answered post (older post member eventId answer) eventId answer
  receipts := same.trans issued.receipts

/-- A request is answered with `answer` where its event was sent; the receipt is there exactly when the
queue took the event. -/
theorem Issued.sent (issued : Issued surround api) {index : ℕ} {client : String}
    {body : Option Payload} (waits : api.posts[index]? = some ⟨client, body, none⟩) {event : Event}
    (named : event.eventId = surround.eventIds api.drawn) (answer : IngestAnswer)
    (answers : answer.eventId? = (acceptedBy surround.setup.host surround.setup.queue
      api.system.queue (.send event)).map Event.eventId)
    (made : ∀ eventId, answer = .accepted eventId → event.eventId = eventId ∧
      MadeFrom surround body event) :
    Issued surround { api with
      system := api.system.next surround.setup (.send event)
      drawn := api.drawn + 1
      posts := api.posts.set index ⟨client, body, some answer⟩ } := by
  obtain ⟨moves, ran⟩ := issued.ran
  have driven : System.Driven surround.setup api.system := ran ▸ System.driven_run surround.setup moves
  obtain ⟨grown, sent⟩ := System.accepted_of_send driven event
  have older := System.accepted_grows driven (.send event)
  refine ⟨⟨moves ++ [.send event], ?_⟩, ?_, ?_, ?_⟩
  · rw [System.run_snoc, ran]
  · rw [sent, List.map_append, issued.numbered, List.range_succ, List.map_append, List.map_singleton,
      List.map_singleton, named]
  · intro post member eventId accepted
    rcases List.mem_or_eq_of_mem_set member with old | rfl
    · obtain ⟨known, listed, rest⟩ := issued.answered post old eventId accepted
      exact ⟨known, older listed, rest⟩
    · cases accepted
      obtain ⟨rfl, fresh⟩ := made eventId rfl
      refine ⟨event, ?_, rfl, fresh⟩
      rw [grown]
      -- the answer has an id only because the queue took the event
      cases took : acceptedBy surround.setup.host surround.setup.queue api.system.queue
          (.send event) with
      | none =>
          rw [took] at answers
          cases answers
      | some other =>
          have same : other = event := by
            simp only [acceptedBy] at took
            split at took
            · exact (Option.some.inj took).symm
            · cases took
          simp [same]
  · have silent : (fun post : Post => post.answer.bind IngestAnswer.eventId?)
        ⟨client, body, none⟩ = none := rfl
    rw [grown, List.map_append]
    apply (filterMap_set_perm waits silent _).trans
    apply issued.receipts.append
    rw [Option.bind_some, answers]
    cases acceptedBy surround.setup.host surround.setup.queue api.system.queue (.send event) <;> simp

theorem Issued.moved (issued : Issued surround api) (moved : Moved surround api move later) :
    Issued surround later := by
  cases moved with
  | idle => exact issued
  | arrived client body now loggedAt =>
      generalize api.limiter.answer maxClients ⟨client, .write, now⟩ loggedAt = answered
      obtain ⟨answer, limiter⟩ := answered
      apply issued.of_posts
      · intro post member eventId accepted
        rcases List.mem_append.mp member with old | new
        · exact old
        · cases List.mem_singleton.mp new
          cases answer <;> cases accepted
      · unfold Api.receipts
        rw [List.filterMap_append]
        cases answer <;>
          simp only [IngestAnswer.ofLimiter, List.filterMap_cons, List.filterMap_nil,
            Option.bind_none, Option.bind_some, IngestAnswer.eventId?, List.append_nil] <;>
          exact .refl _
  | read => exact issued.of_posts (fun post member _ _ => member) (.refl _)
  | @declined index _ _ client body waits answer early =>
      apply issued.of_posts
      · intro post member eventId accepted
        rcases List.mem_or_eq_of_mem_set member with old | rfl
        · exact old
        · cases accepted
          cases early.1
      · apply (filterMap_set_perm waits rfl _).trans
        simp [early.1, Api.receipts]
  | accepted waits event named made room =>
      apply issued.sent waits named (.accepted event.eventId)
      · rw [room]
        rfl
      · rintro eventId same
        cases same
        exact ⟨rfl, _, _, made⟩
  | full waits event named refused =>
      apply issued.sent waits named .queueFull
      · rw [refused.2]
        rfl
      · rintro eventId same
        cases same
  | worked move notSend =>
      obtain ⟨moves, ran⟩ := issued.ran
      have driven : System.Driven surround.setup api.system :=
        ran ▸ System.driven_run surround.setup moves
      obtain ⟨accepted, sent⟩ := (System.next_moved driven.linked move).accepts notSend
      refine ⟨⟨moves ++ [move], by rw [System.run_snoc, ran]⟩, ?_, ?_, ?_⟩
      · rw [sent]
        exact issued.numbered
      · rw [accepted]
        exact issued.answered
      · rw [accepted]
        exact issued.receipts

theorem issued_run (surround : Surround) (limiter : RateLimiter) (moves : List ApiMove) :
    Issued surround (run surround limiter moves) :=
  Machine.run_invariant (Api.next surround) (Issued surround) (fun _ => True)
    (issued_start surround limiter)
    (fun api move _ issued => issued.moved (next_moved surround api move)) moves fun _ _ => trivial

/-- Every accepted event was made in a move of the run, at the readings that the move took. -/
theorem made_of_accepted (surround : Surround) (limiter : RateLimiter) (moves : List ApiMove)
    {event : Event}
    (listed : event ∈ acceptedEvents surround.setup (run surround limiter moves).system.past) :
    ∃ post validatedAt stampedAt body, .handle post validatedAt stampedAt ∈ moves ∧
      MadeAt surround body validatedAt stampedAt event := by
  induction moves using List.reverseRecOn with
  | nil => cases listed
  | append_singleton moves move ih =>
      have earlier : event ∈ acceptedEvents surround.setup (run surround limiter moves).system.past →
          ∃ post validatedAt stampedAt body, .handle post validatedAt stampedAt ∈ moves ++ [move] ∧
            MadeAt surround body validatedAt stampedAt event := by
        intro old
        obtain ⟨post, validatedAt, stampedAt, body, member, made⟩ := ih old
        exact ⟨post, validatedAt, stampedAt, body, List.mem_append_left _ member, made⟩
      obtain ⟨worked, ran⟩ := (issued_run surround limiter moves).ran
      have driven : System.Driven surround.setup (run surround limiter moves).system :=
        ran ▸ System.driven_run surround.setup worked
      have moved := next_moved surround (run surround limiter moves) move
      rw [run_snoc] at listed
      generalize (run surround limiter moves).next surround move = later at moved listed
      cases moved with
      | @accepted index validatedAt stampedAt client body waits made named madeAt room =>
          rw [(System.accepted_of_send driven made).1, room] at listed
          rcases List.mem_append.mp listed with old | new
          · exact earlier old
          · cases List.mem_singleton.mp new
            exact ⟨index, validatedAt, stampedAt, body,
              List.mem_append_right _ (List.mem_singleton_self _), madeAt⟩
      | full waits made named refused =>
          rw [(System.accepted_of_send driven made).1, refused.2] at listed
          simp only [Option.toList_none, List.append_nil] at listed
          exact earlier listed
      | worked move notSend =>
          rw [((System.next_moved driven.linked move).accepts notSend).1] at listed
          exact earlier listed
      | idle | arrived | read | declined => exact earlier listed

/-! ### What follows of the ids -/

theorem Issued.sent_nodup (issued : Issued surround api) :
    ((sentEvents api.system.past).map Event.eventId).Nodup := by
  rw [issued.numbered]
  exact List.nodup_range.map surround.distinct

theorem Issued.accepted_nodup (issued : Issued surround api) :
    ((acceptedEvents surround.setup api.system.past).map Event.eventId).Nodup :=
  issued.sent_nodup.sublist ((accepted_sublist_sent surround.setup api.system.past).map _)

/-- Two events that were sent with one id are one event. -/
theorem Issued.same_event (issued : Issued surround api) {first second : Event}
    (firstSent : .send first ∈ calls api.system.past)
    (secondSent : .send second ∈ calls api.system.past)
    (named : first.eventId = second.eventId) : first = second :=
  List.inj_on_of_nodup_map issued.sent_nodup
    (List.mem_filterMap.mpr ⟨_, firstSent, rfl⟩) (List.mem_filterMap.mpr ⟨_, secondSent, rfl⟩) named

/-- Behind every accepted event is a request that was answered with its id. -/
theorem Issued.posted (issued : Issued surround api) {event : Event}
    (listed : event ∈ acceptedEvents surround.setup api.system.past) :
    ∃ post ∈ api.posts, post.answer = some (.accepted event.eventId) ∧
      MadeFrom surround post.body event := by
  have receipt : event.eventId ∈ api.receipts :=
    issued.receipts.mem_iff.mpr (List.mem_map_of_mem listed)
  obtain ⟨post, member, reported⟩ := List.mem_filterMap.mp receipt
  obtain ⟨answer, given, identified⟩ := Option.bind_eq_some_iff.mp reported
  cases answer <;> cases identified
  obtain ⟨other, known, named, made⟩ := issued.answered post member _ given
  have same : other = event := List.inj_on_of_nodup_map issued.accepted_nodup known listed named
  exact ⟨post, member, given, same ▸ made⟩

/-! ### Where the events are -/

/-- The event of a receipt waits in the queue, or its payload is in the log, or both stores have its
document under its id. -/
def Kept (surround : Surround) (api : Api) (event : Event) : Prop :=
  event ∈ api.system.queue.pendingEvents ∨
    DeadLetteredInLog surround.setup.host api.system.queue event ∨
    ∀ sink, System.Documents surround.setup api.system event.eventId event sink

theorem Issued.kept (issued : Issued surround api) (serialises : surround.setup.host.Serialises)
    {event : Event} (listed : event ∈ acceptedEvents surround.setup api.system.past) :
    Kept surround api event := by
  obtain ⟨moves, ran⟩ := issued.ran
  rw [ran] at listed
  unfold Kept
  rw [ran]
  refine (System.fate_of_accepted surround.setup serialises moves listed).imp_right
    (Or.imp_right fun both sink => ?_)
  obtain ⟨-, other, sent, named, documents⟩ := both sink
  obtain ⟨before, after, split, -⟩ := System.accepted_split listed
  have here : .send event ∈ calls (System.run surround.setup moves).past := by
    rw [split]
    simp
  rw [← ran] at sent here
  rwa [issued.same_event sent here named] at documents

/-- Whatever the queue still has was accepted. -/
theorem Issued.pending (issued : Issued surround api) {event : Event}
    (waits : event ∈ api.system.queue.pendingEvents) :
    event ∈ acceptedEvents surround.setup api.system.past := by
  obtain ⟨moves, ran⟩ := issued.ran
  have driven : System.Driven surround.setup api.system := ran ▸ System.driven_run surround.setup moves
  obtain ⟨entry, listed, rfl⟩ := List.mem_map.mp waits
  obtain ⟨messageId, stored⟩ := Collections.OrderedDict.mem_values.mp listed
  rw [driven.queue] at stored
  exact System.accepted_of_stored surround.setup _ stored

/-- Whatever was dead-lettered was accepted. -/
theorem Issued.dead (issued : Issued surround api) {event : Event}
    (listed : event ∈ api.system.queue.dlq.items) :
    event ∈ acceptedEvents surround.setup api.system.past := by
  obtain ⟨moves, ran⟩ := issued.ran
  have driven : System.Driven surround.setup api.system := ran ▸ System.driven_run surround.setup moves
  rw [driven.queue] at listed
  exact System.accepted_of_buried surround.setup _ listed

/-- Whatever a store has was accepted, and is the document of its event. -/
theorem Issued.documented (issued : Issued surround api) {sink : Sink} {eventId : String}
    (listed : eventId ∈ api.system.ids sink) :
    ∃ event ∈ acceptedEvents surround.setup api.system.past, event.eventId = eventId ∧
      System.Documents surround.setup api.system eventId event sink := by
  obtain ⟨moves, ran⟩ := issued.ran
  rw [ran] at listed ⊢
  obtain ⟨event, landed, named, documents⟩ :=
    (System.sourced_run surround.setup moves).present sink eventId listed
  exact ⟨event, System.written_run surround.setup moves _ landed, named, documents⟩

/-! ### Every run -/

/-- In every state that requests and moves of the worker lead to, in any order, when events can be
serialised: no id is given out twice, and behind every id there is one event, made from the body of the
request that was answered with it, which waits in the queue, or has its payload in the log, or is in both
stores. -/
theorem receipts_are_honoured (surround : Surround) (serialises : surround.setup.host.Serialises)
    (limiter : RateLimiter) (moves : List ApiMove) :
    let api := run surround limiter moves
    api.receipts.Nodup ∧
    ∀ post ∈ api.posts, ∀ eventId, post.answer = some (.accepted eventId) →
      ∃ event, event.eventId = eventId ∧ MadeFrom surround post.body event ∧
        Kept surround api event := by
  intro api
  have issued : Issued surround api := issued_run surround limiter moves
  refine ⟨issued.receipts.nodup_iff.mpr issued.accepted_nodup, ?_⟩
  intro post member eventId answer
  obtain ⟨event, listed, named, made⟩ := issued.answered post member eventId answer
  exact ⟨event, named, made, issued.kept serialises listed⟩

/-- One process with one consumer. -/
def oneConsumer : Surround := sampleSurround (sampleSetup {} { concurrency := 1 })

/-- A request is accepted and its event reaches the first store; another one is refused by its body. -/
def onePosted : List ApiMove :=
  [.post "c" (some ⟨"click", "u1", "https://a.io/", none, []⟩) 0 0, .post "c" none 0 0,
    .handle 1 0 0, .handle 0 0 0, .worker .start, .worker (.turn 0 none 0 0 0),
    .worker (.heartbeat 0 0), .worker (.land 0)]

theorem one_receipt_is_honoured :
    ∃ event, event.eventId = "1" ∧ event.userId = "u1" ∧
      Kept oneConsumer (run oneConsumer (.create 100 100 10) onePosted) event := by
  obtain ⟨event, named, ⟨validatedAt, stampedAt, payload, data, body, validated, made⟩, kept⟩ :=
    (receipts_are_honoured oneConsumer (fun _ => rfl) (.create 100 100 10) onePosted).2
      ⟨"c", some ⟨"click", "u1", "https://a.io/", none, []⟩, some (.accepted "1")⟩
      (by with_unfolding_all exact List.mem_cons_self ..) "1" rfl
  cases body
  cases validated
  exact ⟨event, named, by rw [made]; rfl, kept⟩

/-- A request that was refused leaves nothing behind: whatever waits in the queue, is in the dead-letter
queue or is in a store was made from the body of a request that was answered with its id. -/
theorem refusals_leave_no_trace (surround : Surround) (limiter : RateLimiter)
    (moves : List ApiMove) :
    let api := run surround limiter moves
    (∀ event, event ∈ api.system.queue.pendingEvents ∨ event ∈ api.system.queue.dlq.items →
      ∃ post ∈ api.posts, post.answer = some (.accepted event.eventId) ∧
        MadeFrom surround post.body event) ∧
    ∀ sink, ∀ eventId ∈ api.system.ids sink, ∃ post ∈ api.posts,
      post.answer = some (.accepted eventId) ∧ ∃ event, event.eventId = eventId ∧
        MadeFrom surround post.body event ∧
        System.Documents surround.setup api.system eventId event sink := by
  intro api
  have issued : Issued surround api := issued_run surround limiter moves
  refine ⟨fun event here => issued.posted ?_, fun sink eventId listed => ?_⟩
  · rcases here with waits | dead
    · exact issued.pending waits
    · exact issued.dead dead
  · obtain ⟨event, accepted, rfl, documents⟩ := issued.documented listed
    obtain ⟨post, member, answer, made⟩ := issued.posted accepted
    exact ⟨post, member, answer, event, rfl, made, documents⟩

theorem one_document_was_posted :
    ∃ post ∈ (run oneConsumer (.create 100 100 10) onePosted).posts,
      post.answer = some (.accepted "1") := by
  obtain ⟨post, member, answer, -⟩ :=
    (refusals_leave_no_trace oneConsumer (.create 100 100 10) onePosted).2 .mongodb "1"
      (by with_unfolding_all exact List.mem_cons_self ..)
  exact ⟨post, member, answer⟩

end Api

end FeathrEvents
