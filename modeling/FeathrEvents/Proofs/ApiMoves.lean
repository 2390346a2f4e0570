/-
Module: FeathrEvents.Proofs.ApiMoves
Purpose: Everything that one move of the API can do, said once, and what the queue of the worker behind
  it accepted.
Trusted boundary: none
Main exports: QueueCall.sent?, sentEvents, acceptedEvents, MadeAt, MadeFrom, Api.Moved, Api.next_moved,
  Api.run, accepted_of_stored, accepted_of_buried, written_run
-/
import FeathrEvents.App.Api
import FeathrEvents.Proofs.WorkerConvergence
import FeathrEvents.Proofs.QueueConservation

namespace FeathrEvents

open InMemoryEventQueue (DeadLetteredInLog Linked reached history acceptedBy)

/-- The event that a call sends. -/
def QueueCall.sent? : QueueCall → Option Event
  | .send event => some event
  | .receive .. | .delete _ | .changeVisibility .. | .fail .. | .clear => none

/-- Every event sent so far, in order, whether the queue took it or not. -/
def sentEvents (past : List Happening) : List Event := (calls past).filterMap QueueCall.sent?

/-- Every event that the queue accepted so far, in order, read off its history and so independent of
what has become of them. -/
def acceptedEvents (setup : Setup) (past : List Happening) : List Event :=
  InMemoryEventQueue.accepted setup.host setup.queue (history setup.host setup.queue (calls past))

/-- The event was made from this body at these readings of the clock: the body passed the validation at
the first one, and what came out of it was given its id and stamped at the second. -/
def MadeAt (surround : Surround) (body : Option Payload) (validatedAt stampedAt : ℤ)
    (event : Event) :
    Prop :=
  ∃ payload data, body = some payload ∧
    EventIn.validate surround.pydantic validatedAt payload = .ok (.ok data) ∧
    event = Event.fromInput event.eventId stampedAt data

/-- The event was made from this body at some time: it passed the validation, was given its id and was
stamped.  This links whatever is found in a store or in the queue to the request that it came in with. -/
def MadeFrom (surround : Surround) (body : Option Payload) (event : Event) : Prop :=
  ∃ validatedAt stampedAt, MadeAt surround body validatedAt stampedAt event

@[simp] theorem acceptedBy_of_sent_none {host : Host} {settings : QueueSettings}
    {queue : InMemoryEventQueue} {call : QueueCall} (silent : call.sent? = none) :
    acceptedBy host settings queue call = none := by
  cases call with
  | send event => cases silent
  | _ => rfl

/-- Whatever is accepted was sent. -/
theorem accepted_sublist_sent (setup : Setup) (past : List Happening) :
    (acceptedEvents setup past).Sublist (sentEvents past) := by
  unfold acceptedEvents sentEvents
  induction calls past using List.reverseRecOn with
  | nil => exact .slnil
  | append_singleton earlier call ih =>
      rw [InMemoryEventQueue.history_snoc, InMemoryEventQueue.accepted_snoc, Machine.filterMap_snoc]
      apply ih.append
      cases call with
      | send event =>
          simp only [acceptedBy, QueueCall.sent?]
          split
          · exact .refl _
          · exact List.nil_sublist _
      | _ => exact .slnil

/-! ### The worker behind the API -/

namespace System

variable {setup : Setup} {system later : System} {move : Move}

/-- A consumer never sends. -/
theorem silent_of_moved (moved : Moved setup system move later)
    (notSend : ∀ event, move ≠ .send event) :
    ∃ fresh, calls later.past = calls system.past ++ fresh ∧
      ∀ call ∈ fresh, call.sent? = none := by
  have quiet : calls later.past = calls system.past → ∃ fresh, calls later.past =
      calls system.past ++ fresh ∧ ∀ call ∈ fresh, call.sent? = none :=
    fun same => ⟨[], by simp [same], by simp⟩
  have speaks : ∀ call : QueueCall, calls later.past = calls system.past ++ [call] →
      call.sent? = none → ∃ fresh, calls later.past = calls system.past ++ fresh ∧
        ∀ call ∈ fresh, call.sent? = none :=
    fun call more silent => ⟨[call], more, by simpa using silent⟩
  cases moved with
  | idle | quit | waited | faulted | cancelled | started | stopCalled | drained => exact quiet rfl
  | sent event => exact absurd rfl (notSend event)
  | @landed index write =>
      obtain ⟨sink, event, landed⟩ := write
      cases sink <;> exact quiet rfl
  | stored => exact quiet (by simp [begin, note, calls, Happening.call?])
  | indexed => exact quiet (by simp [put, withSink, note, calls, Happening.call?])
  | overflowed => exact quiet (by simp [put, reported, calls, Happening.call?])
  | found => exact speaks _ (by simp [made, withSink, tick, calls, Happening.call?]; rfl) rfl
  | fetched =>
      exact speaks _ (by simp [made, note, put, withSink, tick, calls, Happening.call?]; rfl) rfl
  | beat => exact speaks _ (by simp [made, begin, tick, calls, Happening.call?]; rfl) rfl
  | stale => exact speaks _ (by simp [made, put, tick, calls, Happening.call?]; rfl) rfl
  | failed | backoffOverflowed =>
      exact speaks _ (by simp [made, put, reported, calls, Happening.call?]; rfl) rfl
  | acked | refused => exact speaks _ (by simp [made, put, calls, Happening.call?]; rfl) rfl

theorem accepted_of_silent {past more : List Happening} {fresh : List QueueCall}
    (grown : calls more = calls past ++ fresh) (silent : ∀ call ∈ fresh, call.sent? = none) :
    acceptedEvents setup more = acceptedEvents setup past ∧ sentEvents more = sentEvents past := by
  unfold acceptedEvents sentEvents
  rw [grown]
  clear grown
  induction fresh using List.reverseRecOn with
  | nil => simp
  | append_singleton fresh call ih =>
      have quiet : call.sent? = none := silent call (by simp)
      obtain ⟨accepted, sent⟩ := ih fun other member => silent other (by simp [member])
      rw [← List.append_assoc, InMemoryEventQueue.history_snoc, InMemoryEventQueue.accepted_snoc,
        accepted, acceptedBy_of_sent_none quiet, Machine.filterMap_snoc, sent, quiet]
      simp

/-- A move other than a send accepts nothing. -/
theorem Moved.accepts (moved : Moved setup system move later)
    (notSend : ∀ event, move ≠ .send event) :
    acceptedEvents setup later.past = acceptedEvents setup system.past ∧
      sentEvents later.past = sentEvents system.past := by
  obtain ⟨fresh, grown, silent⟩ := silent_of_moved moved notSend
  exact accepted_of_silent grown silent

/-- What a send adds. -/
theorem accepted_of_send (driven : Driven setup system) (event : Event) :
    acceptedEvents setup (system.next setup (.send event)).past =
      acceptedEvents setup system.past ++
        (acceptedBy setup.host setup.queue system.queue (.send event)).toList ∧
    sentEvents (system.next setup (.send event)).past = sentEvents system.past ++ [event] := by
  have grown : calls (system.next setup (.send event)).past = calls system.past ++ [.send event] := by
    simp [next, step, call_eq, made, calls, Happening.call?]
  unfold acceptedEvents sentEvents
  rw [grown, InMemoryEventQueue.history_snoc, InMemoryEventQueue.accepted_snoc, ← driven.queue,
    Machine.filterMap_snoc]
  exact ⟨rfl, rfl⟩

/-- Nothing that was accepted is forgotten. -/
theorem accepted_grows (driven : Driven setup system) (move : Move) :
    acceptedEvents setup system.past ⊆ acceptedEvents setup (system.next setup move).past := by
  by_cases sends : ∃ event, move = .send event
  · obtain ⟨event, rfl⟩ := sends
    rw [(accepted_of_send driven event).1]
    exact List.subset_append_left ..
  · have notSend : ∀ event, move ≠ .send event := fun event same => sends ⟨event, same⟩
    rw [((next_moved driven.linked move).accepts notSend).1]
    exact List.Subset.refl _

/-- The event of every entry was accepted. -/
theorem accepted_of_stored (setup : Setup) (calls : List QueueCall) {messageId : String}
    {entry : Entry}
    (stored : (reached setup.host setup.queue calls).entries.get? messageId = some entry) :
    entry.event ∈ InMemoryEventQueue.accepted setup.host setup.queue (history setup.host setup.queue calls) := by
  induction calls using List.reverseRecOn generalizing entry with
  | nil => cases stored
  | append_singleton calls call ih =>
      rw [InMemoryEventQueue.reached_snoc] at stored
      rw [InMemoryEventQueue.history_snoc, InMemoryEventQueue.accepted_snoc]
      rcases InMemoryEventQueue.entries_after
          (InMemoryEventQueue.linked_reached setup.host setup.queue calls) call stored with
        ⟨former, found, same⟩ | ⟨rfl, named, absent⟩
      · rw [← same]
        exact List.mem_append_left _ (ih found)
      · apply List.mem_append_right
        -- a send that was refused would have left the id without an entry
        rcases InMemoryEventQueue.send_cases setup.host setup.queue
            (reached setup.host setup.queue calls) entry.event with ⟨-, same, -⟩ | ⟨-, shape⟩
        · have refused : (reached setup.host setup.queue calls).after setup.host setup.queue
              (.send entry.event) = reached setup.host setup.queue calls := same
          rw [refused, absent] at stored
          cases stored
        · simp [acceptedBy, shape]

/-- Whatever lies in the dead-letter queue was accepted, since it was the event of an entry first.  The
dumps need not succeed for this. -/
theorem accepted_of_buried (setup : Setup) (calls : List QueueCall) {event : Event}
    (buried : event ∈ (reached setup.host setup.queue calls).dlq.items) :
    event ∈ InMemoryEventQueue.accepted setup.host setup.queue
      (history setup.host setup.queue calls) := by
  induction calls using List.reverseRecOn with
  | nil => cases buried
  | append_singleton calls call ih =>
      rw [InMemoryEventQueue.reached_snoc] at buried
      rw [InMemoryEventQueue.history_snoc, InMemoryEventQueue.accepted_snoc]
      apply List.mem_append_left
      rcases InMemoryEventQueue.letters_after
          (InMemoryEventQueue.linked_reached setup.host setup.queue calls) call event buried with
        older | ⟨messageId, entry, stored, rfl⟩
      · exact ih older
      · exact accepted_of_stored setup calls stored

/-- Where an event was accepted in a history. -/
theorem accepted_split {setup : Setup} {past : List Happening} {event : Event}
    (listed : event ∈ acceptedEvents setup past) :
    ∃ before after, calls past = before ++ .send event :: after ∧
      ((reached setup.host setup.queue before).perform setup.host setup.queue (.send event)).1 =
        .ok [] := by
  obtain ⟨⟨queue, call⟩, visited, took⟩ := List.mem_filterMap.mp listed
  obtain ⟨before, after, split, here⟩ := InMemoryEventQueue.mem_history visited
  cases call with
  | send other =>
      rcases InMemoryEventQueue.send_cases setup.host setup.queue queue other with
        ⟨-, -, text, full⟩ | ⟨-, shape⟩
      · simp [acceptedBy, full] at took
      · have same : other = event := by simpa [acceptedBy, shape] using took
        subst same
        refine ⟨before, after, split, ?_⟩
        rw [← show queue = reached setup.host setup.queue before from here]
        simp [InMemoryEventQueue.perform, shape, Except.map]
  | _ => cases took

/-- Behind an accepted event is its entry, its line in the log of the dead-letter queue, or both writes. -/
theorem fate_of_accepted (setup : Setup) (serialises : setup.host.Serialises) (moves : List Move)
    {event : Event} (listed : event ∈ acceptedEvents setup (run setup moves).past) :
    event ∈ (run setup moves).queue.pendingEvents ∨
      DeadLetteredInLog setup.host (run setup moves).queue event ∨
      ∀ sink, InStore setup (run setup moves) sink event := by
  have driven := driven_run setup moves
  obtain ⟨before, after, split, took⟩ := accepted_split listed
  have port : .clear ∉ after := fun member => driven.port (by rw [split]; simp [member])
  have fate := InMemoryEventQueue.accepted_fate serialises took after port
  rw [← split] at fate
  rw [driven.queue]
  rcases fate with ⟨entry, stored, same⟩ | logged | ⟨earlier, handle, rest, entry, cut, lent, found, same⟩
  · left
    rw [← same]
    exact List.mem_map_of_mem (Collections.OrderedDict.mem_values.mpr ⟨_, stored⟩)
  · exact .inr (.inl logged)
  · exact .inr (.inr fun sink => in_both_stores setup moves cut lent found same sink)

/-- Every write is of an event that the queue accepted. -/
theorem written_run (setup : Setup) (moves : List Move) :
    ∀ write ∈ (run setup moves).writes, write.event ∈ acceptedEvents setup (run setup moves).past := by
  induction moves using List.reverseRecOn with
  | nil => simp [System.create]
  | append_singleton moves move ih =>
      rw [run_snoc]
      have driven := driven_run setup moves
      have owned := owned_run setup moves
      have stored := stored_run setup moves
      have grows := accepted_grows driven move
      have moved := next_moved driven.linked move
      generalize run setup moves = system at *
      generalize system.next setup move = later at *
      intro write member
      apply grows
      cases moved with
      | @beat consumer now message rest stands ordered live =>
          rcases List.mem_append.mp member with old | new
          · exact ih write old
          · obtain ⟨messageId, lent⟩ := Option.ne_none_iff_exists'.mp live
            have lends := owned.lends consumer message
              (Consumer.untouched_held (by simp [stands, Consumer.untouched]))
            obtain ⟨entry, found, same, -⟩ := lends messageId lent
            rw [driven.queue] at found
            cases List.mem_singleton.mp new
            exact same ▸ accepted_of_stored setup _ found
      | @stored consumer message rest index stands landed =>
          rcases List.mem_append.mp member with old | new
          · exact ih write old
          · cases List.mem_singleton.mp new
            have earlier := ih _ (stored.returns stands landed)
            exact earlier
      | @landed index write called =>
          rcases List.mem_or_eq_of_mem_set member with old | rfl
          · exact ih _ old
          · exact ih write (List.mem_of_getElem? called)
      | _ => exact ih write member

end System

/-! ### The API -/

namespace Api

/-- The API after some moves from its start. -/
def run (surround : Surround) (limiter : RateLimiter) (moves : List ApiMove) : Api :=
  Machine.run (Api.next surround) (Api.start limiter) moves

@[simp] theorem run_nil (surround : Surround) (limiter : RateLimiter) :
    run surround limiter [] = Api.start limiter := rfl

@[simp] theorem run_snoc (surround : Surround) (limiter : RateLimiter) (moves : List ApiMove)
    (move : ApiMove) :
    run surround limiter (moves ++ [move]) = (run surround limiter moves).next surround move :=
  Machine.run_snoc ..

/-- The ids answered with a 202, in the order of the requests.  They are all that a client has in
its hands. -/
def receipts (api : Api) : List String :=
  api.posts.filterMap fun post => post.answer.bind IngestAnswer.eventId?

/-- Everything that a move can do, with the guards that it passed, so that an invariant splits the
cases here and need not unfold the step. -/
inductive Moved (surround : Surround) (api : Api) : ApiMove → Api → Prop where
  | idle (move : ApiMove) : Moved surround api move api
  | arrived (client : String) (body : Option Payload) (now loggedAt : ℚ) :
      Moved surround api (.post client body now loggedAt)
        { api with
          limiter := (api.limiter.answer maxClients ⟨client, .write, now⟩ loggedAt).2
          posts := api.posts ++ [⟨client, body, IngestAnswer.ofLimiter
            (api.limiter.answer maxClients ⟨client, .write, now⟩ loggedAt).1⟩] }
  | read (client : String) (now loggedAt : ℚ) :
      Moved surround api (.get client now loggedAt)
        { api with limiter := (api.limiter.answer maxClients ⟨client, .read, now⟩ loggedAt).2 }
  | declined {index : ℕ} {validatedAt stampedAt : ℤ} {client : String} {body : Option Payload}
      (waits : api.posts[index]? = some ⟨client, body, none⟩) (answer : IngestAnswer)
      (early : answer.eventId? = none ∧ answer.throttleReason = none) :
      Moved surround api (.handle index validatedAt stampedAt)
        { api with posts := api.posts.set index ⟨client, body, some answer⟩ }
  | accepted {index : ℕ} {validatedAt stampedAt : ℤ} {client : String} {body : Option Payload}
      (waits : api.posts[index]? = some ⟨client, body, none⟩) (event : Event)
      (named : event.eventId = surround.eventIds api.drawn) (made : MadeAt surround body validatedAt stampedAt event)
      (room : acceptedBy surround.setup.host surround.setup.queue api.system.queue (.send event) =
        some event) :
      Moved surround api (.handle index validatedAt stampedAt)
        { api with
          system := api.system.next surround.setup (.send event)
          drawn := api.drawn + 1
          posts := api.posts.set index ⟨client, body, some (.accepted event.eventId)⟩ }
  | full {index : ℕ} {validatedAt stampedAt : ℤ} {client : String} {body : Option Payload}
      (waits : api.posts[index]? = some ⟨client, body, none⟩) (event : Event)
      (named : event.eventId = surround.eventIds api.drawn)
      (refused : surround.setup.queue.maxsize ≤ api.system.queue.entries.size ∧
        acceptedBy surround.setup.host surround.setup.queue api.system.queue (.send event) = none) :
      Moved surround api (.handle index validatedAt stampedAt)
        { api with
          system := api.system.next surround.setup (.send event)
          drawn := api.drawn + 1
          posts := api.posts.set index ⟨client, body, some .queueFull⟩ }
  | worked (move : FeathrEvents.Move) (notSend : ∀ event, move ≠ .send event) :
      Moved surround api (.worker move)
        { api with system := api.system.next surround.setup move }

variable {surround : Surround} {api later : Api} {move : ApiMove}

theorem handled_moved {index : ℕ} {client : String} {body : Option Payload}
    (waits : api.posts[index]? = some ⟨client, body, none⟩) (validatedAt stampedAt : ℤ) :
    Moved surround api (.handle index validatedAt stampedAt)
      { (api.handled surround validatedAt stampedAt body).2 with
        posts := (api.handled surround validatedAt stampedAt body).2.posts.set index
          ⟨client, body, some (api.handled surround validatedAt stampedAt body).1⟩ } := by
  cases body with
  | none => exact .declined waits .undecodable ⟨rfl, rfl⟩
  | some payload =>
      cases checked : EventIn.validate surround.pydantic validatedAt payload with
      | error exn =>
          simp only [handled, ingest, checked]
          exact .declined waits (.internalError exn) ⟨rfl, rfl⟩
      | ok result =>
          cases result with
          | error errors =>
              simp only [handled, ingest, checked]
              exact .declined waits (.unprocessable errors) ⟨rfl, rfl⟩
          | ok data =>
              simp only [handled, ingest, checked]
              set event := Event.fromInput (surround.eventIds api.drawn) stampedAt data with event_eq
              have made : MadeAt surround (some payload) validatedAt stampedAt event :=
                ⟨payload, data, rfl, checked, rfl⟩
              rcases InMemoryEventQueue.send_cases surround.setup.host surround.setup.queue
                  api.system.queue event with ⟨atLimit, -, text, full⟩ | ⟨-, shape⟩
              · have result : (api.system.queue.perform surround.setup.host surround.setup.queue
                    (.send event)).1 = .error (.queueFull text) := by
                  simp [InMemoryEventQueue.perform, full, Except.map]
                simp only [System.call_eq, result]
                exact .full waits event rfl ⟨atLimit, by simp [acceptedBy, full]⟩
              · have result : (api.system.queue.perform surround.setup.host surround.setup.queue
                    (.send event)).1 = .ok [] := by
                  simp [InMemoryEventQueue.perform, shape, Except.map]
                simp only [System.call_eq, result]
                exact .accepted waits event rfl made (by simp [acceptedBy, shape])

theorem worker_moved (move : FeathrEvents.Move) (notSend : ∀ event, move ≠ .send event) :
    Moved surround api (.worker move)
      (((api.system.step surround.setup move).map fun system =>
        { api with system := system }).getD api) := by
  have worked := @Moved.worked surround api move notSend
  unfold System.next at worked
  cases taken : api.system.step surround.setup move with
  | none => exact .idle _
  | some system => simpa [taken] using worked

theorem next_moved (surround : Surround) (api : Api) (move : ApiMove) :
    Moved surround api move (api.next surround move) := by
  unfold next
  cases move with
  | post client body now loggedAt => exact .arrived client body now loggedAt
  | get client now loggedAt => exact .read client now loggedAt
  | handle index validatedAt stampedAt =>
      simp only [step]
      split
      · rename_i client body waits
        exact handled_moved waits validatedAt stampedAt
      · exact .idle _
  | worker move =>
      cases move with
      | send event => exact .idle _
      | _ =>
          simp only [step]
          exact worker_moved _ (by simp)

end Api

end FeathrEvents
