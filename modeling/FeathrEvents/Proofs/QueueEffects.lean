/-
Module: FeathrEvents.Proofs.QueueEffects
Purpose: What one call does to one message and which messages it hands out, and from it that the
  queue, seen from one message, is a lease: every call is a sequence of steps of the life cycle.
Trusted boundary: none
Main exports: deliveredTo, receive_effect, delete_effect, changeVisibility_effect, fail_effect,
  send_effect, linked_after, after_steps, entries_after, delivered_covers, held_after, live_after,
  receive_handles
-/
import FeathrEvents.Lib.Lease
import FeathrEvents.Proofs.QueueLifecycle

namespace FeathrEvents.InMemoryEventQueue

open Collections (OrderedDict BoundedDeque)
open Lease (Place Act Step Steps lendings)

variable {host : Host} {settings : QueueSettings} {queue : InMemoryEventQueue}

/-! ### One call -/

/-- A `receive` either ends in its sweep or lends from the queue that the sweep left. -/
theorem receive_cases (settings : QueueSettings) (linked : Linked host queue) (maxN : ℤ)
    (visibilityTimeout : Option ℚ)
    (sweptAt now : ℚ) :
    (∃ eventId, (queue.sweep host settings sweptAt).1 = .error (.serializationError eventId) ∧
      queue.receive host settings maxN visibilityTimeout sweptAt now =
        (.error (.serializationError eventId), (queue.sweep host settings sweptAt).2)) ∨
    ∃ swept, queue.sweep host settings sweptAt = (.ok (), swept) ∧
      queue.receive host settings maxN visibilityTimeout sweptAt now =
        ((.ok ((swept.lend host (now + visibilityTimeout.getD settings.visibilityTimeout) maxN
            swept.visible 0).1.filterMap Popped.message?)),
          (swept.lend host (now + visibilityTimeout.getD settings.visibilityTimeout) maxN
            swept.visible 0).2) := by
  obtain ⟨-, -, returned, -⟩ := sweep_place settings linked sweptAt
  simp only [receive]
  generalize queue.sweep host settings sweptAt = swept at *
  obtain ⟨result, next⟩ := swept
  rcases returned with rfl | ⟨eventId, rfl⟩
  · exact .inr ⟨next, rfl, rfl⟩
  · exact .inl ⟨eventId, rfl, rfl⟩

/-- The messages that a call handed out for one message id: those whose receipt is now a live handle
of that id. -/
def deliveredTo (host : Host) (settings : QueueSettings) (queue : InMemoryEventQueue)
    (call : QueueCall) (messageId : String) : List Message :=
  match (queue.perform host settings call).1 with
  | .error _ => []
  | .ok messages => messages.filter fun message =>
      (queue.after host settings call).inflight.get? message.receiptHandle = some messageId

private theorem filter_lent (owner : String → Option String) {popped : List Popped}
    (nodup : (popped.map Popped.messageId).Nodup)
    (owned : ∀ turn ∈ popped, ∃ messageId message, turn = .lent messageId message ∧
      owner message.receiptHandle = some messageId) (messageId : String) :
    ((∀ message, Popped.lent messageId message ∉ popped) →
      ((popped.filterMap Popped.message?).filter fun message =>
        owner message.receiptHandle = some messageId) = []) ∧
    ∀ message, Popped.lent messageId message ∈ popped →
      ((popped.filterMap Popped.message?).filter fun message =>
        owner message.receiptHandle = some messageId) = [message] := by
  induction popped with
  | nil => simp
  | cons turn popped ih =>
      rw [List.map_cons, List.nodup_cons] at nodup
      obtain ⟨other, first, rfl, ownedFirst⟩ := owned turn (by simp)
      obtain ⟨absent, present⟩ := ih nodup.2 fun turn member => owned turn (by simp [member])
      simp only [List.filterMap_cons, Popped.message?, List.filter_cons, ownedFirst,
        Option.some.injEq, decide_eq_true_eq]
      by_cases same : other = messageId
      · subst same
        have once : ∀ message, Popped.lent other message ∉ popped := by
          intro message member
          have listed := List.mem_map_of_mem (f := Popped.messageId) member
          exact nodup.1 listed
        simp [absent once, once]
      · have distinct : ∀ message, Popped.lent messageId message ≠ .lent other first :=
          fun message equal => same (Popped.lent.inj equal).1.symm
        simp only [List.mem_cons, distinct, false_or, same, if_false]
        exact ⟨absent, present⟩

/-- What a `receive` that returned has done to one message, the sweep's part taken from the queue
before the call and the lending from the queue in between. -/
theorem receive_place (linked : Linked host queue) (maxN : ℤ) (visibilityTimeout : Option ℚ)
    {sweptAt : ℚ} (now : ℚ) {swept : InMemoryEventQueue}
    (returned : queue.sweep host settings sweptAt = (.ok (), swept)) (messageId : String) :
    ∃ popped, Lent host swept (now + visibilityTimeout.getD settings.visibilityTimeout) popped
        messageId (place host (queue.after host settings
          (.receive maxN visibilityTimeout sweptAt now)) messageId) ∧
      ((∀ message, Popped.lent messageId message ∉ popped) →
        deliveredTo host settings queue (.receive maxN visibilityTimeout sweptAt now) messageId =
          []) ∧
      ∀ message, Popped.lent messageId message ∈ popped →
        deliveredTo host settings queue (.receive maxN visibilityTimeout sweptAt now) messageId =
          [message] := by
  have linkedSwept : Linked host swept := by
    simpa [returned] using (sweep_place settings linked sweptAt).1
  rcases receive_cases settings linked maxN visibilityTimeout sweptAt now with
    ⟨eventId, raised, -⟩ | ⟨same, sweptAgain, shape⟩
  · simp [returned] at raised
  rw [returned] at sweptAgain
  cases sweptAgain
  obtain ⟨linkedAfter, -, sublist, listed, fates⟩ := lend_place linkedSwept
    (now + visibilityTimeout.getD settings.visibilityTimeout) maxN rfl 0
  refine ⟨(swept.lend host (now + visibilityTimeout.getD settings.visibilityTimeout) maxN
    swept.visible 0).1, ?_, ?_⟩
  · simpa only [after, perform, shape] using fates messageId
  · simp only [deliveredTo, after, perform, shape]
    refine filter_lent _ (linkedSwept.visibleNodup.sublist sublist) ?_ messageId
    intro turn member
    obtain ⟨target, message, rfl, held⟩ := listed turn member
    exact ⟨target, message, rfl, linkedAfter.inflight_iff.mpr ⟨_, _, held⟩⟩

/-- Every way in which a sweep can end a due loan is a step of the life cycle. -/
theorem LoanEnd.steps {entry : Entry} {handle : String} {now : ℚ} {later : Place String ℚ}
    (loanEnd : LoanEnd host settings entry later) (due : entry.deadline ≤ now) :
    ∃ acts, Steps settings.maxReceives (.held entry.receiveCount handle entry.deadline) acts
        later ∧ lendings acts = [] := by
  cases loanEnd with
  | waiting below => exact ⟨[.lapse now], .single (.lapse _ _ _ _ due below), rfl⟩
  | gone exhausted => exact ⟨[.bury now], .single (.bury _ _ _ _ due exhausted), rfl⟩
  | stranded exhausted => exact ⟨[.strand now], .single (.strand _ _ _ _ due exhausted), rfl⟩

theorem setDeadline_place (host : Host) {messageId handle : String} {entry : Entry} (deadline : ℚ)
    (stored : queue.entries.get? messageId = some entry) (live : entry.handle = some handle) :
    (queue.setDeadline messageId deadline).1 = .ok () ∧
      place host (queue.setDeadline messageId deadline).2 messageId =
        .held entry.receiveCount handle deadline ∧
      ∀ other, other ≠ messageId →
        place host (queue.setDeadline messageId deadline).2 other = place host queue other := by
  simp only [setDeadline, stored]
  refine ⟨trivial, place_eq_held.mpr ⟨{ entry with deadline := deadline }, by simp [stored, live]⟩,
    fun other different => ?_⟩
  exact place_congr (by simp [different]) Iff.rfl Iff.rfl

/-- `change_visibility` refuses a handle that is not live, and moves the deadline of one that is. -/
theorem changeVisibility_cases (linked : Linked host queue) (handle : String) (seconds now : ℚ) :
    (queue.inflight.get? handle = none ∧
      queue.changeVisibility handle seconds now = (.error (invalidHandle handle), queue)) ∨
    ∃ messageId entry, queue.inflight.get? handle = some messageId ∧
      queue.entries.get? messageId = some entry ∧ entry.handle = some handle ∧
      queue.changeVisibility handle seconds now = queue.setDeadline messageId (now + seconds) := by
  unfold changeVisibility
  split
  · rename_i absent
    exact .inl ⟨absent, rfl⟩
  · rename_i messageId lent
    obtain ⟨entry, stored, live, -⟩ := linked.inflightEntry handle messageId lent
    exact .inr ⟨messageId, entry, lent, stored, live, rfl⟩

/-- A capped product with a power of two: it overflows exactly for a float and an exponent from 1024
on, whatever the cap. -/
theorem capped_cases (arithmetic : Arithmetic) (x cap : ℚ) (exponent : ℤ) :
    ((timesPowerOfTwo arithmetic x exponent).map (min · cap) = .ok (min (x * 2 ^ exponent) cap) ∧
      (arithmetic = .exact ∨ exponent < 1024)) ∨
    ((timesPowerOfTwo arithmetic x exponent).map (min · cap) = .error .overflowError ∧
      arithmetic = .float ∧ 1024 ≤ exponent) := by
  cases arithmetic with
  | exact => exact .inl ⟨rfl, .inl rfl⟩
  | float =>
      by_cases small : exponent < 1024
      · exact .inl ⟨by simp [timesPowerOfTwo, not_le.mpr small, Except.map], .inr small⟩
      · exact .inr ⟨by simp [timesPowerOfTwo, not_lt.mp small, Except.map], rfl, not_lt.mp small⟩

/-- `fail` does the same with the backoff, except that the backoff itself may overflow. -/
theorem fail_cases (settings : QueueSettings) (linked : Linked host queue) (handle : String)
    (now : ℚ) :
    (queue.inflight.get? handle = none ∧
      queue.fail settings handle now = (.error (invalidHandle handle), queue)) ∨
    ∃ messageId entry, queue.inflight.get? handle = some messageId ∧
      queue.entries.get? messageId = some entry ∧ entry.handle = some handle ∧
      ((∃ backoff, backoffFor settings entry.receiveCount = .ok backoff ∧
          queue.fail settings handle now = queue.setDeadline messageId (now + backoff)) ∨
        (backoffFor settings entry.receiveCount = .error .overflowError ∧
          queue.fail settings handle now = (.error .overflowError, queue))) := by
  unfold fail
  split
  · rename_i absent
    exact .inl ⟨absent, rfl⟩
  · rename_i messageId lent
    obtain ⟨entry, stored, live, -⟩ := linked.inflightEntry handle messageId lent
    refine .inr ⟨messageId, entry, lent, stored, live, ?_⟩
    simp only [stored]
    rcases capped_cases settings.arithmetic settings.visibilityTimeout backoffCapSeconds
      (entry.receiveCount - 1) with ⟨computed, -⟩ | ⟨computed, -⟩
    · have backedOff : backoffFor settings entry.receiveCount = .ok _ := computed
      exact .inl ⟨_, backedOff, by rw [backedOff]⟩
    · have overflow : backoffFor settings entry.receiveCount = .error .overflowError := computed
      exact .inr ⟨overflow, by rw [overflow]⟩

theorem delete_place (linked : Linked host queue) {handle messageId : String}
    (lent : queue.inflight.get? handle = some messageId) :
    place host (queue.delete handle).2 messageId = .gone ∧
      ∀ other, other ≠ messageId →
        place host (queue.delete handle).2 other = place host queue other := by
  obtain ⟨entry, stored, -⟩ := linked.inflightEntry handle messageId lent
  simp only [delete, lent]
  constructor
  · exact place_eq_gone.mpr ⟨by simp, linked.idMinted messageId entry stored⟩
  · intro other different
    exact place_congr (by simp [different]) Iff.rfl Iff.rfl

/-- A `send` that is accepted puts a message under a new name at the end of the line. -/
theorem send_cases (host : Host) (settings : QueueSettings) (queue : InMemoryEventQueue)
    (event : Event) :
    (settings.maxsize ≤ queue.entries.size ∧ (queue.send host settings event).2 = queue ∧
      ∃ text, (queue.send host settings event).1 = .error (.queueFull text)) ∨
    (queue.entries.size < settings.maxsize ∧
      queue.send host settings event = (.ok (), { queue with
        entries := queue.entries.set (host.uuid4 queue.minted) { event := event }
        visible := queue.visible ++ [host.uuid4 queue.minted]
        minted := queue.minted + 1 })) := by
  unfold send
  split
  · rename_i full
    exact .inl ⟨full, rfl, _, rfl⟩
  · rename_i room
    exact .inr ⟨by omega, rfl⟩

theorem send_place (linked : Linked host queue) (event : Event)
    (room : queue.entries.size < settings.maxsize) :
    place host queue (host.uuid4 queue.minted) = .unborn ∧
      place host (queue.send host settings event).2 (host.uuid4 queue.minted) = .waiting 0 ∧
      ∀ other, other ≠ host.uuid4 queue.minted →
        place host (queue.send host settings event).2 other = place host queue other := by
  rcases send_cases host settings queue event with
    ⟨full, -⟩ | ⟨-, shape⟩
  · omega
  rw [shape]
  refine ⟨place_eq_unborn.mpr ⟨linked.entries_fresh (Nat.le_refl _), not_drawn _ (Nat.le_refl _)⟩,
    place_eq_waiting.mpr ⟨{ event := event }, by simp⟩, fun other different => ?_⟩
  apply place_congr (by simp [different]) (by simp [different])
  rw [drawn_next queue rfl, or_iff_left different]

/-- After `clear` every message that ever arrived is gone. -/
theorem clear_place (linked : Linked host queue) (messageId : String) :
    (place host queue messageId = .unborn ∧ place host queue.clear messageId = .unborn) ∨
      (place host queue messageId ≠ .unborn ∧ place host queue.clear messageId = .gone) := by
  by_cases drawn : Drawn host queue messageId
  · right
    exact ⟨fun unborn => (place_eq_unborn.mp unborn).2 drawn, place_eq_gone.mpr ⟨rfl, drawn⟩⟩
  · left
    have absent : queue.entries.get? messageId = none := by
      by_contra present
      obtain ⟨entry, stored⟩ := Option.ne_none_iff_exists'.mp present
      exact drawn (linked.idMinted messageId entry stored)
    exact ⟨place_eq_unborn.mpr ⟨absent, drawn⟩, place_eq_unborn.mpr ⟨rfl, drawn⟩⟩

/-! ### The events of the entries -/

/-- Every entry of `later` was an entry of `queue`, with the same event. -/
def EventsFrom (queue later : InMemoryEventQueue) : Prop :=
  ∀ messageId entry, later.entries.get? messageId = some entry →
    ∃ former, queue.entries.get? messageId = some former ∧ former.event = entry.event

theorem EventsFrom.refl (queue : InMemoryEventQueue) : EventsFrom queue queue :=
  fun _ entry stored => ⟨entry, stored, rfl⟩

theorem EventsFrom.trans {first second third : InMemoryEventQueue}
    (one : EventsFrom first second) (two : EventsFrom second third) : EventsFrom first third := by
  intro messageId entry stored
  obtain ⟨middle, found, same⟩ := two messageId entry stored
  obtain ⟨former, origin, equal⟩ := one messageId middle found
  exact ⟨former, origin, equal.trans same⟩

/-- Dropping entries, and changing them without changing their events, keeps the events. -/
theorem eventsFrom_of_modify {later : InMemoryEventQueue} {messageId : String}
    (update : Entry → Entry) (keeps : ∀ entry, (update entry).event = entry.event)
    (entries : ∀ other entry, later.entries.get? other = some entry →
      (queue.entries.modify messageId update).get? other = some entry) :
    EventsFrom queue later := by
  intro other entry stored
  have found := entries other entry stored
  rw [OrderedDict.get?_modify] at found
  split at found
  · obtain ⟨former, origin, rfl⟩ := Option.map_eq_some_iff.mp found
    exact ⟨former, origin, (keeps former).symm⟩
  · exact ⟨entry, found, rfl⟩

theorem eventsFrom_sweepOne (queue : InMemoryEventQueue) (handle : String) :
    EventsFrom queue (queue.sweepOne host settings handle).2 := by
  unfold sweepOne
  split
  · exact .refl queue
  · rename_i messageId lent
    have released : ∀ later : InMemoryEventQueue,
        (∀ other entry, later.entries.get? other = some entry →
          (queue.release handle messageId).entries.get? other = some entry) →
        EventsFrom queue later := fun later entries =>
      eventsFrom_of_modify (fun entry => { entry with handle := none }) (fun _ => rfl) entries
    split
    · exact .refl queue
    · split
      · split
        · exact released _ (by simp)
        · refine released _ fun other entry stored => ?_
          simp only [bury, reportFull_containers, OrderedDict.get?_erase] at stored
          split at stored
          · cases stored
          · exact stored
      · exact released _ fun other entry stored => stored

theorem eventsFrom_sweep (queue : InMemoryEventQueue) (now : ℚ) :
    EventsFrom queue (queue.sweep host settings now).2 := by
  have loop : ∀ (handles : List String) (queue : InMemoryEventQueue),
      EventsFrom queue (queue.sweepLoop host settings handles).2 := by
    intro handles
    induction handles with
    | nil => exact fun queue => .refl queue
    | cons handle handles ih =>
        intro queue
        have one : EventsFrom queue (queue.sweepOne host settings handle).2 :=
          eventsFrom_sweepOne queue handle
        simp only [sweepLoop]
        generalize queue.sweepOne host settings handle = turn at *
        obtain ⟨result, next⟩ := turn
        cases result with
        | ok _ => exact one.trans (ih next)
        | error exn => exact one
  simp only [sweep]
  split
  · exact .refl queue
  · exact loop _ queue

theorem eventsFrom_lend (deadline : ℚ) (maxN : ℤ) (waiting : List String) (taken : ℕ)
    (queue : InMemoryEventQueue) :
    EventsFrom queue (queue.lend host deadline maxN waiting taken).2 := by
  induction waiting generalizing queue taken with
  | nil => exact .refl queue
  | cons messageId waiting ih =>
      simp only [lend]
      split
      · refine EventsFrom.trans ?_ (ih _ _)
        simp only [lendOne]
        split
        · exact fun _ entry stored => ⟨entry, stored, rfl⟩
        · exact eventsFrom_of_modify (fun entry => { entry with
            receiveCount := entry.receiveCount + 1, deadline := deadline,
            handle := some (host.uuid4 queue.minted) }) (fun _ => rfl) fun _ _ stored => stored
      · exact .refl queue

/-! ### What one call does to one message -/

/-- How the sweep of a `receive` leaves one message: as it was, or at the end of its loan.  A sweep
that raises may have stopped before it came to the message. -/
inductive SweptTo (host : Host) (settings : QueueSettings) (queue : InMemoryEventQueue) (now : ℚ)
    (messageId : String) : Except Exn Unit → Place String ℚ → Prop where
  | kept (result : Except Exn Unit)
      (spared : result = .ok () → ∀ count handle deadline,
        place host queue messageId = .held count handle deadline → now < deadline) :
      SweptTo host settings queue now messageId result (place host queue messageId)
  | ended {result : Except Exn Unit} {between : Place String ℚ} (handle : String) (entry : Entry)
      (held : place host queue messageId = .held entry.receiveCount handle entry.deadline)
      (stored : queue.entries.get? messageId = some entry) (due : entry.deadline ≤ now)
      (loanEnd : LoanEnd host settings entry between)
      (placed : result = .ok () → ∀ count, between ≠ .stranded count) :
      SweptTo host settings queue now messageId result between

/-- How the lending of a `receive` leaves a message that its sweep had left `between`, and which
messages it hands out for it. -/
inductive LentTo (host : Host) (queue : InMemoryEventQueue) (deadline : ℚ) (messageId : String)
    (between : Place String ℚ) : Place String ℚ → List Message → Prop where
  | kept : LentTo host queue deadline messageId between between []
  | retired (unborn : between = .unborn) : LentTo host queue deadline messageId between .gone []
  | lent (count : ℕ) (handle : String) (entry : Entry) (waits : between = .waiting count)
      (fresh : ¬ Drawn host queue handle)
      (stored : queue.entries.get? messageId = some entry) :
      LentTo host queue deadline messageId between (.held (count + 1) handle deadline)
        [⟨entry.event, handle, count + 1⟩]

theorem sweptTo (settings : QueueSettings) (linked : Linked host queue) (now : ℚ)
    (messageId : String) :
    SweptTo host settings queue now messageId (queue.sweep host settings now).1
      (place host (queue.sweep host settings now).2 messageId) := by
  obtain ⟨-, -, -, fates⟩ := sweep_place settings linked now
  rcases fates messageId with ⟨kept, spared⟩ | ⟨handle, entry, lent, stored, due, loanEnd, placed⟩
  · rw [kept]
    exact .kept _ spared
  · obtain ⟨current, storedAgain, live, -⟩ := linked.inflightEntry handle messageId lent
    rw [stored] at storedAgain
    cases storedAgain
    exact .ended handle entry (place_eq_held.mpr ⟨entry, stored, live, rfl, rfl⟩) stored due
      loanEnd placed

/-- A `receive` whose sweep raises hands out nothing; one whose sweep returns lends from what the
sweep left. -/
theorem receive_effect (settings : QueueSettings) (linked : Linked host queue) (maxN : ℤ)
    (visibilityTimeout : Option ℚ)
    (sweptAt now : ℚ) (messageId : String) :
    ∃ result between, SweptTo host settings queue sweptAt messageId result between ∧
      ((∃ eventId, result = .error (.serializationError eventId) ∧
        (queue.perform host settings (.receive maxN visibilityTimeout sweptAt now)).1 =
          .error (.serializationError eventId) ∧
        place host (queue.after host settings (.receive maxN visibilityTimeout sweptAt now))
          messageId = between ∧
        deliveredTo host settings queue (.receive maxN visibilityTimeout sweptAt now) messageId =
          []) ∨
      (result = .ok () ∧
        (∃ messages, (queue.perform host settings
          (.receive maxN visibilityTimeout sweptAt now)).1 = .ok messages) ∧
        LentTo host queue (now + visibilityTimeout.getD settings.visibilityTimeout) messageId
          between
          (place host (queue.after host settings (.receive maxN visibilityTimeout sweptAt now))
            messageId)
          (deliveredTo host settings queue (.receive maxN visibilityTimeout sweptAt now)
            messageId))) := by
  refine ⟨(queue.sweep host settings sweptAt).1,
    place host (queue.sweep host settings sweptAt).2 messageId, sweptTo _ linked sweptAt messageId, ?_⟩
  obtain ⟨sweptLinks, minted, -⟩ := sweep_place settings linked sweptAt
  rcases receive_cases settings linked maxN visibilityTimeout sweptAt now with
    ⟨eventId, raised, shape⟩ | ⟨swept, returned, shape⟩
  · left
    exact ⟨eventId, raised, by simp [perform, shape], by simp [after, perform, shape],
      by simp [deliveredTo, perform, shape]⟩
  · right
    have events : EventsFrom queue (queue.sweep host settings sweptAt).2 :=
      eventsFrom_sweep queue sweptAt
    simp only [returned] at sweptLinks minted events ⊢
    obtain ⟨popped, fate, none, one⟩ := receive_place linked maxN visibilityTimeout now
      returned messageId
    refine ⟨trivial, ⟨_, by simp only [perform, shape]; rfl⟩, ?_⟩
    generalize place host (queue.after host settings
      (.receive maxN visibilityTimeout sweptAt now)) messageId = later at fate ⊢
    cases fate with
    | kept unlent =>
        rw [none unlent]
        exact .kept
    | retired unlent unborn =>
        rw [none unlent]
        exact .retired unborn
    | lent entry handle stored waits fresh listed =>
        obtain ⟨former, origin, same⟩ := events messageId entry stored
        rw [one _ listed, ← same]
        refine .lent _ handle former waits ?_ origin
        simpa [Drawn, minted] using fresh

/-- A message that is not held under the handle is untouched by a verb that touches only the
message under the handle. -/
private theorem unheld_of_none (linked : Linked host queue) {handle : String}
    (absent : queue.inflight.get? handle = none) (messageId : String) (count : ℕ) (deadline : ℚ) :
    place host queue messageId ≠ .held count handle deadline := by
  intro held
  rw [linked.inflight_iff.mpr ⟨count, deadline, held⟩] at absent
  cases absent

private theorem unheld_of_other (linked : Linked host queue) {handle messageId other : String}
    (lent : queue.inflight.get? handle = some messageId) (different : other ≠ messageId)
    (count : ℕ) (deadline : ℚ) : place host queue other ≠ .held count handle deadline := by
  intro held
  rw [linked.inflight_iff.mpr ⟨count, deadline, held⟩] at lent
  exact different (Option.some.inj lent)

theorem delete_effect (settings : QueueSettings) (linked : Linked host queue)
    (handle messageId : String) :
    (∃ count deadline, place host queue messageId = .held count handle deadline ∧
      (queue.perform host settings (.delete handle)).1 = .ok [] ∧
      place host (queue.after host settings (.delete handle)) messageId = .gone) ∨
    ((∀ count deadline, place host queue messageId ≠ .held count handle deadline) ∧
      place host (queue.after host settings (.delete handle)) messageId =
        place host queue messageId) := by
  cases lent : queue.inflight.get? handle with
  | none => exact .inr ⟨unheld_of_none linked lent messageId, by simp [after, perform, delete, lent]⟩
  | some owner =>
      obtain ⟨gone, others⟩ := delete_place linked lent
      by_cases same : messageId = owner
      · subst same
        obtain ⟨count, deadline, held⟩ := linked.inflight_iff.mp lent
        refine .inl ⟨count, deadline, held, ?_, gone⟩
        simp [perform, delete, lent, Except.map]
      · exact .inr ⟨unheld_of_other linked lent same, others messageId same⟩

theorem changeVisibility_effect (settings : QueueSettings) (linked : Linked host queue)
    (handle : String) (seconds now : ℚ)
    (messageId : String) :
    (∃ count deadline, place host queue messageId = .held count handle deadline ∧
      (queue.perform host settings (.changeVisibility handle seconds now)).1 = .ok [] ∧
      place host (queue.after host settings (.changeVisibility handle seconds now)) messageId =
        .held count handle (now + seconds)) ∨
    ((∀ count deadline, place host queue messageId ≠ .held count handle deadline) ∧
      place host (queue.after host settings (.changeVisibility handle seconds now)) messageId =
        place host queue messageId) := by
  rcases changeVisibility_cases linked handle seconds now with
    ⟨absent, shape⟩ | ⟨owner, entry, lent, stored, live, shape⟩
  · exact .inr ⟨unheld_of_none linked absent messageId, by simp [after, perform, shape]⟩
  · obtain ⟨returned, moved, others⟩ := setDeadline_place host (now + seconds) stored live
    by_cases same : messageId = owner
    · subst same
      refine .inl ⟨_, _, place_eq_held.mpr ⟨entry, stored, live, rfl, rfl⟩, ?_, ?_⟩
      · simp [perform, shape, returned, Except.map]
      · simpa [after, perform, shape] using moved
    · refine .inr ⟨unheld_of_other linked lent same, ?_⟩
      simpa [after, perform, shape] using others messageId same

theorem fail_effect (settings : QueueSettings) (linked : Linked host queue) (handle : String)
    (now : ℚ) (messageId : String) :
    (∃ count deadline backoff, place host queue messageId = .held count handle deadline ∧
      backoffFor settings count = .ok backoff ∧
      (queue.perform host settings (.fail handle now)).1 = .ok [] ∧
      place host (queue.after host settings (.fail handle now)) messageId =
        .held count handle (now + backoff)) ∨
    (∃ count deadline, place host queue messageId = .held count handle deadline ∧
      backoffFor settings count = .error .overflowError ∧
      (queue.perform host settings (.fail handle now)).1 = .error .overflowError ∧
      place host (queue.after host settings (.fail handle now)) messageId =
        place host queue messageId) ∨
    ((∀ count deadline, place host queue messageId ≠ .held count handle deadline) ∧
      place host (queue.after host settings (.fail handle now)) messageId =
        place host queue messageId) := by
  rcases fail_cases settings linked handle now with
    ⟨absent, shape⟩ | ⟨owner, entry, lent, stored, live, outcome⟩
  · exact .inr (.inr ⟨unheld_of_none linked absent messageId, by simp [after, perform, shape]⟩)
  by_cases same : messageId = owner
  · subst same
    have held := linked.held_of_lent lent stored
    rcases outcome with ⟨backoff, backedOff, shape⟩ | ⟨overflow, shape⟩
    · obtain ⟨returned, moved, -⟩ := setDeadline_place host (now + backoff) stored live
      refine .inl ⟨_, _, backoff, held, backedOff, ?_, ?_⟩
      · simp [perform, shape, returned, Except.map]
      · simpa [after, perform, shape] using moved
    · refine .inr (.inl ⟨_, _, held, overflow, ?_, ?_⟩)
      · simp [perform, shape, Except.map]
      · simp [after, perform, shape]
  · refine .inr (.inr ⟨unheld_of_other linked lent same, ?_⟩)
    rcases outcome with ⟨backoff, -, shape⟩ | ⟨-, shape⟩
    · obtain ⟨-, -, others⟩ := setDeadline_place host (now + backoff) stored live
      simpa [after, perform, shape] using others messageId same
    · simp [after, perform, shape]

theorem send_effect (settings : QueueSettings) (linked : Linked host queue) (event : Event)
    (messageId : String) :
    (messageId = host.uuid4 queue.minted ∧ queue.entries.size < settings.maxsize ∧
      place host queue messageId = .unborn ∧
      place host (queue.after host settings (.send event)) messageId = .waiting 0) ∨
    place host (queue.after host settings (.send event)) messageId =
      place host queue messageId := by
  rcases send_cases host settings queue event with
    ⟨-, same, -⟩ | ⟨room, -⟩
  · right
    simp [after, perform, same]
  · obtain ⟨unborn, waits, others⟩ := send_place linked event room
    by_cases new : messageId = host.uuid4 queue.minted
    · subst new
      exact .inl ⟨rfl, room, unborn, waits⟩
    · exact .inr (others messageId new)

theorem deliveredTo_nil {call : QueueCall} (messageId : String)
    (quiet : ∀ maxN visibilityTimeout sweptAt now,
      call ≠ .receive maxN visibilityTimeout sweptAt now) :
    deliveredTo host settings queue call messageId = [] := by
  have empty : ∀ result : Except Exn Unit, ∀ messages,
      (result.map fun _ => ([] : List Message)) = .ok messages → messages = [] := by
    intro result messages shape
    cases result with
    | ok _ => exact (Except.ok.inj shape).symm
    | error exn => cases shape
  unfold deliveredTo
  split
  · rfl
  · rename_i messages shape
    cases call with
    | receive maxN visibilityTimeout sweptAt now => exact absurd rfl (quiet maxN visibilityTimeout sweptAt now)
    | clear =>
        cases shape
        rfl
    | _ => simp [empty _ messages shape]

/-- Every call keeps the links. -/
theorem linked_after (linked : Linked host queue) (call : QueueCall) :
    Linked host (queue.after host settings call) := by
  cases call with
  | send event => exact linked_send linked event
  | receive maxN visibilityTimeout sweptAt now =>
      have sweptLinks := (sweep_place settings linked sweptAt).1
      simp only [after, perform]
      rcases receive_cases settings linked maxN visibilityTimeout sweptAt now with
        ⟨eventId, -, shape⟩ | ⟨swept, returned, shape⟩
      · rw [shape]
        exact sweptLinks
      · rw [shape]
        rw [returned] at sweptLinks
        exact (lend_place sweptLinks _ maxN rfl 0).1
  | delete handle => exact linked_delete linked handle
  | changeVisibility handle seconds now =>
      simp only [after, perform, Prod.map_snd, id]
      rcases changeVisibility_cases linked handle seconds now with
        ⟨-, shape⟩ | ⟨messageId, entry, -, -, -, shape⟩
      · rw [shape]
        exact linked
      · rw [shape]
        exact linked_setDeadline linked messageId _
  | fail handle now =>
      simp only [after, perform, Prod.map_snd, id]
      rcases fail_cases settings linked handle now with
        ⟨-, shape⟩ | ⟨messageId, entry, -, -, -, ⟨backoff, -, shape⟩ | ⟨-, shape⟩⟩
      · rw [shape]
        exact linked
      · rw [shape]
        exact linked_setDeadline linked messageId _
      · rw [shape]
        exact linked
  | clear => exact linked_clear

/-- One call is a sequence of steps of the life cycle of every message, and the lendings among them
are the messages handed out. -/
theorem after_steps (settings : QueueSettings) (linked : Linked host queue) (call : QueueCall)
    (messageId : String) :
    ∃ acts, Steps settings.maxReceives (place host queue messageId) acts
        (place host (queue.after host settings call) messageId) ∧
      lendings acts = (deliveredTo host settings queue call messageId).map fun message =>
        (message.receiveCount, message.receiptHandle) := by
  cases call with
  | send event =>
      rw [deliveredTo_nil messageId (by simp)]
      rcases send_effect settings linked event messageId with
        ⟨-, -, unborn, waits⟩ | same
      · rw [unborn, waits]
        exact ⟨_, .single .arrive, rfl⟩
      · exact ⟨[], same ▸ .refl, rfl⟩
  | delete handle =>
      rw [deliveredTo_nil messageId (by simp)]
      rcases delete_effect settings linked handle messageId with
        ⟨count, deadline, held, -, gone⟩ | ⟨-, same⟩
      · rw [held, gone]
        exact ⟨_, .single (.settle ..), rfl⟩
      · exact ⟨[], same ▸ .refl, rfl⟩
  | changeVisibility handle seconds now =>
      rw [deliveredTo_nil messageId (by simp)]
      rcases changeVisibility_effect settings linked handle seconds now messageId with
        ⟨count, deadline, held, -, moved⟩ | ⟨-, same⟩
      · rw [held, moved]
        exact ⟨_, .single (.extend ..), rfl⟩
      · exact ⟨[], same ▸ .refl, rfl⟩
  | fail handle now =>
      rw [deliveredTo_nil messageId (by simp)]
      rcases fail_effect settings linked handle now messageId with
        ⟨count, deadline, backoff, held, -, -, moved⟩ | ⟨count, deadline, -, -, -, same⟩ | ⟨-, same⟩
      · rw [held, moved]
        exact ⟨_, .single (.extend ..), rfl⟩
      · exact ⟨[], same ▸ .refl, rfl⟩
      · exact ⟨[], same ▸ .refl, rfl⟩
  | clear =>
      rw [deliveredTo_nil messageId (by simp)]
      rcases clear_place linked messageId with ⟨unborn, same⟩ | ⟨born, gone⟩
      · exact ⟨[], by simpa [after, perform, unborn, same] using .refl, rfl⟩
      · refine ⟨[.drop], ?_, rfl⟩
        simpa only [after, perform, gone] using Steps.single (.drop _ born)
  | receive maxN visibilityTimeout sweptAt now =>
      obtain ⟨result, between, sweep, lending⟩ :=
        receive_effect settings linked maxN visibilityTimeout sweptAt now messageId
      have sweeps : ∃ acts, Steps settings.maxReceives (place host queue messageId) acts between ∧
          lendings acts = [] := by
        cases sweep with
        | kept => exact ⟨[], .refl, rfl⟩
        | ended handle entry held stored due loanEnd =>
            rw [held]
            exact loanEnd.steps due
      obtain ⟨acts, steps, quiet⟩ := sweeps
      rcases lending with ⟨eventId, -, -, same, none⟩ | ⟨-, -, lends⟩
      · rw [same, none]
        exact ⟨acts, steps, quiet⟩
      · generalize place host (queue.after host settings
          (.receive maxN visibilityTimeout sweptAt now)) messageId = later at lends ⊢
        generalize deliveredTo host settings queue
          (.receive maxN visibilityTimeout sweptAt now) messageId = messages at lends ⊢
        cases lends with
        | kept => exact ⟨acts, steps, quiet⟩
        | retired unborn =>
            subst unborn
            exact ⟨acts ++ [.retire], .snoc steps .retire, by simp [quiet, Lease.Act.lending?]⟩
        | lent count handle entry waits fresh stored =>
            subst waits
            exact ⟨acts ++ [.lend (count + 1) handle _], .snoc steps (.lend ..),
              by simp [quiet, Lease.Act.lending?]⟩

theorem absent_iff (host : Host) {messageId : String} :
    queue.entries.get? messageId = none ↔
      place host queue messageId = .gone ∨ place host queue messageId = .unborn := by
  rw [place_eq_gone, place_eq_unborn, ← and_or_left, and_iff_left (Decidable.em _)]

/-- A message whose entry a call removed is gone. -/
theorem gone_after (linked : Linked host queue) (call : QueueCall) {messageId : String}
    (present : queue.entries.get? messageId ≠ none)
    (removed : (queue.after host settings call).entries.get? messageId = none) :
    place host (queue.after host settings call) messageId = .gone := by
  obtain ⟨acts, steps, -⟩ := after_steps settings linked call messageId
  have born := steps.born_stays fun unborn => present ((absent_iff host).mpr (.inr unborn))
  exact ((absent_iff host).mp removed).resolve_right born

/-- Every entry after a call was there before with the same event, or is the one that a `send` has
just made. -/
theorem entries_after (linked : Linked host queue) (call : QueueCall) {messageId : String}
    {entry : Entry}
    (stored : (queue.after host settings call).entries.get? messageId = some entry) :
    (∃ former, queue.entries.get? messageId = some former ∧ former.event = entry.event) ∨
      (call = .send entry.event ∧ messageId = host.uuid4 queue.minted ∧
        queue.entries.get? messageId = none) := by
  have same : queue.entries.get? messageId = some entry →
      ∃ former, queue.entries.get? messageId = some former ∧ former.event = entry.event :=
    fun found => ⟨entry, found, rfl⟩
  have deadlineOnly : ∀ other deadline,
      (queue.setDeadline other deadline).2.entries.get? messageId = some entry →
      ∃ former, queue.entries.get? messageId = some former ∧ former.event = entry.event := by
    intro other deadline found
    simp only [setDeadline] at found
    split at found
    · exact same found
    · exact eventsFrom_of_modify (fun entry => { entry with deadline := deadline })
        (fun _ => rfl) (fun _ _ kept => kept) messageId entry found
  cases call with
  | send event =>
      rcases send_cases host settings queue event with
        ⟨-, kept, -⟩ | ⟨-, shape⟩
      · simp only [after, perform, Prod.map_snd, id, kept] at stored
        exact .inl (same stored)
      · simp only [after, perform, Prod.map_snd, id, shape, OrderedDict.get?_set] at stored
        split at stored
        · rename_i new
          cases stored
          exact .inr ⟨rfl, new, new ▸ linked.entries_fresh (Nat.le_refl _)⟩
        · exact .inl (same stored)
  | receive maxN visibilityTimeout sweptAt now =>
      have swept : EventsFrom queue (queue.sweep host settings sweptAt).2 :=
        eventsFrom_sweep queue sweptAt
      rcases receive_cases settings linked maxN visibilityTimeout sweptAt now with
        ⟨eventId, -, shape⟩ | ⟨next, returned, shape⟩
      · simp only [after, perform, shape] at stored
        exact .inl (swept messageId entry stored)
      · simp only [after, perform, shape] at stored
        rw [returned] at swept
        exact .inl ((swept.trans (eventsFrom_lend _ _ _ _ next)) messageId entry stored)
  | delete handle =>
      simp only [after, perform, Prod.map_snd, id, delete] at stored
      split at stored
      · exact .inl (same stored)
      · rw [OrderedDict.get?_erase] at stored
        split at stored
        · cases stored
        · exact .inl (same stored)
  | changeVisibility handle seconds now =>
      rcases changeVisibility_cases linked handle seconds now with
        ⟨-, shape⟩ | ⟨owner, former, -, -, -, shape⟩
      · simp only [after, perform, Prod.map_snd, id, shape] at stored
        exact .inl (same stored)
      · simp only [after, perform, Prod.map_snd, id, shape] at stored
        exact .inl (deadlineOnly _ _ stored)
  | fail handle now =>
      rcases fail_cases settings linked handle now with
        ⟨-, shape⟩ | ⟨owner, former, -, -, -, ⟨backoff, -, shape⟩ | ⟨-, shape⟩⟩
      · simp only [after, perform, Prod.map_snd, id, shape] at stored
        exact .inl (same stored)
      · simp only [after, perform, Prod.map_snd, id, shape] at stored
        exact .inl (deadlineOnly _ _ stored)
      · simp only [after, perform, Prod.map_snd, id, shape] at stored
        exact .inl (same stored)
  | clear => simp [after, perform, clear] at stored

/-- Every message that a call hands out is handed out for one message id. -/
theorem delivered_covers (linked : Linked host queue) {call : QueueCall} {messages : List Message}
    (returned : (queue.perform host settings call).1 = .ok messages) {message : Message}
    (listed : message ∈ messages) :
    ∃! messageId, message ∈ deliveredTo host settings queue call messageId := by
  have mem_iff : ∀ messageId, message ∈ deliveredTo host settings queue call messageId ↔
      (queue.after host settings call).inflight.get? message.receiptHandle = some messageId := by
    intro messageId
    simp [deliveredTo, returned, listed]
  suffices lent : ∃ messageId,
      (queue.after host settings call).inflight.get? message.receiptHandle = some messageId by
    obtain ⟨messageId, live⟩ := lent
    refine ⟨messageId, (mem_iff messageId).mpr live, fun other member => ?_⟩
    exact Option.some.inj (((mem_iff other).mp member).symm.trans live)
  have empty : ∀ result : Except Exn Unit,
      (result.map fun _ => ([] : List Message)) = .ok messages → False := by
    intro result shape
    cases result with
    | ok _ =>
        cases shape
        simp at listed
    | error exn => cases shape
  cases call with
  | receive maxN visibilityTimeout sweptAt now =>
      have sweptLinks := (sweep_place settings linked sweptAt).1
      rcases receive_cases settings linked maxN visibilityTimeout sweptAt now with
        ⟨eventId, -, shape⟩ | ⟨swept, done, shape⟩
      · simp [perform, shape] at returned
      · rw [done] at sweptLinks
        obtain ⟨linkedAfter, -, -, turns, -⟩ := lend_place sweptLinks
          (now + visibilityTimeout.getD settings.visibilityTimeout) maxN rfl 0
        simp only [perform, shape, Except.ok.injEq] at returned
        rw [← returned, List.mem_filterMap] at listed
        obtain ⟨turn, member, handedOut⟩ := listed
        obtain ⟨messageId, lent, rfl, held⟩ := turns turn member
        cases handedOut
        refine ⟨messageId, ?_⟩
        simp only [after, perform, shape]
        exact linkedAfter.inflight_iff.mpr ⟨_, _, held⟩
  | clear =>
      cases returned
      simp at listed
  | _ => exact absurd returned (empty _)

/-- A message held after a call was held before, under the same handle and with the same count, or
its handle is a uuid4 value that a `receive` has just drawn. -/
theorem held_after (settings : QueueSettings) (linked : Linked host queue) (call : QueueCall)
    {messageId handle : String} {count : ℕ} {deadline : ℚ}
    (held : place host (queue.after host settings call) messageId = .held count handle deadline) :
    (∃ earlier, place host queue messageId = .held count handle earlier) ∨
      ¬ Drawn host queue handle := by
  have same : place host (queue.after host settings call) messageId = place host queue messageId →
      ∃ earlier, place host queue messageId = .held count handle earlier :=
    fun equal => ⟨deadline, equal ▸ held⟩
  cases call with
  | send event =>
      rcases send_effect settings linked event messageId with
        ⟨-, -, -, waits⟩ | kept
      · simp [waits] at held
      · exact .inl (same kept)
  | delete other =>
      rcases delete_effect settings linked other messageId with
        ⟨-, -, -, -, gone⟩ | ⟨-, kept⟩
      · simp [gone] at held
      · exact .inl (same kept)
  | changeVisibility other seconds now =>
      rcases changeVisibility_effect settings linked other seconds now messageId with
        ⟨former, earlier, before, -, moved⟩ | ⟨-, kept⟩
      · rw [moved] at held
        cases held
        exact .inl ⟨_, before⟩
      · exact .inl (same kept)
  | fail other now =>
      rcases fail_effect settings linked other now messageId with
        ⟨former, earlier, backoff, before, -, -, moved⟩ | ⟨_, _, -, -, -, kept⟩ | ⟨-, kept⟩
      · rw [moved] at held
        cases held
        exact .inl ⟨_, before⟩
      · exact .inl (same kept)
      · exact .inl (same kept)
  | clear =>
      rcases clear_place linked messageId with ⟨-, unborn⟩ | ⟨-, gone⟩
      · simp [after, perform, unborn] at held
      · simp [after, perform, gone] at held
  | receive maxN visibilityTimeout sweptAt now =>
      obtain ⟨result, between, sweep, lending⟩ :=
        receive_effect settings linked maxN visibilityTimeout sweptAt now messageId
      have keeps : between = .held count handle deadline →
          ∃ earlier, place host queue messageId = .held count handle earlier := by
        intro shape
        cases sweep with
        | kept => exact ⟨_, shape⟩
        | ended _ _ _ _ _ loanEnd => cases loanEnd <;> cases shape
      rcases lending with ⟨-, -, -, equal, -⟩ | ⟨-, -, lends⟩
      · exact .inl (keeps (equal ▸ held))
      · rw [held] at lends
        generalize deliveredTo host settings queue _ messageId = messages at lends
        cases lends with
        | kept => exact .inl (keeps rfl)
        | lent _ _ _ _ fresh => exact .inr fresh

/-- A handle that is live after a call was live before, for the same message, or is a uuid4 value that
a `receive` has just drawn. -/
theorem live_after (linked : Linked host queue) (call : QueueCall) {handle messageId : String}
    (lent : (queue.after host settings call).inflight.get? handle = some messageId) :
    queue.inflight.get? handle = some messageId ∨ ¬ Drawn host queue handle := by
  obtain ⟨count, deadline, held⟩ := (linked_after linked call).inflight_iff.mp lent
  rcases held_after settings linked call held with ⟨earlier, before⟩ | fresh
  · exact .inl (linked.inflight_iff.mpr ⟨count, earlier, before⟩)
  · exact .inr fresh

theorem lend_length (deadline : ℚ) {maxN : ℤ} (waiting : List String) {taken : ℕ}
    (room : (taken : ℤ) ≤ maxN) (queue : InMemoryEventQueue) :
    (taken : ℤ) + ((queue.lend host deadline maxN waiting taken).1.filterMap
      Popped.message?).length ≤ maxN := by
  induction waiting generalizing taken queue with
  | nil => simpa [lend] using room
  | cons messageId waiting ih =>
      simp only [lend]
      split
      · rename_i below
        generalize lendOne host deadline messageId { queue with visible := waiting } = turn
        obtain ⟨popped, next⟩ := turn
        cases popped with
        | deletedWhileQueued other =>
            simpa [Popped.message?, List.filterMap_cons] using ih room next
        | lent other message =>
            have bounded := @ih (taken + 1) (by omega) next
            simp only [Popped.message?, Option.toList_some, List.length_cons, List.length_nil,
              List.filterMap_cons] at bounded ⊢
            push_cast at bounded ⊢
            omega
      · simpa using room

/-- A `receive` hands out no more messages than it was asked for. -/
theorem receive_length (linked : Linked host queue) {maxN : ℤ} (positive : 0 ≤ maxN)
    {visibilityTimeout : Option ℚ} {sweptAt now : ℚ} {messages : List Message}
    (returned : (queue.perform host settings (.receive maxN visibilityTimeout sweptAt now)).1 =
      .ok messages) : (messages.length : ℤ) ≤ maxN := by
  rcases receive_cases settings linked maxN visibilityTimeout sweptAt now with
    ⟨eventId, -, shape⟩ | ⟨swept, -, shape⟩
  · simp [perform, shape] at returned
  · simp only [perform, shape, Except.ok.injEq] at returned
    rw [← returned]
    simpa using @lend_length host (now + visibilityTimeout.getD settings.visibilityTimeout)
      maxN swept.visible 0 (by simpa using positive) swept

/-- The messages that a `receive` hands out come under new handles, all different, and with the event
and the count of their entries. -/
theorem receive_handles (linked : Linked host queue) {maxN : ℤ} {visibilityTimeout : Option ℚ}
    {sweptAt now : ℚ} {messages : List Message}
    (returned : (queue.perform host settings (.receive maxN visibilityTimeout sweptAt now)).1 =
      .ok messages) :
    (messages.map Message.receiptHandle).Nodup ∧
      ∀ message ∈ messages, ¬ Drawn host queue message.receiptHandle ∧
        ∃ messageId entry,
          (queue.after host settings (.receive maxN visibilityTimeout sweptAt now)).inflight.get?
            message.receiptHandle = some messageId ∧
          (queue.after host settings (.receive maxN visibilityTimeout sweptAt now)).entries.get?
            messageId = some entry ∧
          entry.event = message.event ∧ entry.receiveCount = message.receiveCount := by
  obtain ⟨sweptLinks, minted, -⟩ := sweep_place settings linked sweptAt
  rcases receive_cases settings linked maxN visibilityTimeout sweptAt now with
    ⟨eventId, -, shape⟩ | ⟨swept, done, shape⟩
  · simp [perform, shape] at returned
  rw [done] at sweptLinks minted
  dsimp only at sweptLinks minted
  have final : queue.after host settings (.receive maxN visibilityTimeout sweptAt now) =
      (swept.lend host (now + visibilityTimeout.getD settings.visibilityTimeout) maxN
        swept.visible 0).2 := by simp only [after, perform, shape]
  have events : EventsFrom swept (swept.lend host
      (now + visibilityTimeout.getD settings.visibilityTimeout) maxN swept.visible 0).2 :=
    eventsFrom_lend _ _ _ _ swept
  obtain ⟨linkedAfter, -, sublist, turns, fates⟩ := lend_place sweptLinks
    (now + visibilityTimeout.getD settings.visibilityTimeout) maxN rfl 0
  simp only [perform, shape, Except.ok.injEq] at returned
  rw [final, ← returned]
  clear final returned shape done
  generalize swept.lend host (now + visibilityTimeout.getD settings.visibilityTimeout) maxN
    swept.visible 0 = lending at *
  obtain ⟨popped, last⟩ := lending
  dsimp only at *
  have nodup : (popped.map Popped.messageId).Nodup := sweptLinks.visibleNodup.sublist sublist
  have issued : ∀ turn ∈ popped, ∀ message, turn.message? = some message →
      turn = .lent turn.messageId message ∧
        last.inflight.get? message.receiptHandle = some turn.messageId := by
    intro turn member message handedOut
    obtain ⟨messageId, lent, rfl, held⟩ := turns turn member
    cases handedOut
    exact ⟨rfl, linkedAfter.inflight_iff.mpr ⟨_, _, held⟩⟩
  constructor
  · rw [List.Nodup, List.pairwise_map, List.pairwise_filterMap]
    apply (List.pairwise_map.mp nodup).imp_of_mem
    intro one two oneMember twoMember different first firstShape second secondShape same
    obtain ⟨-, firstLive⟩ := issued one oneMember first firstShape
    obtain ⟨-, secondLive⟩ := issued two twoMember second secondShape
    rw [same, secondLive] at firstLive
    exact different (Option.some.inj firstLive).symm
  · intro message member
    obtain ⟨turn, listed, handedOut⟩ := List.mem_filterMap.mp member
    obtain ⟨same, live⟩ := issued turn listed message handedOut
    obtain ⟨count, deadline, held⟩ := linkedAfter.inflight_iff.mp live
    obtain ⟨current, stands, -, counted, -⟩ := place_eq_held.mp held
    have fate := fates turn.messageId
    generalize place host last turn.messageId = later at fate held
    cases fate with
    | kept unlent => exact absurd (same ▸ listed) (unlent message)
    | retired unlent => exact absurd (same ▸ listed) (unlent message)
    | lent entry handle stored waits fresh again =>
        cases held
        -- each id is popped once, so the turn that lent it is this one
        have once : turn = .lent turn.messageId ⟨entry.event, message.receiptHandle,
            entry.receiveCount + 1⟩ := List.inj_on_of_nodup_map nodup listed again rfl
        rw [same] at once
        have carried := (Popped.lent.inj once).2
        obtain ⟨former, origin, event⟩ := events _ _ stands
        rw [stored] at origin
        cases origin
        refine ⟨?_, turn.messageId, current, live, stands, ?_, ?_⟩
        · simpa [Drawn, minted] using fresh
        · rw [← event, carried]
        · rw [counted, carried]

end FeathrEvents.InMemoryEventQueue
