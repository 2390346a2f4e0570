/-
Module: FeathrEvents.Proofs.QueueConservation
Purpose: The accounts of the queue balance: every accepted event is pending, deleted or dead-lettered,
  once; and the dead-letter queue has the last of the dead letters and names each one that it drops.
Trusted boundary: none
Main exports: QueueLine.discarded?, acceptedBy, deletedBy, deadLetters, Settles,
  queue_conserves_events
-/
import Mathlib.Algebra.Order.Group.Multiset
import Mathlib.Tactic.Abel
import FeathrEvents.Proofs.QueueFates

namespace FeathrEvents

open Collections (OrderedDict BoundedDeque)

/-- The id that a line names as discarded. -/
def QueueLine.discarded? : QueueLine → Option String
  | .full _ discarded _ => some discarded
  | .deadLettering .. => none

namespace InMemoryEventQueue

/-- The event that a call sent, if the queue accepted it. -/
def acceptedBy (host : Host) (settings : QueueSettings) (queue : InMemoryEventQueue) :
    QueueCall → Option Event
  | .send event =>
      match (queue.send host settings event).1 with
      | .ok _ => some event
      | .error _ => none
  | .receive .. | .delete _ | .changeVisibility .. | .fail .. | .clear => none

/-- The event of the message that a call removed by `delete`. -/
def deletedBy (queue : InMemoryEventQueue) (call : QueueCall) : Option Event :=
  (ackedBy queue call).bind fun messageId => (queue.entries.get? messageId).map Entry.event

variable (host : Host) (settings : QueueSettings)

/-- The events of all successful sends, in order. -/
def accepted (past : History) : List Event :=
  past.filterMap fun visit => acceptedBy host settings visit.1 visit.2

/-- The events removed by all successful deletes, in order. -/
def deleted (past : History) : List Event := past.filterMap fun visit => deletedBy visit.1 visit.2

/-- The events that a call dead-letters, in order. -/
def buriedBy (queue : InMemoryEventQueue) (call : QueueCall) : List Event :=
  (deadLettered host settings queue call).map fun arrival => arrival.2.event

/-- The events ever dead-lettered, in order, also those that the bounded dead-letter queue has
dropped in the meantime. -/
def deadLetters (past : History) : List Event :=
  past.flatMap fun visit => buriedBy host settings visit.1 visit.2

variable {host settings} {queue later : InMemoryEventQueue}

theorem accepted_snoc (past : History) (call : QueueCall) :
    accepted host settings (past ++ [(queue, call)]) =
      accepted host settings past ++ (acceptedBy host settings queue call).toList :=
  Machine.filterMap_snoc ..

theorem deleted_snoc (past : History) (call : QueueCall) :
    deleted (past ++ [(queue, call)]) = deleted past ++ (deletedBy queue call).toList :=
  Machine.filterMap_snoc ..

theorem deadLetters_snoc (past : History) (call : QueueCall) :
    deadLetters host settings (past ++ [(queue, call)]) =
      deadLetters host settings past ++ buriedBy host settings queue call := by
  simp [deadLetters]

/-- The events that fall out of the dead-letter queue when others arrive are the ones that the new lines
name as discarded, in the same order. -/
def Drops (queue later : InMemoryEventQueue) (arrivals : List Event) : Prop :=
  ∃ dropped lines, queue.dlq.items ++ arrivals = dropped ++ later.dlq.items ∧
    later.log = queue.log ++ lines ∧
    lines.filterMap QueueLine.discarded? = dropped.map Event.eventId

theorem Drops.refl (queue : InMemoryEventQueue) : Drops queue queue [] :=
  ⟨[], [], by simp, by simp, rfl⟩

theorem Drops.trans {first second third : InMemoryEventQueue} {one two : List Event}
    (earlier : Drops first second one) (next : Drops second third two) :
    Drops first third (one ++ two) := by
  obtain ⟨dropped, lines, items, logged, named⟩ := earlier
  obtain ⟨droppedNext, linesNext, itemsNext, loggedNext, namedNext⟩ := next
  refine ⟨dropped ++ droppedNext, lines ++ linesNext, ?_, ?_, ?_⟩
  · rw [← List.append_assoc, items, List.append_assoc, itemsNext, List.append_assoc]
  · rw [loggedNext, logged, List.append_assoc]
  · rw [List.filterMap_append, named, namedNext, List.map_append]

/-- Nothing arrives and nothing is logged. -/
theorem Drops.of_same (dlq : later.dlq = queue.dlq) (log : later.log = queue.log) :
    Drops queue later [] :=
  ⟨[], [], by simp [dlq], by simp [log], rfl⟩

/-- What a sweep takes out of the entries arrives in the dead-letter queue, and what that one drops
to make room is named in the log. -/
structure Settles (queue : InMemoryEventQueue) (arrivals : List (String × Entry))
    (later : InMemoryEventQueue) : Prop where
  events : queue.pendingEvents.Perm
    (later.pendingEvents ++ arrivals.map fun arrival => arrival.2.event)
  drops : Drops queue later (arrivals.map fun arrival => arrival.2.event)

/-! ### The sweep -/

theorem pendingEvents_modify (messageId : String) (update : Entry → Entry)
    (entries : later.entries = queue.entries.modify messageId update)
    (kept : ∀ entry, (update entry).event = entry.event) :
    later.pendingEvents = queue.pendingEvents := by
  rw [pendingEvents, entries, OrderedDict.map_values_modify Entry.event _ _ kept]
  rfl

theorem pendingEvents_erase {messageId : String} {entry : Entry}
    (stored : queue.entries.get? messageId = some entry)
    (entries : later.entries = queue.entries.erase messageId) :
    queue.pendingEvents.Perm (entry.event :: later.pendingEvents) := by
  rw [pendingEvents, pendingEvents, entries]
  exact (OrderedDict.values_perm_erase stored).map Entry.event

/-- The oldest dead letter is named before it falls out. -/
theorem drops_bury (messageId : String) (entry : Entry) (payload : String)
    (queue : InMemoryEventQueue) :
    Drops queue ((queue.reportFull entry).bury messageId entry payload) [entry.event] := by
  by_cases full : queue.dlq.items.length = dlqMaxlen
  · obtain ⟨oldest, rest, shape⟩ : ∃ oldest rest, queue.dlq.items = oldest :: rest := by
      apply List.exists_cons_of_ne_nil
      intro empty
      simp [empty, dlqMaxlen] at full
    have reported : queue.reportFull entry = { queue with
        log := queue.log ++ [.full dlqMaxlen oldest.eventId entry.event.eventId] } := by
      simp only [reportFull, shape]
      exact if_pos (by rw [← shape, full])
    refine ⟨[oldest], [.full dlqMaxlen oldest.eventId entry.event.eventId,
      .deadLettering entry.event.eventId entry.receiveCount payload], ?_, ?_, rfl⟩
    · simp only [bury, reported, BoundedDeque.items_append_of_full entry.event shape full, shape]
      rfl
    · simp [bury, reported]
  · have reported : queue.reportFull entry = queue := by
      unfold reportFull
      split
      · rfl
      · exact if_neg full
    have room : queue.dlq.items.length < dlqMaxlen := lt_of_le_of_ne queue.dlq.bounded full
    refine ⟨[], [.deadLettering entry.event.eventId entry.receiveCount payload], ?_, ?_, rfl⟩
    · simp only [bury, reported, BoundedDeque.items_append_of_room entry.event room]
      rfl
    · simp [bury, reported]

theorem settles_sweepOne (settings : QueueSettings) (serialises : host.Serialises)
    {handle messageId : String} {entry : Entry}
    (lent : queue.inflight.get? handle = some messageId)
    (stored : queue.entries.get? messageId = some entry) :
    Settles queue (exhausted settings queue handle).toList
      (queue.sweepOne host settings handle).2 := by
  have spent : exhausted settings queue handle =
      if settings.maxReceives ≤ entry.receiveCount then some (messageId, entry) else none := by
    simp [exhausted, lent, stored]
  rcases sweepOne_cases host settings lent stored with
    ⟨below, shape⟩ | ⟨atLimit, payload, dumped, shape⟩ | ⟨-, raises, -⟩
  · rw [spent, if_neg (by omega), shape]
    have same : ({ queue.release handle messageId with
        visible := queue.visible ++ [messageId] } : InMemoryEventQueue).pendingEvents =
          queue.pendingEvents :=
      pendingEvents_modify messageId (fun entry => { entry with handle := none }) rfl fun _ => rfl
    refine ⟨?_, .of_same rfl rfl⟩
    rw [same]
    simp
  · rw [spent, if_pos atLimit, shape]
    have released : Drops queue (queue.release handle messageId) [] := .of_same rfl rfl
    have entries : (((queue.release handle messageId).reportFull entry).bury messageId entry
        payload).entries = queue.entries.erase messageId := by
      simp [bury, release, OrderedDict.erase_modify]
    refine ⟨?_, released.trans (drops_bury messageId entry payload _)⟩
    exact (pendingEvents_erase stored entries).trans (List.perm_append_singleton ..).symm
  · simpa [raises] using serialises entry.event

theorem pendingEvents_lend (host : Host) (deadline : ℚ) (maxN : ℤ) (waiting : List String)
    (taken : ℕ) (queue : InMemoryEventQueue) :
    (queue.lend host deadline maxN waiting taken).2.pendingEvents = queue.pendingEvents := by
  induction waiting generalizing queue taken with
  | nil => rfl
  | cons messageId waiting ih =>
      simp only [lend]
      split
      · simp only [ih]
        simp only [lendOne]
        split
        · rfl
        · exact pendingEvents_modify messageId (fun entry => { entry with
            receiveCount := entry.receiveCount + 1, deadline := deadline,
            handle := some (host.uuid4 queue.minted) }) rfl fun _ => rfl
      · rfl

theorem settles_accounts (settings : QueueSettings) (serialises : host.Serialises) :
    Accounts host settings Settles where
  refl queue := ⟨by simp, .refl queue⟩
  trans one two := by
    refine ⟨?_, ?_⟩
    · rw [List.map_append]
      apply (one.events.trans (two.events.append_right _)).trans
      rw [List.append_assoc]
      exact List.perm_append_comm.append_left _
    · rw [List.map_append]
      exact one.drops.trans two.drops
  sweepOne lent stored := settles_sweepOne settings serialises lent stored
  lend deadline maxN settles := by
    obtain ⟨dlq, log⟩ := lend_dlq_log host deadline maxN _ 0 _
    refine ⟨?_, ?_⟩
    · rw [pendingEvents_lend]
      exact settles.events
    · unfold Drops
      rw [dlq, log]
      exact settles.drops

/-! ### One call -/

theorem settles_receive (settings : QueueSettings) (serialises : host.Serialises)
    (linked : Linked host queue) (maxN : ℤ) (visibilityTimeout : Option ℚ) (sweptAt now : ℚ) :
    Settles queue (deadLettered host settings queue (.receive maxN visibilityTimeout sweptAt now))
      (queue.after host settings (.receive maxN visibilityTimeout sweptAt now)) := by
  rw [deadLettered_receive serialises linked]
  exact ((settles_accounts settings serialises).receive serialises linked maxN visibilityTimeout
    sweptAt now).2

/-- A call that changes nothing but deadlines. -/
theorem same_after (settings : QueueSettings) (linked : Linked host queue) (handle : String)
    {call : QueueCall} (verb : (∃ seconds now, call = .changeVisibility handle seconds now) ∨
      ∃ now, call = .fail handle now) :
    (queue.after host settings call).pendingEvents = queue.pendingEvents ∧
      (queue.after host settings call).dlq = queue.dlq ∧
      (queue.after host settings call).log = queue.log := by
  have moved : ∀ messageId deadline,
      (queue.setDeadline messageId deadline).2.pendingEvents = queue.pendingEvents ∧
      (queue.setDeadline messageId deadline).2.dlq = queue.dlq ∧
      (queue.setDeadline messageId deadline).2.log = queue.log := by
    intro messageId deadline
    simp only [setDeadline]
    split
    · exact ⟨rfl, rfl, rfl⟩
    · refine ⟨?_, rfl, rfl⟩
      exact pendingEvents_modify messageId (fun entry => { entry with deadline := deadline }) rfl
        fun _ => rfl
  rcases verb with ⟨seconds, now, rfl⟩ | ⟨now, rfl⟩
  · rcases changeVisibility_cases linked handle seconds now with
      ⟨-, shape⟩ | ⟨messageId, entry, -, -, -, shape⟩
    · simp only [after, perform, shape]
      exact ⟨rfl, rfl, rfl⟩
    · simp only [after, perform, shape]
      exact moved messageId _
  · rcases fail_cases settings linked handle now with
      ⟨-, shape⟩ | ⟨messageId, entry, -, -, -, ⟨backoff, -, shape⟩ | ⟨-, shape⟩⟩
    · simp only [after, perform, shape]
      exact ⟨rfl, rfl, rfl⟩
    · simp only [after, perform, shape]
      exact moved messageId _
    · simp only [after, perform, shape]
      exact ⟨rfl, rfl, rfl⟩

/-- What a call adds is what it takes away and what it leaves more of. -/
theorem balance_after (settings : QueueSettings) (serialises : host.Serialises)
    (linked : Linked host queue) (call : QueueCall) (port : call ≠ .clear) :
    (queue.pendingEvents ++ (acceptedBy host settings queue call).toList).Perm
      ((queue.after host settings call).pendingEvents ++ (deletedBy queue call).toList ++
        buriedBy host settings queue call) := by
  cases call with
  | send event =>
      rcases send_cases host settings queue event with ⟨-, same, text, full⟩ | ⟨-, shape⟩
      · have refused : (queue.after host settings (.send event)) = queue := same
        simp [acceptedBy, full, refused, deletedBy, ackedBy, buriedBy, deadLettered]
      · have fresh := linked.entries_fresh (Nat.le_refl _)
        have pending : (queue.after host settings (.send event)).pendingEvents =
            queue.pendingEvents ++ [event] := by
          simp [after, perform, shape, pendingEvents, OrderedDict.values,
            OrderedDict.items_set_of_get?_eq_none _ fresh]
        simp [acceptedBy, shape, pending, deletedBy, ackedBy, buriedBy, deadLettered]
  | receive maxN visibilityTimeout sweptAt now =>
      simpa [acceptedBy, deletedBy, ackedBy, buriedBy] using
        (settles_receive settings serialises linked maxN visibilityTimeout sweptAt now).events
  | delete handle =>
      cases lent : queue.inflight.get? handle with
      | none => simp [acceptedBy, deletedBy, ackedBy, buriedBy, deadLettered, after, perform, delete, lent]
      | some messageId =>
          obtain ⟨entry, stored, -⟩ := linked.inflightEntry handle messageId lent
          have entries : (queue.after host settings (.delete handle)).entries =
              queue.entries.erase messageId := by
            simp [after, perform, delete, lent]
          have removed := pendingEvents_erase stored entries
          simpa [acceptedBy, deletedBy, ackedBy, buriedBy, deadLettered, lent, stored] using
            removed.trans (List.perm_append_singleton ..).symm
  | changeVisibility handle seconds now =>
      have same := (same_after settings linked handle (.inl ⟨seconds, now, rfl⟩)).1
      simp [acceptedBy, deletedBy, ackedBy, buriedBy, deadLettered, same]
  | fail handle now =>
      have same := (same_after settings linked handle (.inr ⟨now, rfl⟩)).1
      simp [acceptedBy, deletedBy, ackedBy, buriedBy, deadLettered, same]
  | clear => exact absurd rfl port

/-- Every event that a call makes fall out of the dead-letter queue is named in a line of that call. -/
theorem drops_after (settings : QueueSettings) (serialises : host.Serialises)
    (linked : Linked host queue) (call : QueueCall) (port : call ≠ .clear) :
    Drops queue (queue.after host settings call) (buriedBy host settings queue call) := by
  cases call with
  | send event =>
      apply Drops.of_same
      all_goals
        simp only [after, perform, send]
        split <;> rfl
  | receive maxN visibilityTimeout sweptAt now =>
      exact (settles_receive settings serialises linked maxN visibilityTimeout sweptAt now).drops
  | delete handle =>
      apply Drops.of_same
      all_goals
        simp only [after, perform, delete]
        split <;> rfl
  | changeVisibility handle seconds now =>
      obtain ⟨-, dlq, log⟩ := same_after settings linked handle (.inl ⟨seconds, now, rfl⟩)
      exact .of_same dlq log
  | fail handle now =>
      obtain ⟨-, dlq, log⟩ := same_after settings linked handle (.inr ⟨now, rfl⟩)
      exact .of_same dlq log
  | clear => exact absurd rfl port

/-! ### Every run -/

/-- Every accepted event is pending, deleted or dead-lettered, and counted once, after any calls but
`clear` on a fresh queue. -/
theorem balance_reached (settings : QueueSettings) (serialises : host.Serialises)
    (calls : List QueueCall) (port : .clear ∉ calls) :
    (accepted host settings (history host settings calls) : Multiset Event) =
      (reached host settings calls).pendingEvents + deleted (history host settings calls) +
        deadLetters host settings (history host settings calls) := by
  induction calls using List.reverseRecOn with
  | nil => rfl
  | append_singleton calls call ih =>
      have portNow : call ≠ .clear := by
        rintro rfl
        exact port (List.mem_append_right _ (List.mem_singleton_self _))
      have before := ih fun member => port (List.mem_append_left _ member)
      have step := Multiset.coe_eq_coe.mpr
        (balance_after settings serialises (linked_reached host settings calls) call portNow)
      simp only [← Multiset.coe_add] at step
      simp only [history_snoc, accepted_snoc, deleted_snoc, deadLetters_snoc, reached_snoc,
        ← Multiset.coe_add]
      calc (accepted host settings (history host settings calls) : Multiset Event) +
            (acceptedBy host settings (reached host settings calls) call).toList
          = ((reached host settings calls).pendingEvents +
                (acceptedBy host settings (reached host settings calls) call).toList) +
              (deleted (history host settings calls) +
                deadLetters host settings (history host settings calls)) := by
            rw [before]
            abel
        _ = _ := by
            rw [step]
            abel

/-- The dead-letter queue holds the last of the dead letters, in order. -/
theorem dlq_reached (settings : QueueSettings) (serialises : host.Serialises)
    (calls : List QueueCall) (port : .clear ∉ calls) :
    (reached host settings calls).dlq.items =
      (deadLetters host settings (history host settings calls)).rtake dlqMaxlen := by
  -- the deque after a call is a fold over its dead letters, and so it is after all of them
  have folded : (reached host settings calls).dlq =
      (deadLetters host settings (history host settings calls)).foldl BoundedDeque.append .empty := by
    induction calls using List.reverseRecOn with
    | nil => rfl
    | append_singleton calls call ih =>
        have portNow : call ≠ .clear := by
          rintro rfl
          exact port (List.mem_append_right _ (List.mem_singleton_self _))
        have linked := linked_reached host settings calls
        rw [reached_snoc, dlq_after serialises linked call portNow, history_snoc, deadLetters_snoc,
          List.foldl_append, ← ih fun member => port (List.mem_append_left _ member)]
        exact List.foldl_map.symm
  rw [folded, BoundedDeque.items_foldl_append]
  rfl

/-- Conservation of events in the queue, over every run without `clear` in which events can be
serialised.  The events of successful sends are, as a multiset, the pending ones, those removed by
successful deletes and those ever dead-lettered; the dead-letter queue holds the most recent
`dlqMaxlen` of the dead letters, in order; and in every call the events that drop out of it are those
that the new lines name as discarded, in order. -/
theorem queue_conserves_events (host : Host) (settings : QueueSettings)
    (serialises : host.Serialises) (calls : List QueueCall) (port : .clear ∉ calls) :
    let past := history host settings calls
    let queue := reached host settings calls
    (accepted host settings past : Multiset Event) =
        queue.pendingEvents + deleted past + deadLetters host settings past ∧
      queue.dlq.items = (deadLetters host settings past).rtake dlqMaxlen ∧
      queue.dlq.items.length = min dlqMaxlen (deadLetters host settings past).length ∧
      ∀ visit ∈ past, ∃ dropped lines,
        visit.1.dlq.items ++ buriedBy host settings visit.1 visit.2 =
          dropped ++ (visit.1.after host settings visit.2).dlq.items ∧
        (visit.1.after host settings visit.2).log = visit.1.log ++ lines ∧
        lines.filterMap QueueLine.discarded? = dropped.map Event.eventId := by
  intro past queue
  have kept : queue.dlq.items = (deadLetters host settings past).rtake dlqMaxlen :=
    dlq_reached settings serialises calls port
  refine ⟨balance_reached settings serialises calls port, kept, ?_, ?_⟩
  · rw [kept, List.rtake, List.length_drop]
    omega
  · intro visit member
    obtain ⟨before, after, split, reachedHere⟩ := mem_history member
    have portNow : visit.2 ≠ .clear := by
      intro cleared
      rw [split, cleared] at port
      exact port (List.mem_append_right _ (List.mem_cons_self ..))
    apply drops_after settings serialises _ visit.2 portNow
    rw [reachedHere]
    exact linked_reached host settings before

/-- Of three events one is deleted, one is dead-lettered after its only delivery and one waits. -/
def threeFates : List QueueCall :=
  [.send (sampleEvent "a"), .send (sampleEvent "b"), .receive 2 none 0 0, .delete "111",
    .send (sampleEvent "c"), .receive 0 none 30 30]

theorem three_events_are_accounted_for :
    ([sampleEvent "a", sampleEvent "b", sampleEvent "c"] : Multiset Event) =
      [sampleEvent "c"] + [sampleEvent "a"] + [sampleEvent "b"] := by
  have balance := (queue_conserves_events (countingHost fun event => some event.eventId)
    { maxReceives := 1 } (fun _ => rfl) threeFates (by simp [threeFates])).1
  with_unfolding_all exact balance

end InMemoryEventQueue

end FeathrEvents
