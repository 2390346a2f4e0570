/-
Module: FeathrEvents.Proofs.QueueDeliveries
Purpose: Deliveries are counted exactly, and a message is dead-lettered exactly when the loan of its
  last permitted delivery is swept.
Trusted boundary: none
Main exports: deliveries_counted
-/
import FeathrEvents.Proofs.QueueDeadlines

namespace FeathrEvents.InMemoryEventQueue

open Collections (OrderedDict BoundedDeque)
open Lease (Place)

variable {host : Host} {settings : QueueSettings} {queue : InMemoryEventQueue}

theorem deadLettered_ids_nodup (linked : Linked host queue) (call : QueueCall) :
    ((deadLettered host settings queue call).map Prod.fst).Nodup := by
  cases call with
  | receive maxN visibilityTimeout sweptAt now =>
      have values : queue.inflight.values.Nodup :=
        OrderedDict.values_nodup fun _ _ _ one two => linked.inflight_injective one two
      refine values.sublist ?_
      simp only [deadLettered, OrderedDict.values]
      induction queue.inflight.items with
      | nil => exact .slnil
      | cons item items ih =>
          rw [List.filterMap_cons, List.map_cons]
          split
          · exact ih.cons item.2
          · rename_i arrival found
            have kept : arrival.1 = item.2 := by
              split at found <;> cases found
              rfl
            rw [List.map_cons, kept]
            exact ih.cons_cons item.2
  | _ => exact List.nodup_nil

/-- A dead letter is gone, and it had an entry before. -/
theorem deadLettered_gone (linked : Linked host queue) {call : QueueCall} {messageId : String}
    (listed : messageId ∈ (deadLettered host settings queue call).map Prod.fst) :
    place host (queue.after host settings call) messageId = .gone ∧
      queue.entries.get? messageId ≠ none := by
  obtain ⟨⟨owner, entry⟩, member, rfl⟩ := List.mem_map.mp listed
  cases call with
  | receive maxN visibilityTimeout sweptAt now =>
      simp only [deadLettered, List.mem_filterMap] at member
      obtain ⟨item, -, found⟩ := member
      split at found
      · rename_i stored absent
        cases found
        exact ⟨gone_after linked _ (by simp [stored]) absent, by simp [stored]⟩
      · cases found
  | _ => cases member

/-- A message is dead-lettered exactly by the `receive` that sweeps the loan of its last permitted
delivery at or past the deadline in force. -/
theorem mem_deadLettered_reached (serialises : host.Serialises)
    (positive : 1 ≤ settings.maxReceives)
    (calls : List QueueCall) (call : QueueCall) (messageId : String) :
    let queue := reached host settings calls
    let delivered := deliveries host settings (history host settings calls) messageId
    messageId ∈ (deadLettered host settings queue call).map Prod.fst ↔
      ∃ maxN visibilityTimeout sweptAt now last deadline,
        call = .receive maxN visibilityTimeout sweptAt now ∧
        (delivered.length : ℤ) = settings.maxReceives ∧ delivered.getLast? = some last ∧
        queue.inflight.get? last.receiptHandle = some messageId ∧
        deadlineInForce host settings (history host settings calls) messageId = some deadline ∧
        deadline ≤ sweptAt := by
  intro queue delivered
  have linked : Linked host queue := linked_reached _ _ calls
  have timed : Timed host settings (history host settings calls) messageId
      (place host queue messageId) := timed_reached calls messageId
  obtain ⟨-, counted, last, -⟩ :=
    life_recorded host settings calls messageId
  have bounded : (delivered.length : ℤ) ≤ settings.maxReceives := by
    obtain ⟨acts, steps, lent⟩ := life_reached host settings calls messageId
    have count := (steps.count_le positive).1
    rwa [lent, List.length_map] at count
  constructor
  · intro listed
    obtain ⟨⟨owner, entry⟩, member, rfl⟩ := List.mem_map.mp listed
    cases call with
    | receive maxN visibilityTimeout sweptAt now =>
        obtain ⟨handle, lent, stored, due, atLimit⟩ := (mem_deadLettered_iff serialises linked).mp member
        have held := linked.held_of_lent lent stored
        obtain ⟨message, final, -, rfl⟩ := last _ _ _ held
        have length : entry.receiveCount = delivered.length := counted _ (by rw [held]; rfl)
        exact ⟨maxN, visibilityTimeout, sweptAt, now, message, entry.deadline, rfl, by omega, final,
          lent, timed.held _ _ _ held, due⟩
    | _ => cases member
  · rintro ⟨maxN, visibilityTimeout, sweptAt, now, final, deadline, rfl, full, -, lent, inForce, due⟩
    obtain ⟨entry, stored, -⟩ := linked.inflightEntry _ _ lent
    have held := linked.held_of_lent lent stored
    have length : entry.receiveCount = delivered.length := counted _ (by rw [held]; rfl)
    have same := timed.held _ _ _ held
    rw [inForce] at same
    cases same
    refine List.mem_map.mpr ⟨(messageId, entry), ?_, rfl⟩
    exact (mem_deadLettered_iff serialises linked).mpr ⟨_, lent, stored, due, by omega⟩

/-- Deliveries are counted exactly.  Over any calls of the port: whatever is handed out is handed out
for one message; the k-th delivery of a message carries the number k; no message is delivered more
than `max_receives` times, and a visible one fewer times; and a message enters the dead-letter queue
exactly when the loan of its `max_receives`-th delivery is swept at its deadline, once. -/
theorem deliveries_counted (host : Host) (settings : QueueSettings) (serialises : host.Serialises)
    (positive : 1 ≤ settings.maxReceives) (calls : List QueueCall) (call : QueueCall)
    (port : .clear ∉ calls ++ [call]) :
    let queue := reached host settings calls
    let past := history host settings calls
    let delivered := deliveries host settings past
    (∀ messages, (queue.perform host settings call).1 = .ok messages → ∀ message ∈ messages,
      ∃! messageId, message ∈ deliveredTo host settings queue call messageId) ∧
    (∀ messageId, (delivered messageId).map Message.receiveCount =
      List.range' 1 (delivered messageId).length) ∧
    (∀ messageId, ((delivered messageId).length : ℤ) ≤ settings.maxReceives) ∧
    (∀ messageId ∈ queue.visible, ((delivered messageId).length : ℤ) < settings.maxReceives) ∧
    (queue.after host settings call).dlq =
      dlqWith queue.dlq (deadLettered host settings queue call) ∧
    (∀ messageId, messageId ∈ (deadLettered host settings queue call).map Prod.fst ↔
      ∃ maxN visibilityTimeout sweptAt now last deadline,
        call = .receive maxN visibilityTimeout sweptAt now ∧
        ((delivered messageId).length : ℤ) = settings.maxReceives ∧
        (delivered messageId).getLast? = some last ∧
        queue.inflight.get? last.receiptHandle = some messageId ∧
        deadlineInForce host settings past messageId = some deadline ∧ deadline ≤ sweptAt) ∧
    ((deadLettered host settings queue call).map Prod.fst).Nodup ∧
    ∀ visit ∈ past, ∀ messageId ∈ (deadLettered host settings visit.1 visit.2).map Prod.fst,
      messageId ∉ (deadLettered host settings queue call).map Prod.fst := by
  intro queue past delivered
  have linked : Linked host queue := linked_reached _ _ calls
  have within : ∀ messageId, ((delivered messageId).length : ℤ) ≤ settings.maxReceives ∧
      ∀ count, place host queue messageId = .waiting count → (count : ℤ) < settings.maxReceives := by
    intro messageId
    obtain ⟨acts, steps, lent⟩ := life_reached host settings calls messageId
    have count := steps.count_le positive
    rwa [lent, List.length_map] at count
  refine ⟨fun _ returned _ => delivered_covers linked returned,
    fun messageId => (life_recorded _ _ calls messageId).1, fun messageId => (within messageId).1, ?_,
    dlq_after serialises linked call fun isClear => port (by simp [isClear]),
    mem_deadLettered_reached serialises positive calls call, deadLettered_ids_nodup linked call, ?_⟩
  · intro messageId visible
    obtain ⟨entry, stored, idle⟩ := linked.visibleEntry messageId visible
    have waits : place host queue messageId = .waiting entry.receiveCount :=
      place_eq_waiting.mpr ⟨entry, stored, idle, rfl, visible⟩
    have length : entry.receiveCount = (delivered messageId).length :=
      (life_recorded _ _ calls messageId).2.1 _ (by
        rw [waits]
        rfl)
    rw [← length]
    exact (within messageId).2 _ waits
  · intro visit member messageId earlier again
    obtain ⟨before, later, rfl, visited⟩ := mem_history member
    rw [visited] at earlier
    have gone := (deadLettered_gone (linked_reached _ _ before) earlier).1
    rw [← reached_snoc] at gone
    have still := gone_stays gone later
    rw [List.append_assoc, List.singleton_append] at still
    exact (deadLettered_gone linked again).2 ((absent_iff host).mpr (.inl still))

theorem deliveries_counted_once :
    deadLettered (countingHost fun event => some event.eventId) { maxReceives := 1 }
      (reached (countingHost fun event => some event.eventId) { maxReceives := 1 }
        [.send (sampleEvent "a"), .receive 1 none 0 0]) (.receive 1 none 30 30) ≠ [] := by
  have entered := (deliveries_counted (countingHost fun event => some event.eventId)
    { maxReceives := 1 } (fun _ => rfl) (by decide) [.send (sampleEvent "a"), .receive 1 none 0 0]
    (.receive 1 none 30 30) (by simp)).2.2.2.2.2.1 "1"
  intro none
  have listed := entered.mpr ⟨1, .none, 30, 30, ⟨sampleEvent "a", "11", 1⟩, 30, rfl,
    by decide +kernel, rfl, by decide +kernel, by decide +kernel, by decide +kernel⟩
  rw [none] at listed
  cases listed

end FeathrEvents.InMemoryEventQueue
