/-
Module: FeathrEvents.Proofs.QueueHandles
Purpose: A receipt handle belongs to one delivery.  Once dead it stays dead, the verbs refuse it and
  change nothing, and a live one gives access to its own message only.
Trusted boundary: none
Main exports: minted_after, dead_stays, Lends, lends_after, OnlyTouches, stale_handles_are_inert
-/
import FeathrEvents.Proofs.QueueRuns

namespace FeathrEvents

open Collections (OrderedDict BoundedDeque)
open Lease (Place)

/-- The receipt handle that a verb is called with. -/
def QueueCall.receiptHandle? : QueueCall → Option String
  | .delete handle | .changeVisibility handle _ _ | .fail handle _ => some handle
  | .send _ | .receive .. | .clear => none

namespace InMemoryEventQueue

variable {host : Host} {settings : QueueSettings} {queue : InMemoryEventQueue}

/-- A verb on one message leaves every other entry, every other loan, the order of the visible
messages, the dead-letter queue and the log as they are. -/
structure OnlyTouches (messageId handle : String) (queue later : InMemoryEventQueue) : Prop where
  entries : ∀ other, other ≠ messageId → later.entries.get? other = queue.entries.get? other
  inflight : ∀ other, other ≠ handle → later.inflight.get? other = queue.inflight.get? other
  visible : later.visible = queue.visible
  dlq : later.dlq = queue.dlq
  log : later.log = queue.log

theorem onlyTouches_setDeadline (messageId handle : String) (deadline : ℚ) :
    OnlyTouches messageId handle queue (queue.setDeadline messageId deadline).2 := by
  unfold setDeadline
  split
  · exact ⟨fun _ _ => rfl, fun _ _ => rfl, rfl, rfl, rfl⟩
  · exact ⟨fun other different => by simp [different], fun _ _ => rfl, rfl, rfl, rfl⟩

/-! ### Handles stay dead -/

/-- The verbs draw no uuid4 value. -/
theorem minted_verb (settings : QueueSettings) (linked : Linked host queue) {call : QueueCall}
    {handle : String} (verb : call.receiptHandle? = some handle) :
    (queue.after host settings call).minted = queue.minted := by
  have deadlineOnly : ∀ messageId deadline,
      (queue.setDeadline messageId deadline).2.minted = queue.minted := by
    intro messageId deadline
    simp only [setDeadline]
    split <;> rfl
  cases call with
  | delete other =>
      simp only [after, perform, delete]
      split <;> simp
  | changeVisibility other seconds now =>
      rcases changeVisibility_cases linked other seconds now with
        ⟨-, shape⟩ | ⟨messageId, entry, -, -, -, shape⟩
      · simp [after, perform, shape]
      · simp [after, perform, shape, deadlineOnly]
  | fail other now =>
      rcases fail_cases settings linked other now with
        ⟨-, shape⟩ | ⟨messageId, entry, -, -, -, ⟨backoff, -, shape⟩ | ⟨-, shape⟩⟩
      · simp [after, perform, shape]
      · simp [after, perform, shape, deadlineOnly]
      · simp [after, perform, shape]
  | _ => cases verb

/-- No call gives a uuid4 value back. -/
theorem minted_after (linked : Linked host queue) (call : QueueCall) :
    queue.minted ≤ (queue.after host settings call).minted := by
  cases call with
  | send event =>
      simp only [after, perform, send]
      split <;> simp
  | receive maxN visibilityTimeout sweptAt now =>
      obtain ⟨sweptLinks, kept, -⟩ := sweep_place settings linked sweptAt
      rcases receive_cases settings linked maxN visibilityTimeout sweptAt now with
        ⟨eventId, -, shape⟩ | ⟨swept, returned, shape⟩
      · simp only [after, perform, shape, kept, Nat.le_refl]
      · rw [returned] at sweptLinks kept
        dsimp only at sweptLinks kept
        have drawn := (lend_place sweptLinks
          (now + visibilityTimeout.getD settings.visibilityTimeout) maxN rfl 0).2.1
        simp only [after, perform, shape]
        omega
  | delete handle => exact (minted_verb settings linked rfl).ge
  | changeVisibility handle seconds now => exact (minted_verb settings linked rfl).ge
  | fail handle now => exact (minted_verb settings linked rfl).ge
  | clear => exact Nat.le_refl _

/-- A handle that was drawn and is not live: it never becomes live again, since `uuid4` does not
repeat a name. -/
def Dead (host : Host) (queue : InMemoryEventQueue) (handle : String) : Prop :=
  Drawn host queue handle ∧ queue.inflight.get? handle = none

theorem drawn_after (linked : Linked host queue) (call : QueueCall) {name : String}
    (drawn : Drawn host queue name) : Drawn host (queue.after host settings call) name := by
  obtain ⟨index, earlier, named⟩ := drawn
  exact ⟨index, earlier.trans_le (minted_after linked call), named⟩

theorem dead_after (linked : Linked host queue) (call : QueueCall) {handle : String}
    (dead : Dead host queue handle) : Dead host (queue.after host settings call) handle := by
  refine ⟨drawn_after linked call dead.1, ?_⟩
  by_contra live
  obtain ⟨messageId, lent⟩ := Option.ne_none_iff_exists'.mp live
  rcases live_after linked call lent with before | fresh
  · rw [dead.2] at before
    cases before
  · exact fresh dead.1

theorem drawn_stays {before : List QueueCall} {name : String}
    (drawn : Drawn host (reached host settings before) name) (later : List QueueCall) :
    Drawn host (reached host settings (before ++ later)) name := by
  induction later using List.reverseRecOn with
  | nil => rwa [List.append_nil]
  | append_singleton later call ih =>
      rw [← List.append_assoc, reached_snoc]
      exact drawn_after (linked_reached _ _ _) call ih

theorem dead_stays {before : List QueueCall} {handle : String}
    (dead : Dead host (reached host settings before) handle) (later : List QueueCall) :
    Dead host (reached host settings (before ++ later)) handle := by
  induction later using List.reverseRecOn with
  | nil => rwa [List.append_nil]
  | append_singleton later call ih =>
      rw [← List.append_assoc, reached_snoc]
      exact dead_after (linked_reached _ _ _) call ih

/-! ### What a live handle lends -/

/-- Wherever the handle of the message is live, its entry has the event and the count of the
message. -/
def Lends (queue : InMemoryEventQueue) (message : Message) : Prop :=
  ∀ messageId, queue.inflight.get? message.receiptHandle = some messageId →
    ∃ entry, queue.entries.get? messageId = some entry ∧ entry.event = message.event ∧
      entry.receiveCount = message.receiveCount

theorem lends_after (settings : QueueSettings) (linked : Linked host queue) {message : Message}
    (drawn : Drawn host queue message.receiptHandle) (lends : Lends queue message)
    (call : QueueCall) : Lends (queue.after host settings call) message := by
  intro messageId lent
  have linkedAfter : Linked host (queue.after host settings call) := linked_after linked call
  obtain ⟨current, stored, -⟩ := linkedAfter.inflightEntry _ _ lent
  rcases held_after settings linked call (linkedAfter.held_of_lent lent stored) with
    ⟨earlier, before⟩ | fresh
  · have live := linked.inflight_iff.mpr ⟨_, _, before⟩
    obtain ⟨entry, found, event, count⟩ := lends messageId live
    have held := linked.held_of_lent live found
    rw [before] at held
    rcases entries_after linked call stored with ⟨former, origin, same⟩ | ⟨-, -, absent⟩
    · rw [found] at origin
      cases origin
      refine ⟨current, stored, same.symm.trans event, ?_⟩
      rw [← count]
      injection held
    · rw [found] at absent
      cases absent
  · exact absurd drawn fresh

/-! ### The verbs -/

/-- A verb refuses its handle exactly when the handle is not live, and then it changes nothing. -/
theorem verb_refuses_iff (settings : QueueSettings) (linked : Linked host queue)
    {call : QueueCall} {handle : String}
    (verb : call.receiptHandle? = some handle) :
    ((∃ text, (queue.perform host settings call).1 = .error (.receiptHandleIsInvalid text)) ↔
        queue.inflight.get? handle = none) ∧
      (queue.inflight.get? handle = none → queue.after host settings call = queue) := by
  have refused : ∀ absent : queue.inflight.get? handle = none,
      (queue.perform host settings call).1 = .error (invalidHandle handle) ∧
        queue.after host settings call = queue := by
    intro absent
    cases call <;> cases verb <;>
      simp [after, perform, delete, changeVisibility, fail, absent, Except.map]
  refine ⟨⟨?_, fun absent => ⟨_, (refused absent).1⟩⟩, fun absent => (refused absent).2⟩
  rintro ⟨text, raised⟩
  by_contra live
  obtain ⟨messageId, lent⟩ := Option.ne_none_iff_exists'.mp live
  obtain ⟨entry, stored, -⟩ := linked.inflightEntry handle messageId lent
  cases call with
  | delete other =>
      cases verb
      simp [perform, delete, lent, Except.map] at raised
  | changeVisibility other seconds now =>
      cases verb
      simp [perform, changeVisibility, lent, setDeadline, stored, Except.map] at raised
  | fail other now =>
      cases verb
      rcases fail_cases settings linked handle now with
        ⟨absent, -⟩ | ⟨owner, current, -, found, -, ⟨backoff, -, shape⟩ | ⟨-, shape⟩⟩
      · rw [absent] at lent
        cases lent
      · simp [perform, shape, setDeadline, found, Except.map] at raised
      · simp [perform, shape, Except.map] at raised
  | _ => cases verb

/-- A verb that succeeds touches the message under its handle and nothing else. -/
theorem verb_touches (linked : Linked host queue) {call : QueueCall} {handle : String}
    (verb : call.receiptHandle? = some handle) {messages : List Message}
    (returned : (queue.perform host settings call).1 = .ok messages) :
    ∃ messageId, queue.inflight.get? handle = some messageId ∧
      OnlyTouches messageId handle queue (queue.after host settings call) := by
  cases lent : queue.inflight.get? handle with
  | none =>
      obtain ⟨text, raised⟩ := (verb_refuses_iff settings linked verb).1.mpr lent
      rw [returned] at raised
      cases raised
  | some messageId =>
      refine ⟨messageId, rfl, ?_⟩
      cases call with
      | delete other =>
          cases verb
          simp only [after, perform, delete, lent]
          exact ⟨fun other different => by simp [different],
            fun other different => by simp [different], rfl, rfl, rfl⟩
      | changeVisibility other seconds now =>
          cases verb
          simp only [after, perform, changeVisibility, lent]
          exact onlyTouches_setDeadline messageId handle _
      | fail other now =>
          cases verb
          rcases fail_cases settings linked handle now with
            ⟨absent, -⟩ | ⟨owner, current, found, -, -, ⟨backoff, -, shape⟩ | ⟨-, shape⟩⟩
          · rw [lent] at absent
            cases absent
          · rw [lent] at found
            cases found
            simp only [after, perform, shape]
            exact onlyTouches_setDeadline messageId handle _
          · simp [perform, shape, Except.map] at returned
      | _ => cases verb

/-- A stale receipt handle can never touch another delivery, in any run and at any point of it: it
stays stale, the verbs raise on it and change nothing, and on a live one they touch its own message
only. -/
theorem stale_handles_are_inert (host : Host) (settings : QueueSettings) (calls : List QueueCall) :
    let queue := reached host settings calls
    (∀ handle between, queue.inflight.get? handle ≠ none →
      (reached host settings (calls ++ between)).inflight.get? handle = none → ∀ later,
        (reached host settings (calls ++ between ++ later)).inflight.get? handle = none) ∧
    ∀ call handle, call.receiptHandle? = some handle →
      ((∃ text, (queue.perform host settings call).1 = .error (.receiptHandleIsInvalid text)) ↔
        queue.inflight.get? handle = none) ∧
      (queue.inflight.get? handle = none → queue.after host settings call = queue) ∧
      ∀ messages, (queue.perform host settings call).1 = .ok messages →
        ∃ messageId last, queue.inflight.get? handle = some messageId ∧
          (deliveries host settings (history host settings calls) messageId).getLast? = some last ∧
          last.receiptHandle = handle ∧
          OnlyTouches messageId handle queue (queue.after host settings call) := by
  intro queue
  have linked : Linked host queue := linked_reached _ _ calls
  refine ⟨fun handle between live dead later => ?_, fun call handle verb => ?_⟩
  · obtain ⟨messageId, lent⟩ := Option.ne_none_iff_exists'.mp live
    have drawn : Drawn host (reached host settings calls) handle :=
      linked.handleMinted handle messageId lent
    exact (dead_stays ⟨drawn_stays drawn between, dead⟩ later).2
  · obtain ⟨refuses, unchanged⟩ := verb_refuses_iff settings linked verb
    refine ⟨refuses, unchanged, fun messages returned => ?_⟩
    obtain ⟨messageId, lent, touches⟩ := verb_touches linked verb returned
    obtain ⟨count, deadline, held⟩ := linked.inflight_iff.mp lent
    obtain ⟨last, final, -, issued⟩ :=
      (life_recorded _ _ calls messageId).2.2.1 count handle deadline held
    exact ⟨messageId, last, lent, final, issued, touches⟩

end InMemoryEventQueue

end FeathrEvents
