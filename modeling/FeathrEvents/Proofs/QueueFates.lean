/-
Module: FeathrEvents.Proofs.QueueFates
Purpose: What becomes of an accepted event: it keeps its entry, or it was acked, or it was
  dead-lettered with its payload; and no message is acked twice.
Trusted boundary: none
Main exports: ackedBy, acked, acked_nodup, DeadLetteredInLog, entry_leaves,
  sent_of_stored, accepted_fate
-/
import FeathrEvents.Proofs.QueueDeliveries

namespace FeathrEvents.InMemoryEventQueue

open Lease (Place)

variable {host : Host} {settings : QueueSettings} {queue : InMemoryEventQueue}

/-- The message that a call removes by `delete`. -/
def ackedBy (queue : InMemoryEventQueue) : QueueCall → Option String
  | .delete handle => queue.inflight.get? handle
  | .send _ | .receive .. | .changeVisibility .. | .fail .. | .clear => none

/-- Every message removed by `delete` so far, in order. -/
def acked (past : History) : List String := past.filterMap fun visit => ackedBy visit.1 visit.2

@[simp] theorem acked_nil : acked [] = [] := rfl

@[simp] theorem acked_snoc (past : History) (queue : InMemoryEventQueue) (call : QueueCall) :
    acked (past ++ [(queue, call)]) = acked past ++ (ackedBy queue call).toList := by
  cases shape : ackedBy queue call <;> simp [acked, shape]

/-- An ERROR line carries the whole event, as the JSON that pydantic writes: what an operator has of
an event that was given up. -/
def DeadLetteredInLog (host : Host) (queue : InMemoryEventQueue) (event : Event) : Prop :=
  ∃ count payload, host.modelDumpJson event = some payload ∧
    .deadLettering event.eventId count payload ∈ queue.log

/-! ### Acks -/

theorem acked_held (linked : Linked host queue) {call : QueueCall} {messageId : String}
    (removed : ackedBy queue call = some messageId) :
    ∃ handle count deadline, call = .delete handle ∧
      queue.inflight.get? handle = some messageId ∧
      place host queue messageId = .held count handle deadline := by
  cases call with
  | delete handle =>
      have lent : queue.inflight.get? handle = some messageId := removed
      obtain ⟨count, deadline, held⟩ := linked.inflight_iff.mp lent
      exact ⟨handle, count, deadline, rfl, lent, held⟩
  | _ => cases removed

theorem acked_gone_reached (calls : List QueueCall) {messageId : String}
    (member : messageId ∈ acked (history host settings calls)) :
    place host (reached host settings calls) messageId = .gone := by
  induction calls using List.reverseRecOn with
  | nil => cases member
  | append_singleton calls call ih =>
      rw [history_snoc, acked_snoc] at member
      rcases List.mem_append.mp member with earlier | now
      · exact gone_stays (ih earlier) [call]
      · rw [reached_snoc]
        obtain ⟨handle, _, _, rfl, lent, -⟩ :=
          acked_held (linked_reached host settings calls) (Option.mem_toList.mp now)
        exact (delete_place (linked_reached host settings calls) lent).1

/-- No message is acked twice. -/
theorem acked_nodup (host : Host) (settings : QueueSettings) (calls : List QueueCall) :
    (acked (history host settings calls)).Nodup := by
  induction calls using List.reverseRecOn with
  | nil => exact List.nodup_nil
  | append_singleton calls call ih =>
      rw [history_snoc, acked_snoc]
      cases removed : ackedBy (reached host settings calls) call with
      | none => simpa using ih
      | some messageId =>
          apply ih.append (List.nodup_singleton messageId)
          apply List.disjoint_singleton.mpr
          intro earlier
          obtain ⟨_, _, _, -, -, held⟩ := acked_held (linked_reached host settings calls) removed
          cases held.symm.trans (acked_gone_reached calls earlier)

/-! ### The fates of an accepted event -/

/-- An entry that goes away was acked or dead-lettered. -/
theorem entry_leaves (settings : QueueSettings) (serialises : host.Serialises)
    (linked : Linked host queue) {call : QueueCall} (port : call ≠ .clear) {messageId : String}
    {entry : Entry} (stored : queue.entries.get? messageId = some entry)
    (removed : (queue.after host settings call).entries.get? messageId = none) :
    ackedBy queue call = some messageId ∨
      DeadLetteredInLog host (queue.after host settings call) entry.event := by
  have gone := gone_after linked call (by simp [stored]) removed
  have present : place host queue messageId ≠ .gone ∧ place host queue messageId ≠ .unborn := by
    rw [← not_or, ← absent_iff, stored]
    simp
  cases call with
  | send event =>
      rcases send_effect settings linked event messageId with ⟨-, -, -, waits⟩ | same
      · cases gone.symm.trans waits
      · exact absurd (same.symm.trans gone) present.1
  | delete handle =>
      rcases delete_effect settings linked handle messageId with
        ⟨count, deadline, held, -⟩ | ⟨-, same⟩
      · exact .inl (linked.inflight_iff.mpr ⟨count, deadline, held⟩)
      · exact absurd (same.symm.trans gone) present.1
  | changeVisibility handle seconds now =>
      rcases changeVisibility_effect settings linked handle seconds now messageId with
        ⟨_, _, -, -, held⟩ | ⟨-, same⟩
      · cases gone.symm.trans held
      · exact absurd (same.symm.trans gone) present.1
  | fail handle now =>
      rcases fail_effect settings linked handle now messageId with
        ⟨_, _, _, -, -, -, held⟩ | ⟨_, _, -, -, -, same⟩ | ⟨-, same⟩
      · cases gone.symm.trans held
      · exact absurd (same.symm.trans gone) present.1
      · exact absurd (same.symm.trans gone) present.1
  | clear => exact absurd rfl port
  | receive maxN visibilityTimeout sweptAt now =>
      right
      obtain ⟨result, between, swept, lending⟩ :=
        receive_effect settings linked maxN visibilityTimeout sweptAt now messageId
      -- lending never makes a stored message go away, so the sweep did
      have buried : between = .gone ∨ between = .unborn := by
        rcases lending with ⟨-, -, -, same, -⟩ | ⟨-, -, lends⟩
        · exact .inl (same.symm.trans gone)
        · generalize place host (queue.after host settings _) messageId = later at lends gone
          generalize deliveredTo host settings queue _ messageId = messages at lends
          cases lends with
          | kept => exact .inl gone
          | retired unborn => exact .inr unborn
          | lent => cases gone
      have ended : ∃ handle, queue.inflight.get? handle = some messageId := by
        cases swept with
        | kept => exact absurd buried (not_or.mpr present)
        | ended handle other held => exact ⟨handle, linked.inflight_iff.mpr ⟨_, _, held⟩⟩
      obtain ⟨handle, lent⟩ := ended
      have late := (receive_removes_iff settings serialises linked lent stored maxN visibilityTimeout
        sweptAt now).mp removed
      have listed : (messageId, entry) ∈ deadLettered host settings queue
          (.receive maxN visibilityTimeout sweptAt now) :=
        (mem_deadLettered_iff serialises linked).mpr ⟨handle, lent, stored, late⟩
      obtain ⟨payload, dumped⟩ := Option.isSome_iff_exists.mp (serialises entry.event)
      exact ⟨entry.receiveCount, payload, dumped,
        (log_after serialises linked _).named _ listed payload dumped⟩

theorem DeadLetteredInLog.stays (serialises : host.Serialises) {before : List QueueCall}
    {event : Event} (logged : DeadLetteredInLog host (reached host settings before) event)
    (later : List QueueCall) :
    DeadLetteredInLog host (reached host settings (before ++ later)) event := by
  induction later using List.reverseRecOn with
  | nil => simpa using logged
  | append_singleton later call ih =>
      obtain ⟨count, payload, dumped, listed⟩ := ih
      rw [← List.append_assoc, reached_snoc]
      have reports : Reports host _ ((reached host settings (before ++ later)).after host settings
          call).log _ := log_after serialises (linked_reached host settings (before ++ later)) call
      obtain ⟨lines, grown⟩ := reports.kept
      refine ⟨count, payload, dumped, ?_⟩
      rw [grown]
      exact List.mem_append_left _ listed

/-- The event of every entry was sent. -/
theorem sent_of_stored (calls : List QueueCall) {messageId : String} {entry : Entry}
    (stored : (reached host settings calls).entries.get? messageId = some entry) :
    .send entry.event ∈ calls := by
  induction calls using List.reverseRecOn generalizing entry with
  | nil => cases stored
  | append_singleton calls call ih =>
      rw [reached_snoc] at stored
      rcases entries_after (linked_reached host settings calls) call stored with
        ⟨former, found, same⟩ | ⟨rfl, -⟩
      · rw [← same]
        exact List.mem_append_left _ (ih found)
      · exact List.mem_append_right _ (List.mem_singleton_self _)

/-- An accepted event keeps its entry until it is acked or dead-lettered. -/
theorem accepted_fate (serialises : host.Serialises) {before : List QueueCall} {event : Event}
    (accepted : ((reached host settings before).perform host settings (.send event)).1 = .ok [])
    (later : List QueueCall) (port : .clear ∉ later) :
    let calls := before ++ .send event :: later
    let messageId := host.uuid4 (reached host settings before).minted
    (∃ entry, (reached host settings calls).entries.get? messageId = some entry ∧
      entry.event = event) ∨
    DeadLetteredInLog host (reached host settings calls) event ∨
    ∃ earlier handle rest entry, calls = earlier ++ .delete handle :: rest ∧
      (reached host settings earlier).inflight.get? handle = some messageId ∧
      (reached host settings earlier).entries.get? messageId = some entry ∧
      entry.event = event := by
  induction later using List.reverseRecOn with
  | nil =>
      left
      rcases send_cases host settings (reached host settings before) event with
        ⟨-, -, text, full⟩ | ⟨-, shape⟩
      · simp [perform, full, Except.map] at accepted
      · refine ⟨{ event := event }, ?_, rfl⟩
        rw [reached_snoc]
        simp [after, perform, shape]
  | append_singleton later call ih =>
      intro calls messageId
      have grown : calls = before ++ .send event :: later ++ [call] := by simp [calls]
      rw [grown, reached_snoc]
      have linked := linked_reached host settings (before ++ .send event :: later)
      rcases ih (fun member => port (List.mem_append_left _ member)) with
        ⟨entry, stored, same⟩ | logged | ⟨earlier, handle, rest, entry, split, lent⟩
      · cases still : ((reached host settings (before ++ .send event :: later)).after host settings
            call).entries.get? (host.uuid4 (reached host settings before).minted) with
        | some entryLater =>
            rcases entries_after linked call still with
              ⟨former, found, kept⟩ | ⟨-, -, absent⟩
            · rw [stored] at found
              cases found
              exact .inl ⟨entryLater, rfl, kept.symm.trans same⟩
            · cases stored.symm.trans absent
        | none =>
            have portNow : call ≠ .clear := by
              rintro rfl
              exact port (List.mem_append_right _ (List.mem_singleton_self _))
            rcases entry_leaves settings serialises linked portNow stored still with
              removed | logged
            · obtain ⟨handle, _, _, rfl, lent, -⟩ := acked_held linked removed
              exact .inr (.inr ⟨_, handle, [], entry, rfl, lent, stored, same⟩)
            · rw [same] at logged
              exact .inr (.inl logged)
      · right
        left
        rw [← reached_snoc]
        exact logged.stays serialises [call]
      · refine .inr (.inr ⟨earlier, handle, rest ++ [call], entry, ?_, lent⟩)
        rw [split, List.append_assoc, List.cons_append]

end FeathrEvents.InMemoryEventQueue
