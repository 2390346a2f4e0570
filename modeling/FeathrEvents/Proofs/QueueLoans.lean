/-
Module: FeathrEvents.Proofs.QueueLoans
Purpose: How long a loan lasts: until one of its own verbs, a `clear`, or a sweep at or past its
  deadline.  The next delivery of its message, or its dead-lettering, waits for that.
Trusted boundary: none
Main exports: loan_after, loan_lasts, MovesOn, moves_on_after_deadline
-/
import FeathrEvents.Proofs.QueueDeliveries
import FeathrEvents.Proofs.QueueHandles

namespace FeathrEvents

open Lease (Place)

/-- In a run whose clock never goes back, a call reads no earlier time than the calls before it. -/
theorem Nondecreasing.readings {before after : List QueueCall} {earlier later : QueueCall}
    (ordered : Nondecreasing (before ++ later :: after)) (member : earlier ∈ before) {one two : ℚ}
    (first : one ∈ earlier.readings) (second : two ∈ later.readings) : one ≤ two := by
  rw [Nondecreasing, List.flatMap_append, List.pairwise_append] at ordered
  apply ordered.2.2
  · exact List.mem_flatMap.mpr ⟨earlier, member, first⟩
  · exact List.mem_flatMap.mpr ⟨later, List.mem_cons_self .., second⟩

namespace InMemoryEventQueue

variable {host : Host} {settings : QueueSettings} {queue : InMemoryEventQueue}
variable {messageId handle : String} {count : ℕ} {deadline : ℚ}

/-- A `receive` whose sweep is at or past the time. -/
def SweepsPast (call : QueueCall) (time : ℚ) : Prop :=
  ∃ maxN visibilityTimeout sweptAt now,
    call = .receive maxN visibilityTimeout sweptAt now ∧ time ≤ sweptAt

/-- A call that is neither `clear` nor a verb on the handle of a loan leaves the loan as it is, or is a
`receive` that sweeps at or past its deadline. -/
theorem loan_after (settings : QueueSettings) (linked : Linked host queue)
    (held : place host queue messageId = .held count handle deadline) (call : QueueCall)
    (quiet : call.receiptHandle? ≠ some handle) (port : call ≠ .clear) :
    place host (queue.after host settings call) messageId = .held count handle deadline ∨
      SweepsPast call deadline := by
  have other : ∀ used, used ≠ handle → ∀ otherCount otherDeadline,
      place host queue messageId ≠ .held otherCount used otherDeadline := by
    intro used different otherCount otherDeadline same
    rw [held] at same
    cases same
    exact different rfl
  cases call with
  | send event =>
      rcases send_effect settings linked event messageId with ⟨-, -, unborn, -⟩ | same
      · rw [held] at unborn
        cases unborn
      · exact .inl (same.trans held)
  | delete used =>
      have different : used ≠ handle := fun same => quiet (by rw [same]; rfl)
      rcases delete_effect settings linked used messageId with ⟨_, _, mine, -⟩ | ⟨-, same⟩
      · exact absurd mine (other used different _ _)
      · exact .inl (same.trans held)
  | changeVisibility used seconds now =>
      have different : used ≠ handle := fun same => quiet (by rw [same]; rfl)
      rcases changeVisibility_effect settings linked used seconds now messageId with
        ⟨_, _, mine, -⟩ | ⟨-, same⟩
      · exact absurd mine (other used different _ _)
      · exact .inl (same.trans held)
  | fail used now =>
      have different : used ≠ handle := fun same => quiet (by rw [same]; rfl)
      rcases fail_effect settings linked used now messageId with
        ⟨_, _, _, mine, -⟩ | ⟨_, _, mine, -⟩ | ⟨-, same⟩
      · exact absurd mine (other used different _ _)
      · exact absurd mine (other used different _ _)
      · exact .inl (same.trans held)
  | clear => exact absurd rfl port
  | receive maxN visibilityTimeout sweptAt now =>
      obtain ⟨result, between, sweep, lending⟩ :=
        receive_effect settings linked maxN visibilityTimeout sweptAt now messageId
      cases sweep with
      | kept =>
          left
          rcases lending with ⟨-, -, -, same, -⟩ | ⟨-, -, lends⟩
          · exact same.trans held
          · generalize place host (queue.after host settings _) messageId = later at lends ⊢
            generalize deliveredTo host settings queue _ messageId = messages at lends
            cases lends with
            | kept => exact held
            | retired unborn =>
                rw [held] at unborn
                cases unborn
            | lent _ _ _ waits =>
                rw [held] at waits
                cases waits
      | ended other entry heldToo _ due =>
          rw [held] at heldToo
          cases heldToo
          exact .inr ⟨maxN, visibilityTimeout, sweptAt, now, rfl, due⟩

/-- The same over any number of calls. -/
theorem loan_lasts {before between : List QueueCall}
    (held : place host (reached host settings before) messageId = .held count handle deadline)
    (quiet : ∀ call ∈ between, call.receiptHandle? ≠ some handle) (port : .clear ∉ between) :
    place host (reached host settings (before ++ between)) messageId =
        .held count handle deadline ∨
      ∃ call ∈ between, SweepsPast call deadline := by
  induction between using List.reverseRecOn with
  | nil => exact .inl (by rwa [List.append_nil])
  | append_singleton between call ih =>
      rcases ih (fun other member => quiet other (List.mem_append_left _ member))
        (fun member => port (List.mem_append_left _ member)) with still | ⟨swept, member, past⟩
      · rw [← List.append_assoc, reached_snoc]
        refine (loan_after settings (linked_reached _ _ _) still call (quiet call (by simp))
          fun same => port (by simp [same])).imp_right fun past => ⟨call, by simp, past⟩
      · exact .inr ⟨swept, List.mem_append_left _ member, past⟩

variable (host settings) in
/-- The call is a `receive` that hands the message out or dead-letters it, its sweep at this time.
The one or the other is what the end of a loan leads to. -/
def MovesOn (queue : InMemoryEventQueue) (messageId : String) (sweptAt : ℚ) (call : QueueCall) :
    Prop :=
  ∃ maxN visibilityTimeout now, call = .receive maxN visibilityTimeout sweptAt now ∧
    (deliveredTo host settings queue call messageId ≠ [] ∨
      messageId ∈ (deadLettered host settings queue call).map Prod.fst)

/-- Whatever moves a message on ends its loan. -/
theorem MovesOn.ends {call : QueueCall} {sweptAt : ℚ} (linked : Linked host queue)
    (held : place host queue messageId = .held count handle deadline)
    (movesOn : MovesOn host settings queue messageId sweptAt call) :
    place host (queue.after host settings call) messageId ≠ .held count handle deadline := by
  obtain ⟨maxN, visibilityTimeout, now, rfl, handedOut | buried⟩ := movesOn
  · have drawn : Drawn host queue handle :=
      linked.handleMinted _ _ (linked.inflight_iff.mpr ⟨_, _, held⟩)
    obtain ⟨result, between, -, lending⟩ :=
      receive_effect settings linked maxN visibilityTimeout sweptAt now messageId
    rcases lending with ⟨-, -, -, -, none⟩ | ⟨-, -, lends⟩
    · exact absurd none handedOut
    · generalize place host (queue.after host settings _) messageId = later at lends ⊢
      generalize deliveredTo host settings queue _ messageId = messages at lends handedOut
      cases lends with
      | kept => exact absurd rfl handedOut
      | retired => exact absurd rfl handedOut
      | lent _ fresh _ _ undrawn =>
          intro same
          cases same
          exact undrawn drawn
  · rw [(deadLettered_gone linked buried).1]
    simp

/-- A message whose loan nobody touches is neither handed out nor dead-lettered before the deadline
of the loan. -/
theorem moves_on_after_deadline {before between after : List QueueCall} {call : QueueCall}
    {sweptAt : ℚ}
    (held : place host (reached host settings before) messageId = .held count handle deadline)
    (quiet : ∀ call ∈ between, call.receiptHandle? ≠ some handle)
    (port : .clear ∉ between) (ordered : Nondecreasing (before ++ between ++ call :: after))
    (movesOn : MovesOn host settings (reached host settings (before ++ between)) messageId sweptAt
      call) : deadline ≤ sweptAt := by
  have shape := movesOn
  obtain ⟨maxN, visibilityTimeout, now, rfl, -⟩ := shape
  rcases loan_lasts held quiet port with still | ⟨swept, member, past⟩
  · have linked : Linked host (reached host settings (before ++ between)) := linked_reached ..
    rcases loan_after settings linked still (.receive maxN visibilityTimeout sweptAt now)
      (by simp [QueueCall.receiptHandle?]) (by simp) with untouched | ⟨_, _, _, _, same, past⟩
    · exact absurd untouched (movesOn.ends linked still)
    · cases same
      exact past
  · obtain ⟨_, _, earlier, _, rfl, past⟩ := past
    exact past.trans (ordered.readings (List.mem_append_right _ member) (List.mem_cons_self ..)
      (List.mem_cons_self ..))

end InMemoryEventQueue

end FeathrEvents
