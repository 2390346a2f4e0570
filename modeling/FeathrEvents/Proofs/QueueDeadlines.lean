/-
Module: FeathrEvents.Proofs.QueueDeadlines
Purpose: The deadline in force on a loan, as the calls of the run set it, is the one the queue acts
  on: no loan ends by expiry before it, and every loan ends with the first sweep at or past it.
Trusted boundary: none
Main exports: readings, deadlineSet, deadlineInForce, timed_reached, loans_end_at_deadline
-/
import FeathrEvents.Proofs.QueueDeadLetters

namespace FeathrEvents

open Collections (OrderedDict BoundedDeque)
open Lease (Place)

/-- The clock readings of a call, in the order in which it takes them. -/
def QueueCall.readings : QueueCall → List ℚ
  | .receive _ _ sweptAt now => [sweptAt, now]
  | .changeVisibility _ _ now | .fail _ now => [now]
  | .send _ | .delete _ | .clear => []

/-- The clock never goes back: all readings of the calls, in the order in which they are taken, are
nondecreasing.  `time.monotonic` promises this. -/
def Nondecreasing (calls : List QueueCall) : Prop :=
  (calls.flatMap QueueCall.readings).Pairwise (· ≤ ·)

instance (calls : List QueueCall) : Decidable (Nondecreasing calls) :=
  inferInstanceAs (Decidable (List.Pairwise _ _))

namespace InMemoryEventQueue

variable (host : Host) (settings : QueueSettings)

/-- The deadline that a call sets on the loan of a message, if it sets one: a `receive` that hands
the message out, or a `change_visibility` or `fail` that succeeds on its live handle. -/
def deadlineSet (queue : InMemoryEventQueue) (call : QueueCall) (messageId : String) : Option ℚ :=
  match call with
  | .receive _ visibilityTimeout _ now =>
      match deliveredTo host settings queue call messageId with
      | [] => none
      | _ :: _ => some (now + visibilityTimeout.getD settings.visibilityTimeout)
  | .changeVisibility handle seconds now =>
      if queue.inflight.get? handle = some messageId then some (now + seconds) else none
  | .fail handle now =>
      if queue.inflight.get? handle = some messageId then
        (queue.entries.get? messageId).bind fun entry =>
          (backoffFor settings entry.receiveCount).toOption.map (now + ·)
      else none
  | .send _ | .delete _ | .clear => none

/-- The last deadline that the calls so far set on a loan of the message: by the `receive` that
handed it out, by a heartbeat, or by a backoff. -/
def deadlineInForce (past : History) (messageId : String) : Option ℚ :=
  (past.filterMap fun visit => deadlineSet host settings visit.1 visit.2 messageId).getLast?

variable {host settings} {queue : InMemoryEventQueue}

@[simp] theorem deadlineInForce_nil (messageId : String) :
    deadlineInForce host settings [] messageId = none := rfl

@[simp] theorem deadlineInForce_snoc (past : History) (queue : InMemoryEventQueue)
    (call : QueueCall) (messageId : String) :
    deadlineInForce host settings (past ++ [(queue, call)]) messageId =
      (deadlineSet host settings queue call messageId).or
        (deadlineInForce host settings past messageId) :=
  Machine.getLast?_filterMap_snoc ..

/-- Some `receive` so far has swept at or past the time. -/
def SweptPast (past : History) (time : ℚ) : Prop :=
  ∃ queue maxN visibilityTimeout sweptAt now,
    (queue, .receive maxN visibilityTimeout sweptAt now) ∈ past ∧ time ≤ sweptAt

theorem SweptPast.snoc {past : History} {time : ℚ} (swept : SweptPast past time)
    (visit : InMemoryEventQueue × QueueCall) : SweptPast (past ++ [visit]) time := by
  obtain ⟨queue, maxN, visibilityTimeout, sweptAt, now, member, passed⟩ := swept
  exact ⟨queue, maxN, visibilityTimeout, sweptAt, now, List.mem_append_left _ member, passed⟩

/-- How the deadline in force constrains the place of a message: a held message has it as its own
deadline; any other message that was ever lent is gone for good or was swept at or past it. -/
structure Timed (host : Host) (settings : QueueSettings) (past : History) (messageId : String)
    (place : Place String ℚ) : Prop where
  held : ∀ count handle deadline, place = .held count handle deadline →
    deadlineInForce host settings past messageId = some deadline
  unborn : place = .unborn → deadlineInForce host settings past messageId = none
  passed : (∀ count handle deadline, place ≠ .held count handle deadline) → place ≠ .gone →
    ∀ deadline, deadlineInForce host settings past messageId = some deadline →
      SweptPast past deadline

theorem Timed.kept {past : History} {messageId : String} {place : Place String ℚ}
    (timed : Timed host settings past messageId place) {visited : InMemoryEventQueue}
    {call : QueueCall} (unset : deadlineSet host settings visited call messageId = none) :
    Timed host settings (past ++ [(visited, call)]) messageId place where
  held count handle deadline shape := by
    rw [deadlineInForce_snoc, unset]
    exact timed.held count handle deadline shape
  unborn shape := by
    rw [deadlineInForce_snoc, unset]
    exact timed.unborn shape
  passed unheld present deadline inForce := by
    rw [deadlineInForce_snoc, unset] at inForce
    exact (timed.passed unheld present deadline inForce).snoc _

/-- A message that has just been held again is timed by the deadline just set. -/
theorem Timed.set {past : History} {messageId handle : String} {count : ℕ} {deadline : ℚ}
    {visited : InMemoryEventQueue} {call : QueueCall}
    (set : deadlineSet host settings visited call messageId = some deadline) :
    Timed host settings (past ++ [(visited, call)]) messageId (.held count handle deadline) where
  held _ _ _ shape := by
    cases shape
    rw [deadlineInForce_snoc, set]
    rfl
  unborn shape := by cases shape
  passed unheld := absurd rfl (unheld _ _ _)

theorem Timed.ended {past : History} {messageId : String} : Timed host settings past messageId .gone
    where
  held _ _ _ shape := by cases shape
  unborn shape := by cases shape
  passed _ present := absurd rfl present

/-- A `receive` that hands out nothing for the message leaves it timed by the deadline in force, or
sweeps past it. -/
theorem Timed.swept {past : History} {messageId : String}
    (timed : Timed host settings past messageId (place host queue messageId))
    {result : Except Exn Unit} {between : Place String ℚ} {maxN : ℤ} {visibilityTimeout : Option ℚ}
    {sweptAt now : ℚ} (sweep : SweptTo host settings queue sweptAt messageId result between)
    (none : deliveredTo host settings queue (.receive maxN visibilityTimeout sweptAt now) messageId =
      []) :
    Timed host settings (past ++ [(queue, .receive maxN visibilityTimeout sweptAt now)]) messageId
      between := by
  have unset : deadlineSet host settings queue (.receive maxN visibilityTimeout sweptAt now)
      messageId = .none := by simp only [deadlineSet, none]
  have before := timed.kept unset
  cases sweep with
  | kept => exact before
  | ended handle entry held stored due loanEnd =>
      have inForce := before.held _ _ _ held
      have passed : SweptPast (past ++ [(queue, .receive maxN visibilityTimeout sweptAt now)])
          entry.deadline :=
        ⟨queue, maxN, visibilityTimeout, sweptAt, now, by simp, due⟩
      cases loanEnd with
      | gone => exact .ended
      | waiting | stranded =>
          refine ⟨by simp, by simp, fun _ _ deadline other => ?_⟩
          rw [inForce] at other
          cases other
          exact passed

theorem Timed.receive {past : History} (linked : Linked host queue) {messageId : String}
    (timed : Timed host settings past messageId (place host queue messageId)) (maxN : ℤ)
    (visibilityTimeout : Option ℚ) (sweptAt now : ℚ) :
    Timed host settings (past ++ [(queue, .receive maxN visibilityTimeout sweptAt now)]) messageId
      (place host (queue.after host settings (.receive maxN visibilityTimeout sweptAt now))
        messageId) := by
  obtain ⟨result, between, sweep, lending⟩ :=
    receive_effect settings linked maxN visibilityTimeout sweptAt now messageId
  have keeps : deliveredTo host settings queue (.receive maxN visibilityTimeout sweptAt now)
      messageId = [] → Timed host settings
        (past ++ [(queue, .receive maxN visibilityTimeout sweptAt now)]) messageId between :=
    timed.swept sweep
  rcases lending with ⟨eventId, -, -, same, none⟩ | ⟨-, -, lends⟩
  · rw [same]
    exact keeps none
  · have set : ∀ message, deliveredTo host settings queue
        (.receive maxN visibilityTimeout sweptAt now) messageId = [message] →
        deadlineSet host settings queue (.receive maxN visibilityTimeout sweptAt now)
          messageId = some (now + visibilityTimeout.getD settings.visibilityTimeout) := by
      intro message one
      simp only [deadlineSet, one]
    generalize place host (queue.after host settings
      (.receive maxN visibilityTimeout sweptAt now)) messageId = later at lends ⊢
    generalize deliveredTo host settings queue
      (.receive maxN visibilityTimeout sweptAt now) messageId = messages at lends keeps set
    cases lends with
    | kept => exact keeps rfl
    | retired => exact .ended
    | lent count handle entry waits fresh stored => exact .set (set _ rfl)

/-- Every call keeps the link between the deadline in force and the place. -/
theorem Timed.after {past : History} (linked : Linked host queue) {messageId : String}
    (timed : Timed host settings past messageId (place host queue messageId)) (call : QueueCall) :
    Timed host settings (past ++ [(queue, call)]) messageId
      (place host (queue.after host settings call) messageId) := by
  have unlent : ∀ handle, (∀ count deadline,
      place host queue messageId ≠ .held count handle deadline) →
      queue.inflight.get? handle ≠ some messageId := by
    intro handle unheld lent
    obtain ⟨count, deadline, held⟩ := linked.inflight_iff.mp lent
    exact unheld count deadline held
  cases call with
  | send event =>
      rcases send_effect settings linked event messageId with
        ⟨-, -, unborn, waits⟩ | same
      · rw [waits]
        refine ⟨by simp, by simp, fun _ _ deadline inForce => ?_⟩
        rw [deadlineInForce_snoc, timed.unborn unborn] at inForce
        cases inForce
      · rw [same]
        exact timed.kept rfl
  | delete handle =>
      rcases delete_effect settings linked handle messageId with
        ⟨-, -, -, -, gone⟩ | ⟨-, same⟩
      · rw [gone]
        exact .ended
      · rw [same]
        exact timed.kept rfl
  | changeVisibility handle seconds now =>
      rcases changeVisibility_effect settings linked handle seconds now messageId with
        ⟨count, deadline, held, -, moved⟩ | ⟨unheld, same⟩
      · rw [moved]
        exact .set (by simp [deadlineSet, linked.inflight_iff.mpr ⟨count, deadline, held⟩])
      · rw [same]
        exact timed.kept (by simp [deadlineSet, unlent handle unheld])
  | fail handle now =>
      rcases fail_effect settings linked handle now messageId with
        ⟨count, deadline, backoff, held, backedOff, -, moved⟩ |
        ⟨count, deadline, held, overflow, -, same⟩ | ⟨unheld, same⟩
      · obtain ⟨entry, stored, -, rfl, -⟩ := place_eq_held.mp held
        rw [moved]
        refine .set ?_
        simp [deadlineSet, linked.inflight_iff.mpr ⟨_, _, held⟩, stored, backedOff,
          Except.toOption]
      · obtain ⟨entry, stored, -, rfl, -⟩ := place_eq_held.mp held
        rw [same]
        apply timed.kept
        simp [deadlineSet, stored, overflow, Except.toOption]
      · rw [same]
        exact timed.kept (by simp [deadlineSet, unlent handle unheld])
  | clear =>
      rcases clear_place linked messageId with ⟨unborn, cleared⟩ | ⟨-, gone⟩
      · rw [unborn] at timed
        simpa only [InMemoryEventQueue.after, perform, cleared] using timed.kept rfl
      · simpa only [InMemoryEventQueue.after, perform, gone] using Timed.ended
  | receive maxN visibilityTimeout sweptAt now =>
      exact timed.receive linked maxN visibilityTimeout sweptAt now

theorem timed_reached (calls : List QueueCall) (messageId : String) :
    Timed host settings (history host settings calls) messageId
      (place host (reached host settings calls) messageId) := by
  induction calls using List.reverseRecOn with
  | nil =>
      rw [reached_nil, place_create]
      exact ⟨by simp, fun _ => rfl, fun _ _ deadline inForce => by cases inForce⟩
  | append_singleton calls call ih =>
      rw [reached_snoc, history_snoc]
      exact ih.after (linked_reached _ _ calls) call

/-- A `receive` that sweeps before the deadline in force leaves the message alone. -/
theorem Timed.early {past : History} (linked : Linked host queue) {messageId : String}
    (timed : Timed host settings past messageId (place host queue messageId)) {maxN : ℤ}
    {visibilityTimeout : Option ℚ} {sweptAt now deadline : ℚ}
    (ordered : ∀ time, SweptPast past time → time ≤ sweptAt)
    (inForce : deadlineInForce host settings past messageId = some deadline)
    (early : sweptAt < deadline) :
    deliveredTo host settings queue (.receive maxN visibilityTimeout sweptAt now) messageId = [] ∧
      place host (queue.after host settings (.receive maxN visibilityTimeout sweptAt now))
        messageId = place host queue messageId := by
  obtain ⟨result, between, sweep, lending⟩ :=
    receive_effect settings linked maxN visibilityTimeout sweptAt now messageId
  have kept : between = place host queue messageId := by
    cases sweep with
    | kept => rfl
    | ended handle entry held stored due =>
        have same := timed.held _ _ _ held
        rw [inForce] at same
        cases same
        exact absurd due (not_le.mpr early)
  subst kept
  rcases lending with ⟨-, -, -, same, none⟩ | ⟨-, -, lends⟩
  · exact ⟨none, same⟩
  · generalize place host (queue.after host settings _) messageId = later at lends ⊢
    generalize deliveredTo host settings queue _ messageId = messages at lends ⊢
    cases lends with
    | kept => exact ⟨rfl, rfl⟩
    | retired unborn =>
        rw [timed.unborn unborn] at inForce
        cases inForce
    | lent count handle entry waits =>
        -- a message that waits again was swept at its deadline or later
        have passed := timed.passed (by simp [waits]) (by simp [waits]) deadline inForce
        exact absurd (ordered deadline passed) (not_le.mpr early)

/-- A `receive` that sweeps at or past the deadline of a loan ends the loan. -/
theorem receive_ends_loan (settings : QueueSettings) (serialises : host.Serialises)
    (linked : Linked host queue)
    {handle messageId : String} {entry : Entry}
    (lent : queue.inflight.get? handle = some messageId)
    (stored : queue.entries.get? messageId = some entry) (maxN : ℤ)
    (visibilityTimeout : Option ℚ) {sweptAt : ℚ} (now : ℚ) (late : entry.deadline ≤ sweptAt) :
    let call := QueueCall.receive maxN visibilityTimeout sweptAt now
    (queue.after host settings call).inflight.get? handle = none ∧
      (messageId ∈ (queue.after host settings call).visible ∨
        (∃ message, deliveredTo host settings queue call messageId = [message]) ∨
        (messageId, entry) ∈ deadLettered host settings queue call) := by
  intro call
  have held := linked.held_of_lent lent stored
  have drawn : Drawn host queue handle := linked.handleMinted handle messageId lent
  obtain ⟨⟨messages, returned⟩, -⟩ :=
    receive_buries settings serialises linked maxN visibilityTimeout sweptAt now
  obtain ⟨result, between, sweep, lending⟩ :=
    receive_effect settings linked maxN visibilityTimeout sweptAt now messageId
  rcases lending with ⟨eventId, -, raised, -⟩ | ⟨rfl, -, lends⟩
  · rw [returned] at raised
    cases raised
  have ends : (∀ count deadline, place host (queue.after host settings call) messageId ≠
      .held count handle deadline) ∧
      (messageId ∈ (queue.after host settings call).visible ∨
        (∃ message, deliveredTo host settings queue call messageId = [message]) ∨
        (messageId, entry) ∈ deadLettered host settings queue call) := by
    cases sweep with
    | kept spared => exact absurd late (not_le.mpr (spared rfl _ _ _ held))
    | ended other former heldFormer storedFormer _ loanEnd placed =>
        rw [stored] at storedFormer
        cases storedFormer
        generalize laterShape : place host (queue.after host settings call) messageId = later
          at lends ⊢
        generalize deliveredTo host settings queue call messageId = messages at lends ⊢
        cases loanEnd with
        | waiting below =>
            cases lends with
            | kept =>
                obtain ⟨-, -, -, -, visible⟩ := place_eq_waiting.mp laterShape
                exact ⟨by simp, .inl visible⟩
            | lent count fresh former waits unused =>
                refine ⟨?_, .inr (.inl ⟨_, rfl⟩)⟩
                rintro _ _ shape
                cases shape
                exact unused drawn
            | retired unborn => cases unborn
        | gone atLimit =>
            refine ⟨?_, .inr (.inr ?_)⟩
            · cases lends with
              | lent _ _ _ waits => cases waits
              | _ => simp
            · exact (mem_deadLettered_iff serialises linked).mpr ⟨handle, lent, stored, late, atLimit⟩
        | stranded => exact absurd rfl (placed rfl _)
  refine ⟨?_, ends.2⟩
  by_contra live
  obtain ⟨owner, lentAfter⟩ := Option.ne_none_iff_exists'.mp live
  rcases live_after linked call lentAfter with before | fresh
  · rw [lent] at before
    cases before
    obtain ⟨count, deadline, heldAfter⟩ := (linked_after linked call).inflight_iff.mp lentAfter
    exact ends.1 count deadline heldAfter
  · exact fresh drawn

/-- In a run whose clock never goes back, a sweep before a `receive` read no later time than the
sweep of that `receive`, which in turn read no later time than the `receive` itself. -/
theorem Nondecreasing.swept (host : Host) (settings : QueueSettings) {calls : List QueueCall}
    {maxN : ℤ} {visibilityTimeout : Option ℚ} {sweptAt now : ℚ}
    (ordered : Nondecreasing (calls ++ [.receive maxN visibilityTimeout sweptAt now])) :
    sweptAt ≤ now ∧ ∀ time, SweptPast (history host settings calls) time → time ≤ sweptAt := by
  simp only [Nondecreasing, List.flatMap_append, List.flatMap_cons, List.flatMap_nil,
    QueueCall.readings, List.append_nil, List.pairwise_append, List.mem_flatMap] at ordered
  obtain ⟨-, last, across⟩ := ordered
  refine ⟨by simpa using last, ?_⟩
  rintro time ⟨queue, otherN, otherTimeout, otherSwept, otherNow, member, passed⟩
  obtain ⟨before, later, rfl, -⟩ := mem_history member
  refine passed.trans (across otherSwept ⟨_, List.mem_append_right _ (List.mem_cons_self ..), ?_⟩
    sweptAt (by simp))
  simp

/-- Loans end exactly at the deadline in force: a `receive` that sweeps before it neither hands the
message out nor dead-letters it; one that sweeps at or past it ends the loan and puts the message in
one of the three places; so no delivery comes before the deadline of the delivery it follows. -/
theorem loans_end_at_deadline (host : Host) (settings : QueueSettings)
    (serialises : host.Serialises) (calls : List QueueCall) (maxN : ℤ)
    (visibilityTimeout : Option ℚ) (sweptAt now : ℚ)
    (ordered : Nondecreasing (calls ++ [.receive maxN visibilityTimeout sweptAt now]))
    (messageId : String) :
    let queue := reached host settings calls
    let call := QueueCall.receive maxN visibilityTimeout sweptAt now
    let inForce := deadlineInForce host settings (history host settings calls) messageId
    (∀ deadline, inForce = some deadline → sweptAt < deadline →
      deliveredTo host settings queue call messageId = [] ∧
        ∀ entry, (messageId, entry) ∉ deadLettered host settings queue call) ∧
    (∀ handle, queue.inflight.get? handle = some messageId →
      ∃ deadline, inForce = some deadline ∧
        (sweptAt < deadline →
          (queue.after host settings call).inflight.get? handle = some messageId) ∧
        (deadline ≤ sweptAt →
          (queue.after host settings call).inflight.get? handle = none ∧
            (messageId ∈ (queue.after host settings call).visible ∨
              (∃ message, deliveredTo host settings queue call messageId = [message]) ∨
              (∃ entry, (messageId, entry) ∈ deadLettered host settings queue call) ∧
                (queue.after host settings call).dlq =
                  dlqWith queue.dlq (deadLettered host settings queue call)))) ∧
    (∀ deadline, inForce = some deadline →
      deliveredTo host settings queue call messageId ≠ [] → deadline ≤ now) := by
  intro queue call inForce
  have linked : Linked host queue := linked_reached _ _ calls
  have timed : Timed host settings (history host settings calls) messageId
      (place host queue messageId) := timed_reached calls messageId
  obtain ⟨inOrder, sweptBefore⟩ := Nondecreasing.swept host settings ordered
  have early : ∀ deadline, inForce = some deadline → sweptAt < deadline →
      deliveredTo host settings queue call messageId = [] ∧
        place host (queue.after host settings call) messageId = place host queue messageId :=
    fun deadline set before => timed.early linked sweptBefore set before
  refine ⟨fun deadline set before => ⟨(early deadline set before).1, ?_⟩, ?_, ?_⟩
  · intro entry member
    obtain ⟨handle, lent, stored, due, -⟩ := (mem_deadLettered_iff serialises linked).mp member
    have same := timed.held _ _ _ (linked.held_of_lent lent stored)
    rw [show deadlineInForce _ _ _ _ = some deadline from set] at same
    cases same
    exact absurd due (not_le.mpr before)
  · intro handle lent
    obtain ⟨entry, stored, -⟩ := linked.inflightEntry handle messageId lent
    have held := linked.held_of_lent lent stored
    refine ⟨entry.deadline, timed.held _ _ _ held, fun before => ?_, fun late => ?_⟩
    · have unchanged := (early _ (timed.held _ _ _ held) before).2.trans held
      exact (linked_after linked call).inflight_iff.mpr ⟨_, _, unchanged⟩
    · obtain ⟨dead, whereabouts⟩ := receive_ends_loan settings serialises linked lent stored
        maxN visibilityTimeout now late
      refine ⟨dead, whereabouts.imp_right (Or.imp_right fun listed => ⟨⟨entry, listed⟩, ?_⟩)⟩
      exact dlq_after serialises linked call (by simp [call])
  · intro deadline set handedOut
    by_contra later
    exact handedOut (early deadline set (inOrder.trans_lt (not_le.mp later))).1

theorem a_loan_of_30_seconds_at_29 :
    deliveredTo (countingHost fun event => some event.eventId) {}
      (reached (countingHost fun event => some event.eventId) {}
        [.send (sampleEvent "a"), .receive 1 none 0 0])
      (.receive 1 none 29 29) "1" = [] :=
  ((loans_end_at_deadline _ {} (fun _ => rfl) [.send (sampleEvent "a"), .receive 1 none 0 0] 1 none
    29 29 (by decide +kernel) "1").1 30 (by decide +kernel) (by decide +kernel)).1

end InMemoryEventQueue

end FeathrEvents
