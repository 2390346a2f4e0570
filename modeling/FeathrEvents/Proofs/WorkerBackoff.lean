/-
Module: FeathrEvents.Proofs.WorkerBackoff
Purpose: The composed worker and queue back off: after an attempt that fails in `_handle`, the message
  stays away for the backoff of that attempt, whatever the other consumers do.
Trusted boundary: none
Main exports: AttemptFails, backoff, Reported, failed_attempts_back_off
-/
import Mathlib.Algebra.BigOperators.Group.Finset.Basic
import Mathlib.Tactic.Linarith
import FeathrEvents.Proofs.QueueLoans
import FeathrEvents.Proofs.WorkerOwnership

namespace FeathrEvents.System

open InMemoryEventQueue
open Lease (Place)

/-- In this move the attempt with this number at a message fails in `_handle`: its write raises while
its handle is live, and the failure is reported to the queue at this time. -/
def AttemptFails (system : System) (messageId : String) (attempt : ℕ) (failedAt : ℚ)
    (move : Move) : Prop :=
  ∃ consumer checkedAt openedAt sink message rest write,
    move = .raised consumer checkedAt openedAt failedAt ∧
    (system.now ≤ checkedAt ∧ checkedAt ≤ openedAt ∧ openedAt ≤ failedAt) ∧
    system.at? consumer = .writing sink message rest write ∧ message.receiveCount = attempt ∧
    system.queue.inflight.get? message.receiptHandle = some messageId

/-- The backoff after an attempt, in exact arithmetic. -/
def backoff (setup : Setup) (attempt : ℕ) : ℚ :=
  min (setup.queue.visibilityTimeout * 2 ^ ((attempt : ℤ) - 1)) 900

/-- Among all the calls of a run, the report of a failed attempt: the loan gets the backoff as its
deadline, and its handle is never used again. -/
structure Reported (setup : Setup) (all before after : List QueueCall) (messageId handle : String)
    (attempt : ℕ) (failedAt : ℚ) : Prop where
  split : all = before ++ .fail handle failedAt :: after
  held : ∃ deadline, place setup.host (reached setup.host setup.queue before) messageId =
    .held attempt handle deadline
  backedOff : place setup.host
    (reached setup.host setup.queue (before ++ [.fail handle failedAt])) messageId =
      .held attempt handle (failedAt + backoff setup attempt)
  quiet : ∀ call ∈ after, call.receiptHandle? ≠ some handle

variable {setup : Setup} {system : System} {all before after : List QueueCall}
variable {messageId handle : String} {attempt : ℕ} {failedAt : ℚ}

/-! ### From the worker to the queue -/

theorem AttemptFails.reported {earlier : List Move} {move : Move}
    (fails : AttemptFails (run setup earlier) messageId attempt failedAt move)
    (exactQueue : setup.queue.arithmetic = .exact)
    (exactSink : setup.worker.sink.arithmetic = .exact) (later : List Move) :
    ∃ handle after,
      calls (run setup (earlier ++ [move])).past =
        calls (run setup earlier).past ++ [.fail handle failedAt] ∧
      Reported setup (calls (run setup (earlier ++ move :: later)).past)
        (calls (run setup earlier).past) after messageId handle attempt failedAt := by
  obtain ⟨consumer, checkedAt, openedAt, sink, message, rest, write, rfl, ordered, stands, rfl,
    live⟩ := fails
  have driven := driven_run setup earlier
  have linked := driven.linked
  have recorded : ((run setup earlier).sink.recordFailure setup.worker.sink message.event.eventId
      checkedAt openedAt).1 = .ok () := by
    rcases recordFailure_cases setup.worker.sink message.event.eventId checkedAt openedAt
      (run setup earlier).sink with ⟨-, shape⟩ | ⟨-, -, ⟨delay, -, shape⟩ | ⟨float, -⟩⟩
    · rw [shape]
    · rw [shape]
    · rw [exactSink] at float
      cases float
  obtain ⟨queueAfter, pastAfter⟩ := next_raised linked stands ordered recorded
  rw [← run_snoc] at queueAfter pastAfter
  have made : callsBy (run setup (earlier ++ [.raised consumer checkedAt openedAt failedAt])).past =
      callsBy (run setup earlier).past ++
        [(some consumer, .fail message.receiptHandle failedAt)] := by
    rw [pastAfter]
    simp [Happening.call?]
  obtain ⟨more, grown⟩ :=
    callsBy_grows setup (earlier ++ [.raised consumer checkedAt openedAt failedAt]) later
  rw [List.append_assoc, List.singleton_append, made, List.append_assoc,
    List.singleton_append] at grown
  have callsAfter : calls (run setup
      (earlier ++ [.raised consumer checkedAt openedAt failedAt])).past =
        calls (run setup earlier).past ++ [.fail message.receiptHandle failedAt] := by
    rw [calls, made, List.map_append]
    rfl
  refine ⟨message.receiptHandle, more.map Prod.snd, callsAfter, ?_⟩
  obtain ⟨entry, found, -, counted⟩ := (owned_run setup earlier).lends consumer message
    (by simp [stands, Consumer.held, Consumer.current?]) messageId live
  have heldNow := linked.held_of_lent live found
  rw [counted, driven.queue] at heldNow
  refine ⟨by rw [calls, grown]; simp [calls], ⟨entry.deadline, heldNow⟩, ?_,
    (owned_run setup _).after_report grown⟩
  rw [reached_snoc]
  rcases fail_effect setup.queue (linked_reached setup.host setup.queue _) message.receiptHandle
    failedAt messageId with ⟨count, deadline, delay, before, backedOff, -, moved⟩ |
      ⟨count, deadline, before, overflow, -⟩ | ⟨unheld, -⟩
  · rw [heldNow] at before
    cases before
    rcases capped_cases setup.queue.arithmetic setup.queue.visibilityTimeout backoffCapSeconds
      ((message.receiveCount : ℤ) - 1) with ⟨computed, -⟩ | ⟨-, float, -⟩
    · have same : Except.ok delay = Except.ok (backoff setup message.receiveCount) :=
        backedOff.symm.trans computed
      rw [moved, Except.ok.inj same]
    · rw [exactQueue] at float
      cases float
  · rcases capped_cases setup.queue.arithmetic setup.queue.visibilityTimeout backoffCapSeconds
      ((count : ℤ) - 1) with ⟨computed, -⟩ | ⟨-, float, -⟩
    · cases overflow.symm.trans computed
    · rw [exactQueue] at float
      cases float
  · exact absurd heldNow (unheld _ _)

/-! ### From one attempt to the next -/

/-- Until the backoff is over, nothing moves the message on. -/
theorem Reported.waits
    (reported : Reported setup all before after messageId handle attempt failedAt)
    (ordered : Nondecreasing all) (port : .clear ∉ all) {between rest : List QueueCall}
    {call : QueueCall} {sweptAt : ℚ} (split : after = between ++ call :: rest)
    (movesOn : MovesOn setup.host setup.queue (reached setup.host setup.queue
      (before ++ [.fail handle failedAt] ++ between)) messageId sweptAt call) :
    failedAt + backoff setup attempt ≤ sweptAt := by
  have shape : all = before ++ [.fail handle failedAt] ++ between ++ call :: rest := by
    rw [reported.split, split]
    simp
  refine moves_on_after_deadline reported.backedOff (fun other member => reported.quiet other ?_)
    (fun member => port ?_) (shape ▸ ordered) movesOn
  · rw [split]
    exact List.mem_append_left _ member
  · rw [shape]
    simp [member]

/-- Along a run the number of a held message's delivery never goes down. -/
theorem attempts_grow {more : List QueueCall} {first second : ℕ} {one two : String}
    {started ended : ℚ}
    (earlier : place setup.host (reached setup.host setup.queue before) messageId =
      .held first one started)
    (later : place setup.host (reached setup.host setup.queue (before ++ more)) messageId =
      .held second two ended) : first ≤ second := by
  have counted := (life_recorded setup.host setup.queue before messageId).2.1 first
    (by rw [earlier]; rfl)
  have countedLater := (life_recorded setup.host setup.queue (before ++ more) messageId).2.1 second
    (by rw [later]; rfl)
  rw [counted, countedLater, history, history, Machine.visits_append, deliveries_append]
  simp

/-- Two attempts in a row are apart by the backoff of the first. -/
theorem Reported.spaced {next : List QueueCall} {rest : List QueueCall} {other : String}
    {nextFailedAt : ℚ}
    (reported : Reported setup all before after messageId handle attempt failedAt)
    (reportedNext : Reported setup all next rest messageId other (attempt + 1) nextFailedAt)
    (ordered : Nondecreasing all) (port : .clear ∉ all) :
    failedAt + backoff setup attempt ≤ nextFailedAt := by
  obtain ⟨deadline, heldNow⟩ := reported.held
  obtain ⟨nextDeadline, heldNext⟩ := reportedNext.held
  rcases Machine.split_cases (reported.split.symm.trans reportedNext.split) with
    ⟨rfl, -, -⟩ | ⟨between, rfl, rfl⟩ | ⟨between, rfl, -⟩
  · rw [heldNow] at heldNext
    cases heldNext
  · have split : all = before ++ [.fail handle failedAt] ++ between ++
        .fail other nextFailedAt :: rest := by
      rw [reported.split]
      simp
    have here : before ++ .fail handle failedAt :: between =
        before ++ [.fail handle failedAt] ++ between := by simp
    rw [here] at heldNext
    rcases loan_lasts reported.backedOff
      (fun call member => reported.quiet call (List.mem_append_left _ member))
      (fun member => port (by rw [split]; simp [member])) with still | ⟨swept, member, past⟩
    · rw [heldNext] at still
      cases still
    · obtain ⟨maxN, visibilityTimeout, sweptAt, now, rfl, past⟩ := past
      rw [split] at ordered
      exact past.trans (ordered.readings (List.mem_append_right _ member)
        (List.mem_cons_self ..) (List.mem_cons_self ..))
  · have grows := attempts_grow heldNext heldNow
    omega

/-- The reports of the attempts from the first on add up. -/
theorem spaced_sum {failedAt : ℕ → ℚ} {limit : ℕ}
    (reported : ∀ attempt, 1 ≤ attempt → attempt ≤ limit → ∃ before after handle,
      Reported setup all before after messageId handle attempt (failedAt attempt))
    (ordered : Nondecreasing all) (port : .clear ∉ all) {attempt : ℕ} (last : attempt + 1 ≤ limit) :
    failedAt 1 + ∑ earlier ∈ Finset.range attempt, backoff setup (earlier + 1) ≤
      failedAt (attempt + 1) := by
  induction attempt with
  | zero => simp
  | succ attempt ih =>
      obtain ⟨before, after, handle, first⟩ := reported (attempt + 1) (by omega) (by omega)
      obtain ⟨next, rest, other, second⟩ := reported (attempt + 1 + 1) (by omega) last
      have spaced := first.spaced second ordered port
      have sum := ih (by omega)
      rw [Finset.sum_range_succ]
      linarith

/-- What moves a message on to the dead-letter queue comes after the report of its last attempt. -/
theorem Reported.buried
    (reported : Reported setup all before after messageId handle attempt failedAt)
    (ordered : Nondecreasing all) (port : .clear ∉ all) {earlier rest : List QueueCall} {maxN : ℤ}
    {visibilityTimeout : Option ℚ} {sweptAt now : ℚ}
    (split : all = earlier ++ .receive maxN visibilityTimeout sweptAt now :: rest)
    (buried : messageId ∈ (deadLettered setup.host setup.queue
      (reached setup.host setup.queue earlier)
        (.receive maxN visibilityTimeout sweptAt now)).map Prod.fst) :
    failedAt + backoff setup attempt ≤ sweptAt := by
  rcases Machine.split_cases (reported.split.symm.trans split) with
    ⟨-, impossible, -⟩ | ⟨between, rfl, same⟩ | ⟨between, rfl, -⟩
  · cases impossible
  · refine reported.waits ordered port same ⟨maxN, visibilityTimeout, now, rfl, .inr ?_⟩
    simpa using buried
  · have gone := (deadLettered_gone (linked_reached setup.host setup.queue earlier) buried).1
    rw [← reached_snoc] at gone
    have stays := gone_stays gone between
    obtain ⟨deadline, held⟩ := reported.held
    rw [List.append_assoc, List.singleton_append, held] at stays
    cases stays

/-- The worker and the queue together really back off, in every run of any number of consumers, with
times as exact rationals.  When attempt number k at a message fails with its handle live, the message
is neither handed out again nor dead-lettered before the backoff of k is over; so a message all of
whose attempts fail that way is not dead-lettered before the sum of the backoffs. -/
theorem failed_attempts_back_off (setup : Setup) (exactQueue : setup.queue.arithmetic = .exact)
    (exactSink : setup.worker.sink.arithmetic = .exact) (moves : List Move) (messageId : String) :
    let queueAt := reached setup.host setup.queue
    let all := calls (run setup moves).past
    (∀ before move after attempt failedAt, moves = before ++ move :: after →
      AttemptFails (run setup before) messageId attempt failedAt move →
      let past := calls (run setup before).past
      let reported := calls (run setup (before ++ [move])).past
      (deliveries setup.host setup.queue (history setup.host setup.queue past)
        messageId).length = attempt ∧
      ∀ between call rest sweptAt, all = reported ++ between ++ call :: rest →
        MovesOn setup.host setup.queue (queueAt (reported ++ between)) messageId sweptAt call →
        failedAt + min (setup.queue.visibilityTimeout * 2 ^ ((attempt : ℤ) - 1)) 900 ≤ sweptAt) ∧
    ∀ (failedAt : ℕ → ℚ) (limit : ℕ), setup.queue.maxReceives = limit → 1 ≤ limit →
      (∀ attempt, 1 ≤ attempt → attempt ≤ limit → ∃ before move after,
        moves = before ++ move :: after ∧
        AttemptFails (run setup before) messageId attempt (failedAt attempt) move) →
      ∀ earlier maxN visibilityTimeout sweptAt now rest,
        all = earlier ++ .receive maxN visibilityTimeout sweptAt now :: rest →
        messageId ∈ (deadLettered setup.host setup.queue (queueAt earlier)
          (.receive maxN visibilityTimeout sweptAt now)).map Prod.fst →
        failedAt 1 + ∑ attempt ∈ Finset.range limit,
          min (setup.queue.visibilityTimeout * 2 ^ (((attempt + 1 : ℕ) : ℤ) - 1)) 900 ≤ sweptAt := by
  intro queueAt all
  have driven := driven_run setup moves
  refine ⟨?_, ?_⟩
  · rintro before move after attempt failedAt rfl fails past reported
    obtain ⟨handle, rest, made, report⟩ := fails.reported exactQueue exactSink after
    obtain ⟨deadline, held⟩ := report.held
    have counted := (life_recorded setup.host setup.queue past messageId).2.1 attempt
      (by rw [held]; rfl)
    refine ⟨counted.symm, fun between call tail sweptAt split movesOn => ?_⟩
    have tailed : rest = between ++ call :: tail := by
      have both := report.split.symm.trans split
      simp only [reported, made, List.append_assoc, List.singleton_append] at both
      simpa using both
    apply report.waits driven.ordered driven.port tailed
    simpa only [reported, made] using movesOn
  · intro failedAt limit atMost positive allFail earlier maxN visibilityTimeout sweptAt now rest
      split buried
    have reported : ∀ attempt, 1 ≤ attempt → attempt ≤ limit → ∃ before after handle,
        Reported setup all before after messageId handle attempt (failedAt attempt) := by
      intro attempt first last
      obtain ⟨before, move, after, shape, fails⟩ := allFail attempt first last
      obtain ⟨handle, rest, -, report⟩ := fails.reported exactQueue exactSink after
      rw [← shape] at report
      exact ⟨_, _, handle, report⟩
    obtain ⟨final, rfl⟩ : ∃ final, limit = final + 1 := ⟨limit - 1, by omega⟩
    obtain ⟨before, after, handle, report⟩ := reported (final + 1) (by omega) le_rfl
    have sum := spaced_sum reported driven.ordered driven.port (le_refl (final + 1))
    have last := report.buried driven.ordered driven.port split buried
    rw [Finset.sum_range_succ]
    simp only [backoff] at sum last
    linarith

/-- Exact arithmetic, and one consumer. -/
def exactSetup : Setup :=
  sampleSetup { arithmetic := .exact } { concurrency := 1, circuit := some { arithmetic := .exact } }

/-- The first attempt of an event fails. -/
def failedOnce : List Move :=
  [.send (sampleEvent "a"), .start, .turn 0 none 0 0 0, .heartbeat 0 0, .raised 0 0 0 0]

theorem a_first_attempt_backs_off_30_seconds :
    MovesOn exactSetup.host exactSetup.queue (reached exactSetup.host exactSetup.queue
      (calls (run exactSetup failedOnce).past)) "1" 30 (.receive 10 none 30 30) ∧
    (0 : ℚ) + min (30 * 2 ^ ((1 : ℤ) - 1)) 900 ≤ 30 := by
  refine ⟨⟨10, none, 30, rfl, .inl (by decide +kernel)⟩, ?_⟩
  refine ((failed_attempts_back_off exactSetup rfl rfl
    (failedOnce ++ [.turn 0 none 30 30 30]) "1").1
    [.send (sampleEvent "a"), .start, .turn 0 none 0 0 0, .heartbeat 0 0] (.raised 0 0 0 0)
    [.turn 0 none 30 30 30] 1 0 rfl ?_).2 [] (.receive 10 none 30 30) [] 30
    (by with_unfolding_all rfl) ⟨10, none, 30, rfl, .inl (by decide +kernel)⟩
  exact ⟨0, 0, 0, .mongodb, ⟨sampleEvent "a", "11", 1⟩, [], 0, rfl, by decide +kernel,
    by with_unfolding_all rfl, rfl, by decide +kernel⟩

end FeathrEvents.System
