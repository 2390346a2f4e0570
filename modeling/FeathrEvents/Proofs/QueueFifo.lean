/-
Module: FeathrEvents.Proofs.QueueFifo
Purpose: The visible messages of the queue are handed out in their order: every call takes from the front
  of `_visible` and puts behind what is there, so no message starves.
Trusted boundary: none
Main exports: handedOut, SweepsBehind, lend_visible, conveys_after, handedOutAfter, ServedInTurn,
  first_visible_first_delivered
-/
import Mathlib.Data.List.Perm.Subperm
import FeathrEvents.Lib.Fifo
import FeathrEvents.Proofs.QueueRepresentation

namespace FeathrEvents.InMemoryEventQueue

open Collections (OrderedDict)
open Fifo (Conveys)

/-- The ids of the messages that a call hands out, in their order: the ids that their receipts lead
to. -/
def handedOut (host : Host) (settings : QueueSettings) (queue : InMemoryEventQueue)
    (call : QueueCall) : List String :=
  match (queue.perform host settings call).1 with
  | .error _ => []
  | .ok messages => messages.filterMap fun message =>
      (queue.after host settings call).inflight.get? message.receiptHandle

variable {host : Host} {settings : QueueSettings} {queue : InMemoryEventQueue}

/-! ### Sweeping -/

/-- One turn of the sweep puts the message of its loan behind, or nothing. -/
theorem sweepOne_visible (host : Host) (settings : QueueSettings) (handle : String)
    (queue : InMemoryEventQueue) :
    ∃ returned, (queue.sweepOne host settings handle).2.visible = queue.visible ++ returned ∧
      (∀ messageId ∈ returned, queue.inflight.get? handle = some messageId) ∧
      ∀ other messageId,
        (queue.sweepOne host settings handle).2.inflight.get? other = some messageId →
        queue.inflight.get? other = some messageId := by
  unfold sweepOne
  split
  · exact ⟨[], by simp⟩
  · rename_i messageId lent
    split
    · exact ⟨[], by simp, by simp, by simp⟩
    · dsimp only
      split
      · split
        · exact ⟨[], by simp [release], by simp, by simp [release]⟩
        · exact ⟨[], by simp [release, bury], by simp, by simp [release, bury]⟩
      · exact ⟨[messageId], by simp [release], by simp [lent], by simp [release]⟩

theorem sweepLoop_visible (host : Host) (settings : QueueSettings) (handles : List String)
    (queue : InMemoryEventQueue) :
    ∃ returned, (queue.sweepLoop host settings handles).2.visible = queue.visible ++ returned ∧
      ∀ messageId ∈ returned, ∃ handle ∈ handles,
        queue.inflight.get? handle = some messageId := by
  induction handles generalizing queue with
  | nil => exact ⟨[], by simp [sweepLoop]⟩
  | cons handle handles ih =>
      obtain ⟨first, shape, loaned, kept⟩ := sweepOne_visible host settings handle queue
      simp only [sweepLoop]
      generalize queue.sweepOne host settings handle = turn at *
      obtain ⟨result, next⟩ := turn
      cases result with
      | error exn =>
          refine ⟨first, shape, fun messageId member => ?_⟩
          exact ⟨handle, List.mem_cons_self .., loaned messageId member⟩
      | ok _ =>
          obtain ⟨later, rest, loanedLater⟩ := ih next
          refine ⟨first ++ later, ?_, ?_⟩
          · rw [rest, shape, List.append_assoc]
          · intro messageId member
            rcases List.mem_append.mp member with here | there
            · exact ⟨handle, List.mem_cons_self .., loaned messageId here⟩
            · obtain ⟨other, listed, lent⟩ := loanedLater messageId there
              exact ⟨other, List.mem_cons_of_mem _ listed, kept other messageId lent⟩

/-- A sweep puts messages whose loans are over behind everything that is visible.  So a message that
waits is not overtaken by those that come back. -/
def SweepsBehind (host : Host) (settings : QueueSettings) (queue : InMemoryEventQueue) : Prop :=
  ∀ now, ∃ returned,
    (queue.sweep host settings now).2.visible = queue.visible ++ returned ∧
      ∀ messageId ∈ returned, ∃ handle entry,
        queue.inflight.get? handle = some messageId ∧
        queue.entries.get? messageId = some entry ∧ entry.deadline ≤ now

theorem sweep_visible (settings : QueueSettings) (linked : Linked host queue) :
    SweepsBehind host settings queue := by
  intro now
  obtain ⟨handles, scanned, -, due⟩ := expired_eq linked now
  obtain ⟨returned, shape, loaned⟩ := sweepLoop_visible host settings handles queue
  simp only [sweep, scanned]
  refine ⟨returned, shape, fun messageId member => ?_⟩
  obtain ⟨handle, listed, lent⟩ := loaned messageId member
  obtain ⟨target, entry, found, stored, past⟩ := (due handle).mp listed
  rw [lent, Option.some.injEq] at found
  subst found
  exact ⟨handle, entry, lent, stored, past⟩

/-! ### Lending -/

theorem lendOne_visible (host : Host) (deadline : ℚ) (messageId : String)
    (queue : InMemoryEventQueue) :
    (queue.lendOne host deadline messageId).1.messageId = messageId ∧
      (queue.lendOne host deadline messageId).2.visible = queue.visible := by
  unfold lendOne
  split <;> exact ⟨rfl, rfl⟩

/-- The loop pops ids from the front, and the others stay as they are. -/
theorem lend_visible (host : Host) (deadline : ℚ) (maxN : ℤ) {waiting : List String} (taken : ℕ)
    {queue : InMemoryEventQueue} (shape : queue.visible = waiting) :
    (queue.lend host deadline maxN waiting taken).1.map Popped.messageId ++
      (queue.lend host deadline maxN waiting taken).2.visible = waiting := by
  induction waiting generalizing queue taken with
  | nil => simpa [lend] using shape
  | cons messageId waiting ih =>
      simp only [lend]
      split
      · obtain ⟨popped, stays⟩ :=
          lendOne_visible host deadline messageId { queue with visible := waiting }
        rw [List.map_cons, List.cons_append, popped, ih _ stays]
      · simpa using shape

/-- The receipts of lent messages lead to the ids that were popped. -/
theorem filterMap_lent (owner : String → Option String) {popped : List Popped}
    (owned : ∀ turn ∈ popped, ∃ messageId message, turn = .lent messageId message ∧
      owner message.receiptHandle = some messageId) :
    (popped.filterMap Popped.message?).filterMap (fun message => owner message.receiptHandle) =
      popped.map Popped.messageId := by
  induction popped with
  | nil => rfl
  | cons turn popped ih =>
      obtain ⟨messageId, message, rfl, led⟩ := owned turn (List.mem_cons_self ..)
      have rest := ih fun later member => owned later (List.mem_cons_of_mem _ member)
      simp only [List.filterMap_cons, Popped.message?, led, rest, List.map_cons, Popped.messageId]

/-! ### Every call -/

/-- A method that returns nothing hands out nothing. -/
theorem handedOut_of_unit {call : QueueCall} {result : Except Exn Unit}
    (shape : (queue.perform host settings call).1 = result.map fun _ => []) :
    handedOut host settings queue call = [] := by
  rw [handedOut, shape]
  cases result <;> rfl

theorem conveys_receive (settings : QueueSettings) (linked : Linked host queue) (maxN : ℤ)
    (visibilityTimeout : Option ℚ) (sweptAt now : ℚ) :
    Conveys queue.visible
      (handedOut host settings queue (.receive maxN visibilityTimeout sweptAt now))
      (queue.after host settings (.receive maxN visibilityTimeout sweptAt now)).visible := by
  obtain ⟨returned, behind, -⟩ := sweep_visible settings linked sweptAt
  have sweptLinks := (sweep_place settings linked sweptAt).1
  rcases receive_cases settings linked maxN visibilityTimeout sweptAt now with
    ⟨eventId, -, shape⟩ | ⟨swept, done, shape⟩
  · refine ⟨returned, ?_⟩
    simp only [handedOut, after, perform, shape, List.nil_append, behind]
  · rw [done] at behind sweptLinks
    obtain ⟨linkedAfter, -, -, turns, -⟩ := lend_place sweptLinks
      (now + visibilityTimeout.getD settings.visibilityTimeout) maxN rfl 0
    have fronts := lend_visible host (now + visibilityTimeout.getD settings.visibilityTimeout) maxN
      0 (rfl : swept.visible = swept.visible)
    refine ⟨returned, ?_⟩
    simp only [handedOut, after, perform, shape]
    rw [filterMap_lent, fronts, behind]
    intro turn member
    obtain ⟨messageId, message, lent, held⟩ := turns turn member
    exact ⟨messageId, message, lent, linkedAfter.inflight_iff.mpr ⟨_, _, held⟩⟩

/-- Every call but `clear` takes from the front of the line and puts behind it. -/
theorem conveys_after (settings : QueueSettings) (linked : Linked host queue) {call : QueueCall}
    (kept : call ≠ .clear) :
    Conveys queue.visible (handedOut host settings queue call)
      (queue.after host settings call).visible := by
  cases call with
  | send event =>
      have quiet : handedOut host settings queue (.send event) = [] :=
        handedOut_of_unit rfl
      rw [quiet]
      rcases send_cases host settings queue event with ⟨-, same, -⟩ | ⟨-, shape⟩
      · exact ⟨[], by simp [after, perform, same]⟩
      · exact ⟨[host.uuid4 queue.minted], by simp [after, perform, shape]⟩
  | receive maxN visibilityTimeout sweptAt now =>
      exact conveys_receive settings linked maxN visibilityTimeout sweptAt now
  | delete handle =>
      have quiet : handedOut host settings queue (.delete handle) = [] :=
        handedOut_of_unit rfl
      rw [quiet]
      refine ⟨[], ?_⟩
      simp only [after, perform, delete]
      split <;> simp
  | changeVisibility handle seconds now =>
      have quiet : handedOut host settings queue (.changeVisibility handle seconds now) = [] :=
        handedOut_of_unit rfl
      rw [quiet]
      refine ⟨[], ?_⟩
      simp only [after, perform, changeVisibility, setDeadline]
      split
      · simp
      · split <;> simp
  | fail handle now =>
      have quiet : handedOut host settings queue (.fail handle now) = [] :=
        handedOut_of_unit rfl
      rw [quiet]
      refine ⟨[], ?_⟩
      simp only [after, perform, InMemoryEventQueue.fail, setDeadline]
      split
      · simp
      · split
        · simp
        · split <;> simp
  | clear => exact absurd rfl kept

/-! ### Runs -/

theorem visible_le_size (linked : Linked host queue) :
    queue.visible.length ≤ queue.entries.size := by
  have among : queue.visible ⊆ queue.entries.keys := by
    intro messageId member
    obtain ⟨entry, stored, -⟩ := linked.visibleEntry messageId member
    exact OrderedDict.mem_keys.mpr ⟨entry, stored⟩
  have fewer := (linked.visibleNodup.subperm among).length_le
  simpa [OrderedDict.keys, OrderedDict.size] using fewer

/-- Everything that the later calls hand out, after the earlier ones. -/
def handedOutAfter (host : Host) (settings : QueueSettings) (before later : List QueueCall) :
    List String :=
  Fifo.handedOut (after host settings) (handedOut host settings) (reached host settings before)
    later

theorem conveys_reached (host : Host) (settings : QueueSettings) (before : List QueueCall)
    {later : List QueueCall} (kept : ∀ call ∈ later, call ≠ .clear) :
    Conveys (reached host settings before).visible (handedOutAfter host settings before later)
      (reached host settings (before ++ later)).visible := by
  have split : reached host settings (before ++ later) =
      Machine.run (after host settings) (reached host settings before) later :=
    Machine.run_append ..
  rw [split]
  apply Fifo.conveys_run
  rintro ⟨queue, call⟩ member
  obtain ⟨first, second, shape, here⟩ := Machine.mem_visits_split _ member
  dsimp only at here
  have linked : Linked host queue := by
    rw [here, reached, ← Machine.run_append]
    exact linked_reached host settings (before ++ first)
  apply conveys_after settings linked
  apply kept
  rw [shape]
  simp

/-- The message with these ids ahead of it is served in its turn by the later calls, so that neither
new messages nor those that come back make it starve. -/
structure ServedInTurn (host : Host) (settings : QueueSettings) (before later : List QueueCall)
    (ahead : List String) (messageId : String) : Prop where
  /-- The ids ahead of it are being handed out in their order, and it is still visible behind the rest
  of them, or they were all handed out and it was the next one. -/
  inTurn : (∃ rest more, ahead = handedOutAfter host settings before later ++ rest ∧
      (reached host settings (before ++ later)).visible = rest ++ messageId :: more) ∨
    ahead ++ [messageId] <+: handedOutAfter host settings before later
  /-- Fewer ids are ahead of it than the bound, so that many deliveries reach it. -/
  few : ahead.length < settings.maxsize
  soon : settings.maxsize ≤ (handedOutAfter host settings before later).length →
    messageId ∈ (handedOutAfter host settings before later).take settings.maxsize

theorem servedInTurn (host : Host) (settings : QueueSettings) (before : List QueueCall)
    {later : List QueueCall} (kept : ∀ call ∈ later, call ≠ .clear) {ahead behind : List String}
    {messageId : String}
    (waits : (reached host settings before).visible = ahead ++ messageId :: behind) :
    ServedInTurn host settings before later ahead messageId := by
  have conveys := conveys_reached host settings before kept
  rw [waits] at conveys
  have turns := Fifo.in_turn conveys
  have few : ahead.length < settings.maxsize := by
    have waiting := visible_le_size (linked_reached host settings before)
    have bounded := @size_reached host settings before
    rw [waits, List.length_append, List.length_cons] at waiting
    omega
  refine ⟨turns, few, fun enough => ?_⟩
  rcases turns with ⟨rest, more, all, -⟩ | ⟨more, shape⟩
  · have short := congrArg List.length all
    rw [List.length_append] at short
    omega
  · have served : ahead ++ [messageId] <+:
        (handedOutAfter host settings before later).take settings.maxsize := by
      rw [List.prefix_take_iff, List.length_append, List.length_singleton]
      exact ⟨⟨more, shape⟩, few⟩
    exact served.subset (by simp)

/-- Messages are delivered in the order in which they become visible: whatever the later calls are,
short of `clear`, the ids ahead of a message are handed out before it, and it is among the next
`maxsize` that are. -/
theorem first_visible_first_delivered (host : Host) (settings : QueueSettings)
    (before later : List QueueCall) (kept : ∀ call ∈ later, call ≠ .clear)
    (ahead behind : List String) (messageId : String)
    (waits : (reached host settings before).visible = ahead ++ messageId :: behind) :
    ServedInTurn host settings before later ahead messageId ∧
      SweepsBehind host settings (reached host settings before) :=
  ⟨servedInTurn host settings before kept waits,
    sweep_visible settings (linked_reached host settings before)⟩

/-- Two events are sent, and a third one while they are being received one at a time. -/
def twoWaiting : List QueueCall := [.send (sampleEvent "a"), .send (sampleEvent "b")]

def threeTurns : List QueueCall :=
  [.receive 1 none 0 0, .send (sampleEvent "c"), .receive 1 none 1 1, .receive 1 none 40 40]

theorem first_visible_first_delivered_two :
    (reached (countingHost fun _ => none) {} twoWaiting).visible = ["1", "11"] ∧
      ServedInTurn (countingHost fun _ => none) {} twoWaiting threeTurns ["1"] "11" ∧
      SweepsBehind (countingHost fun _ => none) {}
        (reached (countingHost fun _ => none) {} twoWaiting) :=
  ⟨by decide, first_visible_first_delivered (countingHost fun _ => none) {} twoWaiting threeTurns
    (by simp [threeTurns]) ["1"] [] "11" (by decide)⟩

end FeathrEvents.InMemoryEventQueue
