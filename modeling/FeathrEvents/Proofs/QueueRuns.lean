/-
Module: FeathrEvents.Proofs.QueueRuns
Purpose: Runs of a fresh queue under any sequence of calls: the links in every state reached, and the
  life of every message together with what was handed out for it.
Trusted boundary: none
Main exports: reached, history, deliveries, linked_reached, life_reached, life_recorded, gone_stays
-/
import FeathrEvents.Lib.Runs
import FeathrEvents.Proofs.QueueEffects

namespace FeathrEvents.InMemoryEventQueue

open Lease (Place Act Steps lendings)

/-- The calls made so far, each with the queue it was made on. -/
abbrev History := List (InMemoryEventQueue × QueueCall)

variable (host : Host) (settings : QueueSettings)

/-- The queue after a list of calls on a fresh one. -/
def reached (calls : List QueueCall) : InMemoryEventQueue :=
  Machine.run (after host settings) create calls

/-- The calls with the queues they were made on. -/
def history (calls : List QueueCall) : History :=
  Machine.visits (after host settings) create calls

/-- Everything handed out so far for one message, in order: a delivery is counted when `receive`
returns it, whatever becomes of it. -/
def deliveries (past : History) (messageId : String) : List Message :=
  past.flatMap fun visit => deliveredTo host settings visit.1 visit.2 messageId

variable {host settings}

@[simp] theorem reached_nil : reached host settings [] = create := rfl

@[simp] theorem reached_snoc (calls : List QueueCall) (call : QueueCall) :
    reached host settings (calls ++ [call]) =
      (reached host settings calls).after host settings call :=
  Machine.run_snoc ..

@[simp] theorem history_nil : history host settings [] = [] := rfl

@[simp] theorem history_snoc (calls : List QueueCall) (call : QueueCall) :
    history host settings (calls ++ [call]) =
      history host settings calls ++ [(reached host settings calls, call)] :=
  Machine.visits_snoc ..

@[simp] theorem deliveries_nil (messageId : String) : deliveries host settings [] messageId = [] :=
  rfl

theorem deliveries_append (first second : History) (messageId : String) :
    deliveries host settings (first ++ second) messageId =
      deliveries host settings first messageId ++ deliveries host settings second messageId :=
  List.flatMap_append

@[simp] theorem deliveries_snoc (past : History) (queue : InMemoryEventQueue) (call : QueueCall)
    (messageId : String) :
    deliveries host settings (past ++ [(queue, call)]) messageId =
      deliveries host settings past messageId ++
        deliveredTo host settings queue call messageId := by
  simp [deliveries]

/-- Every visit of a history is to the queue reached by the calls before it. -/
theorem mem_history {calls : List QueueCall} {visit : InMemoryEventQueue × QueueCall}
    (member : visit ∈ history host settings calls) :
    ∃ before later, calls = before ++ visit.2 :: later ∧ visit.1 = reached host settings before :=
  Machine.mem_visits_split (after host settings) member

theorem linked_reached (host : Host) (settings : QueueSettings) (calls : List QueueCall) :
    Linked host (reached host settings calls) :=
  Machine.run_invariant (after host settings) (Linked host) (fun _ => True) linked_create
    (fun _ call _ linked => linked_after linked call) calls fun _ _ => trivial

/-- A message's life in a run: the acts that led to its place, and what was lent on the way.
Results about leases apply to the queue through it. -/
def Life (host : Host) (settings : QueueSettings) (past : History) (queue : InMemoryEventQueue)
    (messageId : String) : Prop :=
  ∃ acts, Steps settings.maxReceives .unborn acts (place host queue messageId) ∧
    lendings acts = (deliveries host settings past messageId).map fun message =>
      (message.receiveCount, message.receiptHandle)

theorem life_reached (host : Host) (settings : QueueSettings) (calls : List QueueCall)
    (messageId : String) :
    Life host settings (history host settings calls) (reached host settings calls) messageId := by
  have initial : Life host settings [] create messageId :=
    ⟨[], by rw [place_create]; exact .refl, rfl⟩
  have both := Machine.visits_invariant (after host settings)
    (fun past queue => Linked host queue ∧ Life host settings past queue messageId)
    (fun _ => True) ⟨linked_create, initial⟩ ?_ calls fun _ _ => trivial
  · exact both.2
  · rintro past queue call - ⟨linked, acts, steps, lent⟩
    obtain ⟨more, further, lentNow⟩ := after_steps settings linked call messageId
    refine ⟨linked_after linked call, acts ++ more, steps.trans further, ?_⟩
    rw [Lease.lendings_append, lent, lentNow, deliveries_snoc, List.map_append]

/-- The deliveries of a message are numbered 1, 2, 3, …, the place of the message knows how many
there were, and a held message is held under the handle of the last one. -/
theorem life_recorded (host : Host) (settings : QueueSettings) (calls : List QueueCall)
    (messageId : String) :
    let delivered := deliveries host settings (history host settings calls) messageId
    delivered.map Message.receiveCount = List.range' 1 delivered.length ∧
      (∀ count, (place host (reached host settings calls) messageId).count? = some count →
        count = delivered.length) ∧
      (∀ count handle deadline,
        place host (reached host settings calls) messageId = .held count handle deadline →
        ∃ message, delivered.getLast? = some message ∧ message.receiveCount = count ∧
          message.receiptHandle = handle) ∧
      (place host (reached host settings calls) messageId = .unborn → delivered = []) := by
  obtain ⟨acts, steps, lent⟩ := life_reached host settings calls messageId
  obtain ⟨numbered, counted, last, unborn⟩ := steps.recorded
  simp only [lent, List.map_map, List.length_map] at numbered counted last unborn
  refine ⟨numbered, counted, fun count handle deadline held => ?_, fun place => ?_⟩
  · have final := last count handle deadline held
    rw [List.getLast?_map, Option.map_eq_some_iff] at final
    obtain ⟨message, shape, pair⟩ := final
    cases pair
    exact ⟨message, shape, rfl, rfl⟩
  · simpa using unborn place

/-- A message that is gone stays gone. -/
theorem gone_stays {before : List QueueCall} {messageId : String}
    (gone : place host (reached host settings before) messageId = .gone) (later : List QueueCall) :
    place host (reached host settings (before ++ later)) messageId = .gone := by
  have both := Machine.run_invariant (after host settings)
    (fun queue => Linked host queue ∧ place host queue messageId = .gone) (fun _ => True)
    ⟨linked_reached host settings before, gone⟩ ?_ later fun _ _ => trivial
  · rw [reached, Machine.run_append]
    exact both.2
  · rintro queue call - ⟨linked, here⟩
    obtain ⟨acts, steps, -⟩ := after_steps settings linked call messageId
    rw [here] at steps
    exact ⟨linked_after linked call, steps.gone_stays.1⟩

end FeathrEvents.InMemoryEventQueue
