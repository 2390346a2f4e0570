/-
Module: FeathrEvents.Lib.Fifo
Purpose: A machine with a waiting line whose every step hands out items from the front and puts new ones
  at the back: over any run an item is handed out after exactly those that were ahead of it.
Trusted boundary: none
Main exports: Fifo.Conveys, Fifo.conveys_run, Fifo.in_turn
-/
import FeathrEvents.Lib.Runs

namespace Fifo

variable {σ ι α : Type*} (next : σ → ι → σ) (line : σ → List α) (out : σ → ι → List α)

/-- What is handed out is what was in front of the line, and new items are behind what stays.
Nobody has pushed in. -/
def Conveys (before handedOut after : List α) : Prop :=
  ∃ arrivals, handedOut ++ after = before ++ arrivals

/-- Everything that a run hands out, in order. -/
def handedOut (state : σ) (inputs : List ι) : List α :=
  (Machine.visits next state inputs).flatMap fun visit => out visit.1 visit.2

variable {next line out}

theorem Conveys.trans {first second third one two : List α} (here : Conveys first one second)
    (later : Conveys second two third) : Conveys first (one ++ two) third := by
  obtain ⟨came, here⟩ := here
  obtain ⟨coming, later⟩ := later
  refine ⟨came ++ coming, ?_⟩
  calc one ++ two ++ third = one ++ (second ++ coming) := by rw [List.append_assoc, later]
    _ = first ++ (came ++ coming) := by rw [← List.append_assoc, here, List.append_assoc]

/-- What holds of every step holds of the run. -/
theorem conveys_run {state : σ} {inputs : List ι}
    (step : ∀ visit ∈ Machine.visits next state inputs,
      Conveys (line visit.1) (out visit.1 visit.2) (line (next visit.1 visit.2))) :
    Conveys (line state) (handedOut next out state inputs)
      (line (Machine.run next state inputs)) := by
  induction inputs generalizing state with
  | nil => exact ⟨[], (List.append_nil _).symm⟩
  | cons input inputs ih =>
      have first := step (state, input) (List.mem_cons_self ..)
      have rest := ih fun visit member => step visit (List.mem_cons_of_mem _ member)
      exact first.trans rest

/-- An item with some others ahead of it: either they are being handed out in their order and the item
is still in the line behind the rest of them, or they were all handed out and the item came next. -/
theorem in_turn {ahead behind handedOut after : List α} {item : α}
    (conveys : Conveys (ahead ++ item :: behind) handedOut after) :
    (∃ rest more, ahead = handedOut ++ rest ∧ after = rest ++ item :: more) ∨
      ahead ++ [item] <+: handedOut := by
  obtain ⟨arrivals, split⟩ := conveys
  rw [List.append_assoc, List.append_eq_append_iff] at split
  rcases split with ⟨rest, all, stays⟩ | ⟨more, some, stays⟩
  · exact .inl ⟨rest, behind ++ arrivals, all, stays⟩
  · cases more with
    | nil =>
        rw [List.append_nil] at some
        exact .inl ⟨[], behind ++ arrivals, by rw [some, List.append_nil], by simpa using stays.symm⟩
    | cons head more =>
        rw [List.cons_append, List.cons_append] at stays
        obtain ⟨rfl, -⟩ := List.cons.inj stays
        exact .inr ⟨more, by rw [some, List.append_assoc, List.singleton_append]⟩

end Fifo
