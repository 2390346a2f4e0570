/-
Module: FeathrEvents.Lib.Persisted
Purpose: A value in memory that is written to a store whenever it changes and read again after a restart:
  while the store takes every write a restart loses no more than reading back what was written does, and
  what it refuses is all that a restart loses.
Trusted boundary: none
Main exports: Persisted, Persisted.Step, Persisted.next, Persisted.mount, Persisted.Saved,
  Persisted.run_taken, Persisted.stored_of_refused
-/
import FeathrEvents.Lib.Runs

/-- The value, and what is stored of it.  The two part as soon as the store refuses a write. -/
structure Persisted (σ τ : Type*) where
  memory : σ
  stored : Option τ

namespace Persisted

variable {σ τ : Type*}

/-- The value is changed, which `none` leaves as it was, or there is a restart; `taken` says whether the
store takes what is written then. -/
inductive Step (σ : Type*) where
  | update (change : σ → Option σ) (taken : Bool)
  | restart (taken : Bool)

/-- The store takes what is written. -/
def Step.taken : Step σ → Bool
  | .update _ taken => taken
  | .restart taken => taken

variable (encode : σ → τ) (load : Option τ → σ)

/-- A new value, and the write that follows. -/
def write (taken : Bool) (value : σ) (cell : Persisted σ τ) : Persisted σ τ where
  memory := value
  stored := if taken then some (encode value) else cell.stored

def next (cell : Persisted σ τ) : Step σ → Persisted σ τ
  | .update change taken => ((change cell.memory).map (cell.write encode taken)).getD cell
  | .restart taken => cell.write encode taken (load cell.stored)

/-- What is there when it is read for the first time. -/
def mount (taken : Bool) (stored : Option τ) : Persisted σ τ :=
  write encode taken (load stored) ⟨load stored, stored⟩

/-- A step as it would be without a store, where a restart leaves what reading back leaves. -/
def ideal (restore : σ → σ) (value : σ) : Step σ → σ
  | .update change _ => (change value).getD value
  | .restart _ => restore value

/-- The value is stored. -/
def Saved (cell : Persisted σ τ) : Prop := cell.stored = some (encode cell.memory)

variable {encode load} {cell : Persisted σ τ}

theorem saved_mount (stored : Option τ) : (mount encode load true stored).Saved encode := rfl

theorem saved_next (saved : cell.Saved encode) {step : Step σ} (taken : step.taken = true) :
    (cell.next encode load step).Saved encode := by
  cases step with
  | update change flag =>
      cases taken
      cases changed : change cell.memory with
      | none =>
          simp only [next, changed, Option.map_none, Option.getD_none]
          exact saved
      | some value => simp [Saved, next, changed, write]
  | restart flag =>
      cases taken
      rfl

theorem memory_next {restore : σ → σ}
    (restores : ∀ value, load (some (encode value)) = restore value)
    (saved : cell.Saved encode) (step : Step σ) :
    (cell.next encode load step).memory = ideal restore cell.memory step := by
  cases step with
  | update change taken => cases changed : change cell.memory <;> simp [next, ideal, changed, write]
  | restart taken =>
      rw [Saved] at saved
      simp [next, ideal, write, saved, restores]

/-- While every write is taken the store is invisible. -/
theorem run_taken {restore : σ → σ} (restores : ∀ value, load (some (encode value)) = restore value)
    (saved : cell.Saved encode) {steps : List (Step σ)} (taken : ∀ step ∈ steps, step.taken = true) :
    (Machine.run (next encode load) cell steps).Saved encode ∧
      (Machine.run (next encode load) cell steps).memory = steps.foldl (ideal restore) cell.memory := by
  induction steps using List.reverseRecOn with
  | nil => exact ⟨saved, rfl⟩
  | append_singleton steps step ih =>
      obtain ⟨before, same⟩ := ih fun earlier member => taken earlier (List.mem_append_left _ member)
      rw [Machine.run_snoc, List.foldl_append, ← same]
      exact ⟨saved_next before (taken step (by simp)), memory_next restores before step⟩

/-- What the store refuses it does not have. -/
theorem stored_of_refused {steps : List (Step σ)} (refused : ∀ step ∈ steps, step.taken = false) :
    (Machine.run (next encode load) cell steps).stored = cell.stored := by
  induction steps using List.reverseRecOn with
  | nil => rfl
  | append_singleton steps step ih =>
      rw [Machine.run_snoc, ← ih fun earlier member => refused earlier (List.mem_append_left _ member)]
      have here := refused step (by simp)
      generalize Machine.run (next encode load) cell steps = cell
      cases step with
      | update change taken =>
          cases here
          cases changed : change cell.memory <;> simp [next, changed, write]
      | restart taken =>
          cases here
          rfl

end Persisted
