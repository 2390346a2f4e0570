/-
Module: FeathrEvents.Proofs.CircuitRuns
Purpose: Runs of the sink circuit on its own, over every order of its calls: what the evidence is that
  opens it, and what it grants while it is closed.
Trusted boundary: none
Main exports: CircuitCall, next, run, failedSince, Tracks, tracks_run, opens_on_distinct_failures
-/
import Mathlib.Data.List.DropRight
import FeathrEvents.Lib.Runs
import FeathrEvents.Proofs.WorkerMoves

namespace FeathrEvents

/-- A call of `SinkCircuit`, with the readings of its clock.  A report of a failure asks first
whether a pause is on, and reads the clock again when it opens one. -/
inductive CircuitCall where
  | allowance (batchSize : ℤ) (now : ℚ)
  | abandonProbe
  | recordSuccess
  | recordFailure (eventId : String) (checkedAt openedAt : ℚ)
deriving DecidableEq

namespace CircuitCall

/-- The event that a call reports as failed. -/
def failed? : CircuitCall → Option String
  | .recordFailure eventId _ _ => some eventId
  | _ => none

end CircuitCall

namespace SinkCircuit

/-- The circuit after a call. -/
def next (settings : CircuitSettings) (circuit : SinkCircuit) : CircuitCall → SinkCircuit
  | .allowance batchSize now => (circuit.allowance batchSize now).2
  | .abandonProbe => circuit.abandonProbe
  | .recordSuccess => circuit.recordSuccess
  | .recordFailure eventId checkedAt openedAt =>
      (circuit.recordFailure settings eventId checkedAt openedAt).2

/-- The circuit after a list of calls, from its creation on. -/
def run (settings : CircuitSettings) (calls : List CircuitCall) : SinkCircuit :=
  Machine.run (next settings) create calls

/-- The events reported as failed since the last success, or since the creation.  One event that
fails again and again is in it once. -/
def failedSince (calls : List CircuitCall) : Finset String :=
  ((calls.rtakeWhile (· ≠ .recordSuccess)).filterMap CircuitCall.failed?).toFinset

variable {settings : CircuitSettings} {circuit : SinkCircuit}

@[simp] theorem run_nil (settings : CircuitSettings) : run settings [] = create := rfl

@[simp] theorem run_snoc (settings : CircuitSettings) (calls : List CircuitCall)
    (call : CircuitCall) :
    run settings (calls ++ [call]) = next settings (run settings calls) call :=
  Machine.run_snoc ..

/-! ### The evidence -/

@[simp] theorem failedSince_nil : failedSince [] = ∅ := rfl

theorem failedSince_success (calls : List CircuitCall) :
    failedSince (calls ++ [.recordSuccess]) = ∅ := by
  rw [failedSince, List.rtakeWhile_concat_neg _ _ _ (by simp)]
  rfl

theorem failedSince_failure (calls : List CircuitCall) (eventId : String)
    (checkedAt openedAt : ℚ) :
    failedSince (calls ++ [.recordFailure eventId checkedAt openedAt]) =
      insert eventId (failedSince calls) := by
  rw [failedSince, List.rtakeWhile_concat_pos _ _ _ (by simp), List.filterMap_append,
    List.toFinset_append, Finset.union_comm]
  rfl

/-- A call that reports nothing is no evidence. -/
theorem failedSince_other (calls : List CircuitCall) (call : CircuitCall)
    (different : call ≠ .recordSuccess) (silent : call.failed? = none) :
    failedSince (calls ++ [call]) = failedSince calls := by
  rw [failedSince, List.rtakeWhile_concat_pos _ _ _ (by simpa using different),
    List.filterMap_append]
  simp [silent, failedSince]

/-! ### What the fields say -/

/-- The circuit holds the failed events, and it is open when there are enough of them.  While it is
closed no pause and no probe is left over. -/
structure Tracks (settings : CircuitSettings) (failed : Finset String) (circuit : SinkCircuit) :
    Prop where
  failures : circuit.failures = failed
  opened : circuit.isOpen = true ↔ settings.threshold ≤ failed.card
  unprobed : circuit.isOpen = false → circuit.probing = false
  unpaused : circuit.isOpen = false → circuit.pauses = 0

theorem tracks_create (enough : 1 ≤ settings.threshold) : Tracks settings ∅ create where
  failures := rfl
  opened := by
    constructor
    · intro opened
      cases opened
    · intro none
      simp only [Finset.card_empty, Nat.cast_zero] at none
      omega
  unprobed _ := rfl
  unpaused _ := rfl

theorem Tracks.allowance {failed : Finset String} (tracks : Tracks settings failed circuit)
    (batchSize : ℤ) (now : ℚ) : Tracks settings failed (circuit.allowance batchSize now).2 := by
  rcases System.allowance_cases batchSize now circuit with
    ⟨-, shape⟩ | ⟨openUntil, pausing, -, -, shape⟩ | ⟨-, shape⟩
  · rw [shape]
    exact tracks
  · rw [shape]
    have held : ¬ circuit.isOpen = false := by simp [isOpen, pausing]
    exact { failures := tracks.failures
            opened := tracks.opened
            unprobed := fun closed => absurd closed held
            unpaused := tracks.unpaused }
  · rw [shape]
    exact tracks

theorem Tracks.abandonProbe {failed : Finset String} (tracks : Tracks settings failed circuit) :
    Tracks settings failed circuit.abandonProbe where
  failures := tracks.failures
  opened := tracks.opened
  unprobed _ := rfl
  unpaused := tracks.unpaused

/-- While a pause runs the circuit is open already; after it a failure opens it when it is the one that
makes enough of them. -/
theorem Tracks.recordFailure {failed : Finset String} (tracks : Tracks settings failed circuit)
    (eventId : String) (checkedAt openedAt : ℚ) :
    Tracks settings (insert eventId failed)
      (circuit.recordFailure settings eventId checkedAt openedAt).2 := by
  have grows : failed.card ≤ (insert eventId failed).card :=
    Finset.card_le_card (Finset.subset_insert ..)
  rcases System.recordFailure_cases settings eventId checkedAt openedAt circuit with
    ⟨quiet, shape⟩ | ⟨-, enough, ⟨delay, -, shape⟩ | ⟨-, late, shape⟩⟩
  · rw [shape]
    have opened : circuit.isOpen = true ↔
        settings.threshold ≤ (insert eventId failed).card := by
      rcases quiet with ⟨openUntil, pausing, -⟩ | few
      · have held : circuit.isOpen = true := by simp [isOpen, pausing]
        have reached := tracks.opened.mp held
        exact iff_of_true held (by omega)
      · rw [tracks.failures] at few
        rw [tracks.opened]
        constructor
        · intro enough
          omega
        · intro enough
          omega
    exact { failures := by rw [tracks.failures]
            opened := opened
            unprobed := fun _ => rfl
            unpaused := tracks.unpaused }
  · rw [shape]
    rw [tracks.failures] at enough
    exact { failures := by rw [tracks.failures]
            opened := iff_of_true rfl enough
            unprobed := fun _ => rfl
            unpaused := fun closed => by simp [isOpen] at closed }
  · -- a product that overflows follows a thousand pauses, so the circuit was open before
    rw [shape]
    rw [tracks.failures] at enough
    have held : circuit.isOpen = true := by
      by_contra closed
      have fresh := tracks.unpaused (by simpa using closed)
      omega
    exact { failures := by rw [tracks.failures]
            opened := iff_of_true held enough
            unprobed := fun _ => rfl
            unpaused := fun closed => by
              rw [show circuit.isOpen = false from closed] at held
              cases held }

/-- Every call keeps the fields in step with the evidence. -/
theorem Tracks.next {calls : List CircuitCall} (enough : 1 ≤ settings.threshold)
    (tracks : Tracks settings (failedSince calls) circuit) (call : CircuitCall) :
    Tracks settings (failedSince (calls ++ [call])) (circuit.next settings call) := by
  cases call with
  | allowance batchSize now =>
      rw [failedSince_other calls (.allowance batchSize now) nofun rfl]
      exact tracks.allowance batchSize now
  | abandonProbe =>
      rw [failedSince_other calls .abandonProbe nofun rfl]
      exact tracks.abandonProbe
  | recordSuccess =>
      rw [failedSince_success]
      exact tracks_create enough
  | recordFailure eventId checkedAt openedAt =>
      rw [failedSince_failure]
      exact tracks.recordFailure eventId checkedAt openedAt

theorem tracks_run (enough : 1 ≤ settings.threshold) (calls : List CircuitCall) :
    Tracks settings (failedSince calls) (run settings calls) := by
  induction calls using List.reverseRecOn with
  | nil => exact tracks_create enough
  | append_singleton calls call ih =>
      rw [run_snoc]
      exact ih.next enough call

/-- Every consumer may take a full batch, and asking changes nothing.  This is what a closed circuit
is for those who ask it. -/
def AllowsAll (circuit : SinkCircuit) : Prop :=
  ∀ batchSize now, circuit.allowance batchSize now = (batchSize, circuit)

/-- The circuit is open exactly when enough distinct events failed since the last success; while it is
closed the probe is free and every consumer may take a full batch. -/
theorem opens_on_distinct_failures (settings : CircuitSettings) (enough : 1 ≤ settings.threshold)
    (calls : List CircuitCall) :
    ((run settings calls).isOpen = true ↔ settings.threshold ≤ (failedSince calls).card) ∧
    ((run settings calls).isOpen = false →
      (run settings calls).probing = false ∧ AllowsAll (run settings calls)) := by
  have tracks := tracks_run enough calls
  constructor
  · exact tracks.opened
  · intro closed
    constructor
    · exact tracks.unprobed closed
    · intro batchSize now
      have unpaused : (run settings calls).openUntil = none := by simpa [isOpen] using closed
      simp only [SinkCircuit.allowance, unpaused]

/-- One event that fails three times. -/
def sameEvent : List CircuitCall :=
  [.recordFailure "a" 0 0, .recordFailure "a" 1 1, .recordFailure "a" 2 2]

/-- One event that fails three times leaves a circuit with a threshold of two closed. -/
theorem opens_on_distinct_failures_same_event :
    (1 : ℤ) ≤ 2 ∧
      ((run { threshold := 2 } sameEvent).isOpen = true ↔ (2 : ℤ) ≤ (failedSince sameEvent).card) ∧
      ((run { threshold := 2 } sameEvent).isOpen = false →
        (run { threshold := 2 } sameEvent).probing = false ∧
        AllowsAll (run { threshold := 2 } sameEvent)) :=
  ⟨by decide, opens_on_distinct_failures { threshold := 2 } (by decide) sameEvent⟩

end SinkCircuit

end FeathrEvents
