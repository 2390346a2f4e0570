/-
Module: FeathrEvents.App.Circuit
Purpose: `SinkCircuit` as the code computes it, with the clock readings of each method as arguments.
Trusted boundary: translation by hand of `SinkCircuit` in `app/worker.py`
Main exports: CircuitSettings, SinkCircuit, allowance, abandonProbe, recordSuccess, recordFailure
-/
import Mathlib.Data.Finset.Insert
import Mathlib.Data.Finset.Card
import FeathrEvents.App.Host

namespace FeathrEvents

/-- The keyword arguments of `SinkCircuit.__init__`, the clock apart. -/
structure CircuitSettings where
  threshold : ℤ := 3
  pause : ℚ := 5
  maxPause : ℚ := 30
  arithmetic : Arithmetic := .float

/-- Whether the stores are answering, and therefore whether to pull more work. -/
structure SinkCircuit where
  failures : Finset String
  openUntil : Option ℚ
  pauses : ℕ
  probing : Bool

namespace SinkCircuit

/-- A fresh circuit: closed. -/
def create : SinkCircuit where
  failures := ∅
  openUntil := none
  pauses := 0
  probing := false

def isOpen (circuit : SinkCircuit) : Bool := circuit.openUntil.isSome

def secondsRemaining (now : ℚ) (circuit : SinkCircuit) : ℚ :=
  match circuit.openUntil with
  | none => 0
  | some openUntil => max 0 (openUntil - now)

/-- How many messages a consumer may take now; `0` means wait. -/
def allowance (batchSize : ℤ) (now : ℚ) (circuit : SinkCircuit) : ℤ × SinkCircuit :=
  match circuit.openUntil with
  | none => (batchSize, circuit)
  | some openUntil =>
      if now < openUntil ∨ circuit.probing then (0, circuit)
      else (1, { circuit with probing := true })

def abandonProbe (circuit : SinkCircuit) : SinkCircuit := { circuit with probing := false }

def recordSuccess (_ : SinkCircuit) : SinkCircuit where
  failures := ∅
  openUntil := none
  probing := false
  pauses := 0

/-- A pause is running at `now`, so a failure is a straggler from before it. -/
def Paused (now : ℚ) (circuit : SinkCircuit) : Prop :=
  ∃ openUntil, circuit.openUntil = some openUntil ∧ now < openUntil

instance (now : ℚ) (circuit : SinkCircuit) : Decidable (circuit.Paused now) :=
  match shape : circuit.openUntil with
  | none => .isFalse (by simp [Paused, shape])
  | some openUntil =>
      if early : now < openUntil then .isTrue ⟨openUntil, shape, early⟩
      else .isFalse (by simpa [Paused, shape] using early)

/-- The delay of the `pauses`-th pause. -/
def delay (settings : CircuitSettings) (pauses : ℕ) : Except Exn ℚ :=
  (timesPowerOfTwo settings.arithmetic settings.pause ((pauses : ℤ) - 1)).map
    (min · settings.maxPause)

/-- `record_failure`, with the reading of its guard and the one that starts the pause.  The counter is
bumped before the delay is computed, so it stays bumped when the product overflows. -/
def recordFailure (settings : CircuitSettings) (eventId : String) (checkedAt openedAt : ℚ)
    (circuit : SinkCircuit) : Except Exn Unit × SinkCircuit :=
  let circuit := { circuit with probing := false, failures := insert eventId circuit.failures }
  if circuit.Paused checkedAt then (.ok (), circuit)
  else if (circuit.failures.card : ℤ) < settings.threshold then (.ok (), circuit)
  else
    let circuit := { circuit with pauses := circuit.pauses + 1 }
    match delay settings circuit.pauses with
    | .error exn => (.error exn, circuit)
    | .ok delay => (.ok (), { circuit with openUntil := some (openedAt + delay) })

end SinkCircuit

end FeathrEvents
