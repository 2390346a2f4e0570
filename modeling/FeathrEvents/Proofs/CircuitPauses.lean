/-
Module: FeathrEvents.Proofs.CircuitPauses
Purpose: The pauses of the sink circuit escalate once per pause and stay bounded, over every order of its
  calls under a clock that does not go back.
Trusted boundary: none
Main exports: CircuitCall.readings, Chronological, Escalates, escalations, next_cases, pauses_run,
  deadline_near, deadline_grows, EscalatesOncePerPause, pauses_escalate_once_per_pause
-/
import Mathlib.Tactic.Linarith
import FeathrEvents.Proofs.CircuitRuns

namespace FeathrEvents

/-- The clock readings that a call may make, in their order. -/
def CircuitCall.readings : CircuitCall → List ℚ
  | .allowance _ now => [now]
  | .recordFailure _ checkedAt openedAt => [checkedAt, openedAt]
  | _ => []

namespace SinkCircuit

/-- The clock does not go back over the calls, and then shows this time.  A report of a failure
reads it twice. -/
def Chronological (calls : List CircuitCall) (now : ℚ) : Prop :=
  (calls.flatMap CircuitCall.readings ++ [now]).Pairwise (· ≤ ·)

/-- The call starts another pause. -/
def Escalates (settings : CircuitSettings) (circuit : SinkCircuit) (call : CircuitCall) : Prop :=
  circuit.pauses < (circuit.next settings call).pauses

instance (settings : CircuitSettings) (circuit : SinkCircuit) (call : CircuitCall) :
    Decidable (Escalates settings circuit call) :=
  inferInstanceAs (Decidable (_ < _))

/-- How many escalations there were since the last success, or since the creation. -/
def escalations (settings : CircuitSettings) (calls : List CircuitCall) : ℕ :=
  ((Machine.visits (next settings) create calls).rtakeWhile (·.2 ≠ .recordSuccess)).countP
    fun visit => Escalates settings visit.1 visit.2

/-- The length of the `n`-th pause in a row. -/
def pauseLength (settings : CircuitSettings) (n : ℕ) : ℚ :=
  min (settings.pause * 2 ^ (n - 1)) settings.maxPause

variable {settings : CircuitSettings} {circuit : SinkCircuit}

/-! ### One call -/

theorem delay_exact (exact : settings.arithmetic = .exact) (pauses : ℕ) :
    delay settings (pauses + 1) = .ok (pauseLength settings (pauses + 1)) := by
  have exponent : (((pauses + 1 : ℕ) : ℤ) - 1) = (pauses : ℤ) := by omega
  simp only [delay, timesPowerOfTwo, exact, exponent, zpow_natCast, Except.map, pauseLength,
    Nat.add_sub_cancel]

theorem pauseLength_pos (pausing : 0 < settings.pause) (capped : 0 < settings.maxPause) (n : ℕ) :
    0 < pauseLength settings n :=
  lt_min (mul_pos pausing (pow_pos two_pos _)) capped

theorem pauseLength_le (settings : CircuitSettings) (n : ℕ) :
    pauseLength settings n ≤ settings.maxPause :=
  min_le_right ..

/-- A failure starts another pause exactly when none is running and enough events have failed; any other
one leaves the deadline and the counter of pauses alone. -/
theorem failure_cases (exact : settings.arithmetic = .exact) (circuit : SinkCircuit)
    (eventId : String) (checkedAt openedAt : ℚ) :
    (Escalates settings circuit (.recordFailure eventId checkedAt openedAt) ∧
      ¬ circuit.Paused checkedAt ∧
      (circuit.next settings (.recordFailure eventId checkedAt openedAt)).pauses =
        circuit.pauses + 1 ∧
      (circuit.next settings (.recordFailure eventId checkedAt openedAt)).openUntil =
        some (openedAt + pauseLength settings (circuit.pauses + 1))) ∨
    (¬ Escalates settings circuit (.recordFailure eventId checkedAt openedAt) ∧
      (circuit.next settings (.recordFailure eventId checkedAt openedAt)).pauses =
        circuit.pauses ∧
      (circuit.next settings (.recordFailure eventId checkedAt openedAt)).openUntil =
        circuit.openUntil) := by
  rcases System.recordFailure_cases settings eventId checkedAt openedAt circuit with
    ⟨-, shape⟩ | ⟨unpaused, -, ⟨delay, computed, shape⟩ | ⟨float, -⟩⟩
  · right
    simp only [Escalates, next, shape, lt_irrefl, not_false_eq_true, and_self]
  · left
    rw [delay_exact exact] at computed
    have same := Except.ok.inj computed
    simp only [Escalates, next, shape, same]
    exact ⟨Nat.lt_succ_self _, unpaused, trivial, trivial⟩
  · rw [exact] at float
    cases float

/-- Asking and giving up the probe move neither the deadline nor the counter. -/
theorem next_of_silent (settings : CircuitSettings) (circuit : SinkCircuit) (call : CircuitCall)
    (silent : call.failed? = none) (different : call ≠ .recordSuccess) :
    (circuit.next settings call).pauses = circuit.pauses ∧
      (circuit.next settings call).openUntil = circuit.openUntil := by
  cases call with
  | allowance batchSize now =>
      rcases System.allowance_cases batchSize now circuit with
        ⟨-, shape⟩ | ⟨openUntil, -, -, -, shape⟩ | ⟨-, shape⟩ <;> simp [next, shape]
  | abandonProbe => exact ⟨rfl, rfl⟩
  | recordSuccess => exact absurd rfl different
  | recordFailure eventId checkedAt openedAt => cases silent

/-- A failure that is reported while a pause runs changes neither its deadline nor the counter. -/
theorem next_of_paused (settings : CircuitSettings) (eventId : String) {checkedAt : ℚ}
    (openedAt : ℚ) (paused : circuit.Paused checkedAt) :
    (circuit.next settings (.recordFailure eventId checkedAt openedAt)).pauses = circuit.pauses ∧
      (circuit.next settings (.recordFailure eventId checkedAt openedAt)).openUntil =
        circuit.openUntil := by
  rcases System.recordFailure_cases settings eventId checkedAt openedAt circuit with
    ⟨-, shape⟩ | ⟨unpaused, -⟩
  · simp only [next, shape, and_self]
  · exact absurd paused unpaused

/-- What a call can do to the deadline and the counter of pauses. -/
theorem next_cases (exact : settings.arithmetic = .exact) (circuit : SinkCircuit)
    (call : CircuitCall) :
    (call = .recordSuccess ∧ (circuit.next settings call).pauses = 0 ∧
      (circuit.next settings call).openUntil = none) ∨
    (∃ eventId checkedAt openedAt, call = .recordFailure eventId checkedAt openedAt ∧
      Escalates settings circuit call ∧ ¬ circuit.Paused checkedAt ∧
      (circuit.next settings call).pauses = circuit.pauses + 1 ∧
      (circuit.next settings call).openUntil =
        some (openedAt + pauseLength settings (circuit.pauses + 1))) ∨
    (call ≠ .recordSuccess ∧ ¬ Escalates settings circuit call ∧
      (circuit.next settings call).pauses = circuit.pauses ∧
      (circuit.next settings call).openUntil = circuit.openUntil) := by
  cases call with
  | recordSuccess => exact .inl ⟨rfl, rfl, rfl⟩
  | allowance batchSize now =>
      have kept := next_of_silent settings circuit (.allowance batchSize now) rfl (by simp)
      exact .inr (.inr ⟨by simp, by simp [Escalates, kept.1], kept⟩)
  | abandonProbe => exact .inr (.inr ⟨by simp, by simp [Escalates, next, abandonProbe], rfl, rfl⟩)
  | recordFailure eventId checkedAt openedAt =>
      rcases failure_cases exact circuit eventId checkedAt openedAt with started | kept
      · exact .inr (.inl ⟨eventId, checkedAt, openedAt, rfl, started⟩)
      · exact .inr (.inr ⟨by simp, kept⟩)

/-! ### Counting escalations -/

@[simp] theorem escalations_nil (settings : CircuitSettings) : escalations settings [] = 0 := rfl

theorem escalations_success (settings : CircuitSettings) (calls : List CircuitCall) :
    escalations settings (calls ++ [.recordSuccess]) = 0 := by
  rw [escalations, Machine.visits_snoc, List.rtakeWhile_concat_neg _ _ _ (by simp)]
  rfl

theorem escalations_snoc (settings : CircuitSettings) (calls : List CircuitCall)
    (call : CircuitCall) (different : call ≠ .recordSuccess) :
    escalations settings (calls ++ [call]) = escalations settings calls +
      if Escalates settings (run settings calls) call then 1 else 0 := by
  rw [escalations, Machine.visits_snoc,
    List.rtakeWhile_concat_pos _ _ _ (by simpa using different), List.countP_append,
    List.countP_singleton]
  simp only [decide_eq_true_eq]
  rfl

/-- The counter of pauses counts the escalations since the last success.  The exponent of the next
pause is read off it. -/
theorem pauses_run (exact : settings.arithmetic = .exact) (calls : List CircuitCall) :
    (run settings calls).pauses = escalations settings calls := by
  induction calls using List.reverseRecOn with
  | nil => rfl
  | append_singleton calls call ih =>
      rw [run_snoc]
      rcases next_cases exact (run settings calls) call with
        ⟨rfl, reset, -⟩ | ⟨eventId, checkedAt, openedAt, rfl, starts, -, counted, -⟩ |
          ⟨different, quiet, kept, -⟩
      · rw [reset, escalations_success]
      · rw [counted, ih, escalations_snoc settings calls (.recordFailure eventId checkedAt openedAt) nofun,
          if_pos starts]
      · rw [kept, ih, escalations_snoc settings calls call different, if_neg quiet, Nat.add_zero]

/-! ### The clock -/

theorem Chronological.of_snoc {calls : List CircuitCall} {call : CircuitCall} {now : ℚ}
    (ordered : Chronological (calls ++ [call]) now) : Chronological calls now := by
  have parts : (calls.flatMap CircuitCall.readings ++ (call.readings ++ [now])).Pairwise (· ≤ ·) := by
    simpa [Chronological] using ordered
  exact List.Pairwise.sublist (List.Sublist.append_left (List.sublist_append_right ..) _) parts

theorem Chronological.le {calls : List CircuitCall} {now reading : ℚ}
    (ordered : Chronological calls now) (read : reading ∈ calls.flatMap CircuitCall.readings) :
    reading ≤ now :=
  (List.pairwise_append.mp ordered).2.2 reading read now (List.mem_singleton_self _)

theorem Chronological.prefix {earlier later : List CircuitCall} {call : CircuitCall}
    {now reading : ℚ} (ordered : Chronological (earlier ++ call :: later) now)
    (read : reading ∈ call.readings) : Chronological earlier reading := by
  refine List.Pairwise.sublist ?_ ordered
  simp only [List.flatMap_append, List.flatMap_cons, List.append_assoc]
  apply List.Sublist.append_left
  exact (List.singleton_sublist.mpr read).trans (List.sublist_append_left _ _)

/-- The two readings of a report are in order. -/
theorem Chronological.of_report {earlier later : List CircuitCall} {eventId : String}
    {checkedAt openedAt now : ℚ}
    (ordered : Chronological (earlier ++ .recordFailure eventId checkedAt openedAt :: later) now) :
    checkedAt ≤ openedAt := by
  have pair : [checkedAt, openedAt].Pairwise (· ≤ ·) := by
    refine List.Pairwise.sublist ?_ ordered
    simp only [List.flatMap_append, List.flatMap_cons, List.append_assoc, CircuitCall.readings]
    exact (List.sublist_append_left _ _).trans (List.sublist_append_right _ _)
  simpa using pair

/-- The deadline of a pause lies at most one longest pause ahead. -/
theorem deadline_near (exact : settings.arithmetic = .exact) (calls : List CircuitCall) {now : ℚ}
    (ordered : Chronological calls now) {openUntil : ℚ}
    (pausing : (run settings calls).openUntil = some openUntil) :
    openUntil ≤ now + settings.maxPause := by
  induction calls using List.reverseRecOn with
  | nil => cases pausing
  | append_singleton calls call ih =>
      rw [run_snoc] at pausing
      rcases next_cases exact (run settings calls) call with
        ⟨-, -, closed⟩ | ⟨eventId, checkedAt, openedAt, rfl, -, -, -, opened⟩ | ⟨-, -, -, kept⟩
      · simp [closed] at pausing
      · have read : openedAt ≤ now := by
          apply ordered.le
          simp [CircuitCall.readings]
        have short := pauseLength_le settings ((run settings calls).pauses + 1)
        rw [opened, Option.some.injEq] at pausing
        linarith
      · rw [kept] at pausing
        exact ih ordered.of_snoc pausing

/-- What a pause leaves to wait. -/
theorem secondsRemaining_of_near {now : ℚ} (capped : 0 < settings.maxPause)
    (near : ∀ {openUntil}, circuit.openUntil = some openUntil →
      openUntil ≤ now + settings.maxPause) :
    0 ≤ circuit.secondsRemaining now ∧ circuit.secondsRemaining now ≤ settings.maxPause := by
  cases shape : circuit.openUntil with
  | none => simp [SinkCircuit.secondsRemaining, shape, capped.le]
  | some openUntil =>
      have close := near shape
      simp only [SinkCircuit.secondsRemaining, shape]
      constructor
      · exact le_max_left ..
      · exact max_le capped.le (by linarith)

/-! ### Pauses in a row -/

/-- The deadline only moves on until a success: a pause is not started before the last one is over. -/
theorem deadline_grows (exact : settings.arithmetic = .exact) (pausing : 0 < settings.pause)
    (capped : 0 < settings.maxPause) {earlier between : List CircuitCall} {openUntil now : ℚ}
    (paused : (run settings earlier).openUntil = some openUntil)
    (failing : ∀ call ∈ between, call ≠ .recordSuccess)
    (ordered : Chronological (earlier ++ between) now) :
    ∃ deadline, (run settings (earlier ++ between)).openUntil = some deadline ∧
      openUntil ≤ deadline := by
  induction between using List.reverseRecOn generalizing now with
  | nil => exact ⟨openUntil, by simpa using paused, le_refl _⟩
  | append_singleton between call ih =>
      rw [← List.append_assoc] at ordered ⊢
      rw [run_snoc]
      obtain ⟨deadline, reached, later⟩ :=
        ih (fun other member => failing other (List.mem_append_left _ member)) ordered.of_snoc
      rcases next_cases exact (run settings (earlier ++ between)) call with
        ⟨rfl, -⟩ | ⟨eventId, checkedAt, openedAt, rfl, -, unpaused, -, opened⟩ | ⟨-, -, -, kept⟩
      · exact absurd rfl (failing .recordSuccess (by simp))
      · have expired : deadline ≤ checkedAt := by
          by_contra early
          exact unpaused ⟨deadline, reached, not_le.mp early⟩
        have read : checkedAt ≤ openedAt := ordered.of_report
        have long := pauseLength_pos pausing capped
          ((run settings (earlier ++ between)).pauses + 1)
        exact ⟨_, opened, by linarith⟩
      · exact ⟨deadline, by rw [kept, reached], later⟩

/-- No escalation among the later calls comes before this deadline, unless a success came first.  A
success starts the count again. -/
def FollowedLater (settings : CircuitSettings) (earlier later : List CircuitCall)
    (openUntil : ℚ) : Prop :=
  ∀ between eventId checkedAt openedAt rest,
    later = between ++ .recordFailure eventId checkedAt openedAt :: rest →
    (∀ call ∈ between, call ≠ .recordSuccess) →
    Escalates settings (run settings (earlier ++ between))
      (.recordFailure eventId checkedAt openedAt) →
    openUntil ≤ checkedAt ∧ openUntil ≤ openedAt

theorem followedLater (exact : settings.arithmetic = .exact) (pausing : 0 < settings.pause)
    (capped : 0 < settings.maxPause) {earlier later : List CircuitCall} {openUntil now : ℚ}
    (paused : (run settings earlier).openUntil = some openUntil)
    (ordered : Chronological (earlier ++ later) now) :
    FollowedLater settings earlier later openUntil := by
  rintro between eventId checkedAt openedAt rest rfl failing escalates
  rw [← List.append_assoc] at ordered
  have before : Chronological (earlier ++ between) checkedAt :=
    ordered.prefix (by simp [CircuitCall.readings])
  obtain ⟨deadline, reached, later⟩ := deadline_grows exact pausing capped paused failing before
  have unpaused : ¬ (run settings (earlier ++ between)).Paused checkedAt := by
    rcases failure_cases exact (run settings (earlier ++ between)) eventId checkedAt openedAt with
      ⟨-, unpaused, -⟩ | ⟨quiet, -⟩
    · exact unpaused
    · exact absurd escalates quiet
  have reachedLate : deadline ≤ checkedAt := by
    by_contra early
    exact unpaused ⟨deadline, reached, not_le.mp early⟩
  have read : checkedAt ≤ openedAt := ordered.of_report
  exact ⟨later.trans reachedLate, later.trans (reachedLate.trans read)⟩

/-- Every escalation sets the deadline by its number since the last success, and the next one comes after
it; a report during a pause changes nothing, and the wait is never longer than the longest pause. -/
structure EscalatesOncePerPause (settings : CircuitSettings) (calls : List CircuitCall) (now : ℚ) :
    Prop where
  escalation : ∀ earlier call later, calls = earlier ++ call :: later →
    Escalates settings (run settings earlier) call →
    ∃ eventId checkedAt openedAt, call = .recordFailure eventId checkedAt openedAt ∧
      (run settings (earlier ++ [call])).openUntil =
        some (openedAt + pauseLength settings (escalations settings (earlier ++ [call]))) ∧
      FollowedLater settings (earlier ++ [call]) later
        (openedAt + pauseLength settings (escalations settings (earlier ++ [call])))
  straggler : ∀ earlier eventId checkedAt openedAt later,
    calls = earlier ++ .recordFailure eventId checkedAt openedAt :: later →
    (run settings earlier).Paused checkedAt →
    (run settings (earlier ++ [.recordFailure eventId checkedAt openedAt])).openUntil =
        (run settings earlier).openUntil ∧
      (run settings (earlier ++ [.recordFailure eventId checkedAt openedAt])).pauses =
        (run settings earlier).pauses
  waiting : 0 ≤ (run settings calls).secondsRemaining now ∧
    (run settings calls).secondsRemaining now ≤ settings.maxPause

/-- Pauses escalate once per pause, in every sequence of calls whose clock does not go back: a burst
of failures that were under way when the circuit opened counts as one, and only a failed probe makes
the next pause longer. -/
theorem pauses_escalate_once_per_pause (settings : CircuitSettings)
    (exact : settings.arithmetic = .exact) (pausing : 0 < settings.pause)
    (capped : 0 < settings.maxPause) (calls : List CircuitCall) (now : ℚ)
    (ordered : Chronological calls now) : EscalatesOncePerPause settings calls now where
  escalation := by
    rintro earlier call later rfl escalates
    have counted := pauses_run exact (earlier ++ [call])
    rcases next_cases exact (run settings earlier) call with
      ⟨rfl, reset, -⟩ | ⟨eventId, checkedAt, openedAt, rfl, -, -, grown, opened⟩ | ⟨-, quiet, -⟩
    · rw [Escalates, reset] at escalates
      cases escalates
    · rw [← run_snoc] at grown opened
      rw [← grown, counted] at opened
      refine ⟨eventId, checkedAt, openedAt, rfl, opened, ?_⟩
      apply followedLater exact pausing capped opened
      simpa using ordered
    · exact absurd escalates quiet
  straggler := by
    rintro earlier eventId checkedAt openedAt later rfl paused
    have kept := next_of_paused settings eventId openedAt paused
    rw [run_snoc]
    exact ⟨kept.2, kept.1⟩
  waiting := secondsRemaining_of_near capped (deadline_near exact calls ordered)

/-- A pause of five seconds, and one of ten after it. -/
def twoPauses : List CircuitCall :=
  [.recordFailure "a" 0 0, .recordFailure "b" 1 1, .recordFailure "b" 5 6]

def fromOneFailure : CircuitSettings where
  threshold := 1
  arithmetic := .exact

theorem pauses_escalate_once_per_pause_two :
    (fromOneFailure.arithmetic = .exact ∧ 0 < fromOneFailure.pause ∧ 0 < fromOneFailure.maxPause) ∧
      Chronological twoPauses 7 ∧ EscalatesOncePerPause fromOneFailure twoPauses 7 :=
  ⟨⟨rfl, by decide +kernel, by decide +kernel⟩, by unfold Chronological; decide +kernel,
    pauses_escalate_once_per_pause fromOneFailure rfl (by decide +kernel) (by decide +kernel)
      twoPauses 7 (by unfold Chronological; decide +kernel)⟩

example : (run fromOneFailure twoPauses).openUntil = some 16 := by decide +kernel

end SinkCircuit

end FeathrEvents
