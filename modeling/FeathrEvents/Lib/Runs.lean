/-
Module: FeathrEvents.Lib.Runs
Purpose: Runs of a machine that takes one input at a time: the state reached, the visits made on
  the way, and the induction rules that carry an invariant of the state, or of the state together
  with the visits, from one step to every run.
Trusted boundary: none
Main exports: Machine.run, Machine.visits, Machine.run_invariant, Machine.visits_invariant,
  Machine.filterMap_snoc, Machine.getLast?_filterMap_snoc, Machine.mem_visits_split,
  Machine.exists_visit, Machine.Leads, Machine.leads_of_measure
-/
import Mathlib.Data.List.Induction

namespace Machine

variable {σ ι : Type*} (next : σ → ι → σ)

/-- The state after a list of inputs. -/
def run (state : σ) (inputs : List ι) : σ := inputs.foldl next state

/-- The states in which the inputs of a run are taken, each with its input.  A property of a run at
every step of it is one of its visits. -/
def visits : σ → List ι → List (σ × ι)
  | _, [] => []
  | state, input :: inputs => (state, input) :: visits (next state input) inputs

@[simp] theorem run_nil (state : σ) : run next state [] = state := rfl

@[simp] theorem run_cons (state : σ) (input : ι) (inputs : List ι) :
    run next state (input :: inputs) = run next (next state input) inputs := rfl

theorem run_append (state : σ) (first second : List ι) :
    run next state (first ++ second) = run next (run next state first) second :=
  List.foldl_append

@[simp] theorem run_snoc (state : σ) (inputs : List ι) (input : ι) :
    run next state (inputs ++ [input]) = next (run next state inputs) input := by
  rw [run_append]
  rfl

@[simp] theorem visits_nil (state : σ) : visits next state [] = [] := rfl

theorem visits_append (state : σ) (first second : List ι) :
    visits next state (first ++ second) =
      visits next state first ++ visits next (run next state first) second := by
  induction first generalizing state with
  | nil => rfl
  | cons input inputs ih => simp [visits, ih]

@[simp] theorem visits_snoc (state : σ) (inputs : List ι) (input : ι) :
    visits next state (inputs ++ [input]) =
      visits next state inputs ++ [(run next state inputs, input)] := by
  rw [visits_append]
  rfl

/-- A visit splits its run: what came before leads to the visited state, what comes after starts
from the next one. -/
theorem visits_eq_append_cons {state : σ} {inputs : List ι} {before after : List (σ × ι)}
    {visit : σ × ι} (split : visits next state inputs = before ++ visit :: after) :
    ∃ first second, inputs = first ++ visit.2 :: second ∧
      before = visits next state first ∧ visit.1 = run next state first ∧
      after = visits next (next visit.1 visit.2) second := by
  induction before generalizing state inputs with
  | nil =>
      cases inputs with
      | nil => simp [visits] at split
      | cons input inputs =>
          simp only [visits, List.nil_append, List.cons.injEq] at split
          obtain ⟨rfl, rfl⟩ := split
          exact ⟨[], inputs, rfl, rfl, rfl, rfl⟩
  | cons head before ih =>
      cases inputs with
      | nil => simp [visits] at split
      | cons input inputs =>
          simp only [visits, List.cons_append, List.cons.injEq] at split
          obtain ⟨rfl, rest⟩ := split
          obtain ⟨first, second, rfl, rfl, reached, later⟩ := ih rest
          exact ⟨input :: first, second, rfl, rfl, reached, later⟩

/-- One more visit adds what it reports. -/
theorem filterMap_snoc {α β : Type*} (report : α → Option β) (past : List α) (visit : α) :
    (past ++ [visit]).filterMap report = past.filterMap report ++ (report visit).toList := by
  rw [List.filterMap_append]
  cases reported : report visit <;> simp [reported]

/-- The last report of a history is that of its last visit, if that one has any. -/
theorem getLast?_filterMap_snoc {α β : Type*} (report : α → Option β) (past : List α) (visit : α) :
    ((past ++ [visit]).filterMap report).getLast? =
      (report visit).or (past.filterMap report).getLast? := by
  rw [filterMap_snoc]
  cases report visit <;> simp

/-- Every member of the visits of a run splits it. -/
theorem mem_visits_split {state : σ} {inputs : List ι} {visit : σ × ι}
    (member : visit ∈ visits next state inputs) :
    ∃ first second, inputs = first ++ visit.2 :: second ∧ visit.1 = run next state first := by
  obtain ⟨before, after, split⟩ := List.append_of_mem member
  obtain ⟨first, second, shape, -, reached, -⟩ := visits_eq_append_cons next split
  exact ⟨first, second, shape, reached⟩

/-- Every input of a run is taken in some state. -/
theorem exists_visit (state : σ) {inputs : List ι} {input : ι} (member : input ∈ inputs) :
    ∃ reached, (reached, input) ∈ visits next state inputs := by
  obtain ⟨before, after, rfl⟩ := List.append_of_mem member
  refine ⟨run next state before, ?_⟩
  rw [visits_append]
  exact List.mem_append_right _ (List.mem_cons_self ..)

/-- Two splits of one list at a member are the same split, or one comes before the other. -/
theorem split_cases {α : Type*} {before after otherBefore otherAfter : List α} {one two : α}
    (same : before ++ one :: after = otherBefore ++ two :: otherAfter) :
    (before = otherBefore ∧ one = two ∧ after = otherAfter) ∨
    (∃ between, otherBefore = before ++ one :: between ∧
      after = between ++ two :: otherAfter) ∨
    ∃ between, before = otherBefore ++ two :: between ∧
      otherAfter = between ++ one :: after := by
  rcases List.append_eq_append_iff.mp same with ⟨between, first, second⟩ | ⟨between, first, second⟩
  · cases between with
    | nil =>
        cases second
        exact .inl ⟨by simpa using first.symm, rfl, rfl⟩
    | cons head between =>
        cases second
        exact .inr (.inl ⟨between, first, rfl⟩)
  · cases between with
    | nil =>
        cases second
        exact .inl ⟨by simpa using first, rfl, rfl⟩
    | cons head between =>
        cases second
        exact .inr (.inr ⟨between, first, rfl⟩)

/-- What holds at the start and survives every admissible step holds after every run. -/
theorem run_invariant (invariant : σ → Prop) (admissible : ι → Prop) {state : σ}
    (start : invariant state)
    (step : ∀ state input, admissible input → invariant state → invariant (next state input))
    (inputs : List ι) (allowed : ∀ input ∈ inputs, admissible input) :
    invariant (run next state inputs) := by
  induction inputs generalizing state with
  | nil => exact start
  | cons input inputs ih =>
      exact ih (step state input (allowed input (List.mem_cons_self ..)) start)
        fun later member => allowed later (List.mem_cons_of_mem _ member)

/-- The same rule for an invariant that also speaks of the visits made so far. -/
theorem visits_invariant (invariant : List (σ × ι) → σ → Prop) (admissible : ι → Prop)
    {start : σ} (initial : invariant [] start)
    (step : ∀ past state input, admissible input → invariant past state →
      invariant (past ++ [(state, input)]) (next state input))
    (inputs : List ι) (allowed : ∀ input ∈ inputs, admissible input) :
    invariant (visits next start inputs) (run next start inputs) := by
  induction inputs using List.reverseRecOn with
  | nil => exact initial
  | append_singleton inputs input ih =>
      rw [visits_snoc, run_snoc]
      refine step _ _ _ (allowed input (by simp)) (ih fun earlier member => ?_)
      exact allowed earlier (List.mem_append_left _ member)

/-! ### Where a state can lead -/

/-- Some run leads from one state to the other, in which every input is allowed in the state in which it
is taken. -/
def Leads (allowed : σ → ι → Prop) (state later : σ) : Prop :=
  ∃ inputs, (∀ visit ∈ visits next state inputs, allowed visit.1 visit.2) ∧
    run next state inputs = later

variable {next} {allowed : σ → ι → Prop}

theorem Leads.refl (state : σ) : Leads next allowed state state :=
  ⟨[], fun _ member => absurd member List.not_mem_nil, rfl⟩

theorem Leads.single {state : σ} {input : ι} (may : allowed state input) :
    Leads next allowed state (next state input) :=
  ⟨[input], fun _ member => List.mem_singleton.mp member ▸ may, rfl⟩

theorem Leads.trans {state later last : σ} (first : Leads next allowed state later)
    (second : Leads next allowed later last) : Leads next allowed state last := by
  obtain ⟨one, may, rfl⟩ := first
  obtain ⟨two, might, rfl⟩ := second
  refine ⟨one ++ two, fun visit member => ?_, run_append next state one two⟩
  rw [visits_append] at member
  exact (List.mem_append.mp member).elim (may visit) (might visit)

/-- A goal that every state can reach or come closer to can be reached. -/
theorem leads_of_measure (measure : σ → ℕ) {invariant goal : σ → Prop}
    (progress : ∀ state, invariant state → ∃ later, Leads next allowed state later ∧
      (goal later ∨ (invariant later ∧ measure later < measure state)))
    {state : σ} (holds : invariant state) : ∃ last, Leads next allowed state last ∧ goal last := by
  induction bound : measure state using Nat.strongRecOn generalizing state with
  | ind size ih =>
      obtain ⟨later, leads, reached | ⟨still, closer⟩⟩ := progress state holds
      · exact ⟨later, leads, reached⟩
      · obtain ⟨last, further, reached⟩ := ih _ (bound ▸ closer) still rfl
        exact ⟨last, leads.trans further, reached⟩

end Machine
