/-
Module: FeathrEvents.Lib.Polling
Purpose: A client that asks a running machine the same question again and again, until it likes an answer,
  something is raised or its time is up, and the states of the machine in which it was answered.
Trusted boundary: none
Main exports: Polling.Pass, Polling.Verdict, Polling.Pass.verdict, Polling.poll, Polling.made, Polling.Question,
  Polling.passes, Polling.passes_split, Polling.poll_found, Polling.poll_timedOut
-/
import Mathlib.Order.Lattice
import FeathrEvents.Lib.Runs

namespace Polling

variable {τ ε α β : Type*}

/-- One pass of the loop: the reading that it tests, what comes of its question, and the reading that it
takes after the answer. -/
structure Pass (τ ε α : Type*) where
  testedAt : τ
  reply : Except ε α
  repliedAt : τ

/-- How the loop ends. -/
inductive Verdict (τ ε β : Type*) where
  | found (value : β) (foundAt : τ)
  | raised (exn : ε)
  | timedOut

namespace Pass

variable [LinearOrder τ] (deadline : τ) (wanted : α → Option β) (pass : Pass τ ε α)

/-- What ends the loop in this pass, `none` where it goes on. -/
def verdict : Option (Verdict τ ε β) :=
  if pass.testedAt < deadline then
    match pass.reply with
    | .error exn => some (.raised exn)
    | .ok answer => (wanted answer).map fun value => .found value pass.repliedAt
  else some .timedOut

/-- The answer that the loop reads in this pass. -/
def answer? : Option α :=
  if pass.testedAt < deadline then pass.reply.toOption else none

variable {deadline wanted pass}

theorem verdict_found {value : β} {foundAt : τ}
    (found : pass.verdict deadline wanted = some (.found value foundAt)) :
    pass.testedAt < deadline ∧ pass.repliedAt = foundAt ∧
      ∃ answer, pass.reply = .ok answer ∧ wanted answer = some value := by
  unfold verdict at found
  split at found
  · rename_i early
    split at found
    · cases found
    · rename_i answer replied
      obtain ⟨value, liked, same⟩ := Option.map_eq_some_iff.mp found
      cases same
      exact ⟨early, rfl, answer, replied, liked⟩
  · cases found

theorem verdict_none (goes : pass.verdict deadline wanted = none) :
    pass.testedAt < deadline ∧ ∃ answer, pass.reply = .ok answer ∧ wanted answer = none := by
  unfold verdict at goes
  split at goes
  · rename_i early
    split at goes
    · cases goes
    · rename_i answer replied
      exact ⟨early, answer, replied, Option.map_eq_none_iff.mp goes⟩
  · cases goes

theorem verdict_timedOut (late : pass.verdict deadline wanted = some .timedOut) :
    deadline ≤ pass.testedAt := by
  unfold verdict at late
  split at late
  · split at late
    · cases late
    · obtain ⟨value, -, same⟩ := Option.map_eq_some_iff.mp late
      cases same
  · rename_i tested
    exact not_lt.mp tested

end Pass

section Loop

variable [LinearOrder τ] (deadline : τ) (wanted : α → Option β)

/-- The loop, as far as these passes go; `none` while it goes on. -/
def poll (passes : List (Pass τ ε α)) : Option (Verdict τ ε β) :=
  passes.findSome? (Pass.verdict deadline wanted)

/-- The passes up to the one that ends the loop. -/
def made : List (Pass τ ε α) → List (Pass τ ε α)
  | [] => []
  | pass :: passes =>
      match pass.verdict deadline wanted with
      | some _ => [pass]
      | none => pass :: made passes

end Loop

/-! ### Questions to a machine -/

/-- A question to a machine that makes moves on its own: those before it is answered, and how it is
answered, if something comes of it. -/
structure Question (ι τ ε κ : Type*) where
  before : List ι
  testedAt : τ
  asked : Except ε κ
  repliedAt : τ

variable {σ ι κ : Type*} (next : σ → ι → σ) (answer : κ → σ → α)

/-- The moves that the machine makes until the last of these questions is answered. -/
def moves (questions : List (Question ι τ ε κ)) : List ι := questions.flatMap Question.before

/-- The pass of a question that is answered in this state. -/
def Question.pass (question : Question ι τ ε κ) (state : σ) : Pass τ ε α where
  testedAt := question.testedAt
  reply := question.asked.map fun how => answer how state
  repliedAt := question.repliedAt

/-- The passes of a loop that asks these questions, the first of them in this state. -/
def passes (state : σ) : List (Question ι τ ε κ) → List (Pass τ ε α)
  | [] => []
  | question :: questions =>
      question.pass answer (Machine.run next state question.before) ::
        passes (Machine.run next state question.before) questions

variable {next answer} {state : σ} {questions : List (Question ι τ ε κ)}

theorem passes_append (first second : List (Question ι τ ε κ)) :
    passes next answer state (first ++ second) =
      passes next answer state first ++ passes next answer (Machine.run next state (moves first)) second := by
  induction first generalizing state with
  | nil => rfl
  | cons question first ih =>
      rw [List.cons_append, passes, passes, ih, moves, moves, List.flatMap_cons, Machine.run_append]
      rfl

/-- From the answer to a question to the end. -/
theorem run_moves (earlier later : List (Question ι τ ε κ)) (question : Question ι τ ε κ) :
    Machine.run next state (moves (earlier ++ question :: later)) =
      Machine.run next (Machine.run next state (moves earlier ++ question.before)) (moves later) := by
  rw [← Machine.run_append, moves, moves, moves, List.flatMap_append, List.flatMap_cons, List.append_assoc]

/-- The state in which a question is answered, after these ones. -/
theorem passes_split {before after : List (Pass τ ε α)} {pass : Pass τ ε α}
    (split : passes next answer state questions = before ++ pass :: after) :
    ∃ earlier question later, questions = earlier ++ question :: later ∧
      before = passes next answer state earlier ∧
      pass = question.pass answer (Machine.run next state (moves earlier ++ question.before)) := by
  induction before generalizing state questions with
  | nil =>
      cases questions with
      | nil => cases split
      | cons question questions =>
          obtain ⟨same, -⟩ := List.cons.inj split
          exact ⟨[], question, questions, rfl, rfl, same.symm⟩
  | cons head before ih =>
      cases questions with
      | nil => cases split
      | cons question questions =>
          obtain ⟨rfl, rest⟩ := List.cons.inj split
          obtain ⟨earlier, asked, later, rfl, rfl, same⟩ := ih rest
          refine ⟨question :: earlier, asked, later, rfl, rfl, ?_⟩
          have grown : moves (question :: earlier) ++ asked.before =
              question.before ++ (moves earlier ++ asked.before) := List.append_assoc ..
          rw [grown, Machine.run_append next state question.before, same]

theorem reply_ok {question : Question ι τ ε κ} {value : α}
    (replied : (question.pass answer state).reply = .ok value) :
    ∃ how, question.asked = .ok how ∧ value = answer how state := by
  unfold Question.pass at replied
  cases asked : question.asked with
  | error exn =>
      rw [asked] at replied
      cases replied
  | ok how =>
      rw [asked] at replied
      cases replied
      exact ⟨how, rfl, rfl⟩

variable [LinearOrder τ] {deadline : τ} {wanted : α → Option β}

/-- What the loop found it was told in a state of the machine. -/
theorem poll_found {value : β} {foundAt : τ}
    (found : poll deadline wanted (passes next answer state questions) = some (.found value foundAt)) :
    ∃ earlier question later how, questions = earlier ++ question :: later ∧
      question.asked = .ok how ∧ question.repliedAt = foundAt ∧
      wanted (answer how (Machine.run next state (moves earlier ++ question.before))) = some value := by
  obtain ⟨before, pass, after, split, ends, -⟩ := List.findSome?_eq_some_iff.mp found
  obtain ⟨earlier, question, later, rfl, -, rfl⟩ := passes_split split
  obtain ⟨-, replied, told, heard, liked⟩ := Pass.verdict_found ends
  obtain ⟨how, asked, rfl⟩ := reply_ok heard
  exact ⟨earlier, question, later, how, rfl, asked, replied, liked⟩

/-- A loop whose time is up was answered each time that it asked, and never as it wanted. -/
theorem poll_timedOut
    (late : poll deadline wanted (passes next answer state questions) = some .timedOut) :
    ∃ earlier question later, questions = earlier ++ question :: later ∧ deadline ≤ question.testedAt ∧
      ∀ first asked rest, earlier = first ++ asked :: rest → ∃ how, asked.asked = .ok how ∧
        wanted (answer how (Machine.run next state (moves first ++ asked.before))) = none := by
  obtain ⟨before, pass, after, split, ends, on⟩ := List.findSome?_eq_some_iff.mp late
  obtain ⟨earlier, question, later, rfl, rfl, rfl⟩ := passes_split split
  refine ⟨earlier, question, later, rfl, Pass.verdict_timedOut ends, ?_⟩
  rintro first asked rest rfl
  have here : asked.pass answer (Machine.run next state (moves first ++ asked.before)) ∈
      passes next answer state (first ++ asked :: rest) := by
    rw [passes_append]
    exact List.mem_append_right _ (by rw [passes, ← Machine.run_append]; exact List.mem_cons_self ..)
  obtain ⟨-, told, heard, disliked⟩ := Pass.verdict_none (on _ here)
  obtain ⟨how, same, rfl⟩ := reply_ok heard
  exact ⟨how, same, disliked⟩

end Polling
