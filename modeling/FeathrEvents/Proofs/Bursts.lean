/-
Module: FeathrEvents.Proofs.Bursts
Purpose: What the loops of a burst do together, in whatever order their calls end: every index is used once,
  few calls are in flight, and each is counted once.
Trusted boundary: none
Main exports: answer, answers, counter, Shared, Accounted, shared_run, burst_accounts
-/
import FeathrEvents.App.UseIngest
import FeathrEvents.Lib.Runs

namespace FeathrEvents

namespace UseIngest

namespace Burst

variable {burst : Burst}

/-- A call that ends, with its index and the counter that it belongs to.  The index is that of the
event that its loop has posted last. -/
def answer : Burst × (ℕ × IngestResult) → Option (ℕ × Outcome)
  | (burst, (sender, result)) =>
      (burst.senders[sender]?.bind Sender.inFlight).map (·, result.outcome)

def answers (past : List (Burst × (ℕ × IngestResult))) : List (ℕ × Outcome) :=
  past.filterMap answer

def counter (burst : Burst) : Outcome → ℕ
  | .accepted => burst.accepted
  | .refused => burst.refused
  | .throttled => burst.throttled
  | .failed => burst.failed

/-- The loops use the indices in order, each for one call, which is in flight or was counted.  The
counter is shared, and nothing comes between its reading and its increment. -/
structure Shared (answers : List (ℕ × Outcome)) (burst : Burst) : Prop where
  calls : burst.calls = List.range burst.next
  bound : burst.next ≤ burst.n
  taken : (burst.inFlight ++ answers.map Prod.fst).Perm (List.range burst.next)
  ended : .finished ∈ burst.senders → burst.next = burst.n
  counted : ∀ outcome, burst.counter outcome = (answers.map Prod.snd).count outcome

/-! ### One loop -/

/-- A loop takes the next index, or ends when there is none. -/
theorem loop_cases (burst : Burst) :
    (burst.next < burst.n ∧ burst.loop = (.awaiting burst.next,
      { burst with next := burst.next + 1, calls := burst.calls ++ [burst.next] })) ∨
    (burst.n ≤ burst.next ∧ burst.loop = (.finished, burst)) := by
  rw [loop]
  split
  · rename_i some
    exact .inl ⟨some, rfl⟩
  · rename_i none
    exact .inr ⟨Nat.le_of_not_lt none, rfl⟩

theorem loop_senders (burst : Burst) : burst.loop.2.senders = burst.senders := by
  rcases loop_cases burst with ⟨-, looped⟩ | ⟨-, looped⟩ <;> rw [looped]

theorem loop_n (burst : Burst) : burst.loop.2.n = burst.n := by
  rcases loop_cases burst with ⟨-, looped⟩ | ⟨-, looped⟩ <;> rw [looped]

/-- A loop that reaches its test, among the others, keeps the account. -/
theorem Shared.looped {answers : List (ℕ × Outcome)} {before after : List Sender}
    (shared : Shared answers { burst with senders := before ++ after }) :
    Shared answers { burst.loop.2 with senders := before ++ burst.loop.1 :: after } := by
  obtain ⟨calls, bound, taken, ended, counted⟩ := shared
  rcases loop_cases burst with ⟨some, looped⟩ | ⟨none, looped⟩
  · rw [looped]
    constructor
    case bound => exact some
    case counted => exact counted
    case calls =>
      change burst.calls ++ [burst.next] = List.range (burst.next + 1)
      rw [List.range_succ]
      exact congrArg (· ++ [burst.next]) calls
    case taken =>
      simp only [inFlight, List.filterMap_append, List.filterMap_cons, Sender.inFlight,
        List.range_succ, List.perm_iff_count, List.count_append, List.count_cons] at taken ⊢
      intro index
      have before := taken index
      simp only [List.count_nil]
      omega
    case ended =>
      intro member
      have others : Sender.finished ∈ before ++ after := by simpa using member
      exact absurd (ended others) (Nat.ne_of_lt some)
  · rw [looped]
    constructor
    case calls => exact calls
    case bound => exact bound
    case counted => exact counted
    case taken =>
      simpa only [inFlight, List.filterMap_append, List.filterMap_cons, Sender.inFlight] using taken
    case ended => exact fun _ => Nat.le_antisymm bound none

/-! ### Every run -/

theorem Shared.spawn (shared : Shared [] burst) : Shared [] burst.spawn := by
  have padded : Shared [] { burst with senders := burst.senders ++ [] } := by
    rw [List.append_nil]
    exact shared
  have looped := padded.looped
  rw [← loop_senders burst] at looped
  exact looped

theorem spawn_senders (burst : Burst) :
    burst.spawn.senders.length = burst.senders.length + 1 ∧ burst.spawn.n = burst.n := by
  refine ⟨?_, loop_n burst⟩
  have appended : burst.spawn.senders = burst.loop.2.senders ++ [burst.loop.1] := rfl
  rw [appended, loop_senders, List.length_append, List.length_singleton]

/-- After so many loops have been started. -/
theorem shared_spawned (n loops : ℕ) :
    Shared [] (Nat.repeat Burst.spawn loops { n := n }) ∧
      (Nat.repeat Burst.spawn loops { n := n }).senders.length = loops ∧
      (Nat.repeat Burst.spawn loops { n := n }).n = n := by
  induction loops with
  | zero =>
      refine ⟨⟨rfl, Nat.zero_le _, List.Perm.nil, nofun, ?_⟩, rfl, rfl⟩
      intro outcome
      cases outcome <;> rfl
  | succ loops ih =>
      obtain ⟨shared, length, size⟩ := ih
      obtain ⟨longer, same⟩ := spawn_senders (Nat.repeat Burst.spawn loops { n := n })
      exact ⟨shared.spawn, longer.trans (congrArg (· + 1) length), same.trans size⟩

theorem counter_count (outcome : Outcome) (burst : Burst) (other : Outcome) :
    (burst.count outcome).counter other =
      burst.counter other + if outcome = other then 1 else 0 := by
  cases outcome <;> cases other <;> rfl

/-- To count a call changes nothing but its counter. -/
theorem count_frame (outcome : Outcome) (burst : Burst) :
    (burst.count outcome).n = burst.n ∧ (burst.count outcome).next = burst.next ∧
      (burst.count outcome).calls = burst.calls ∧ (burst.count outcome).senders = burst.senders := by
  cases outcome <;> exact ⟨rfl, rfl, rfl, rfl⟩

/-- While a loop runs from the end of its call to its test, the call is counted. -/
theorem Shared.counts {answers : List (ℕ × Outcome)} {before after : List Sender} {index : ℕ}
    (shared : Shared answers burst) (split : burst.senders = before ++ .awaiting index :: after)
    (outcome : Outcome) :
    Shared (answers ++ [(index, outcome)])
      { burst.count outcome with senders := before ++ after } := by
  obtain ⟨calls, bound, taken, ended, counted⟩ := shared
  obtain ⟨n, next, made, -⟩ := count_frame outcome burst
  constructor
  all_goals simp only [n, next, made]
  case calls => exact calls
  case bound => exact bound
  case ended =>
    intro member
    apply ended
    rw [split]
    simpa using member
  case taken =>
    simp only [inFlight, split, List.filterMap_append, List.filterMap_cons, Sender.inFlight,
      List.map_append, List.map_cons, List.map_nil, List.perm_iff_count, List.count_append,
      List.count_cons, List.count_nil] at taken ⊢
    intro other
    have before := taken other
    omega
  case counted =>
    intro other
    have raised := counter_count outcome burst other
    rw [counted other] at raised
    rw [List.map_append, List.count_append, List.map_singleton, List.count_singleton]
    simp only [beq_iff_eq]
    exact raised

theorem split_at {α : Type*} {items : List α} {position : ℕ} {item : α}
    (here : items[position]? = some item) :
    ∃ before after, items = before ++ item :: after ∧
      ∀ other, items.set position other = before ++ other :: after := by
  obtain ⟨small, rfl⟩ := List.getElem?_eq_some_iff.mp here
  have replaced : ∀ other, items.set position other =
      items.take position ++ other :: items.drop (position + 1) := by
    intro other
    rw [List.set_eq_take_append_cons_drop, if_pos small]
  refine ⟨_, _, ?_, replaced⟩
  rw [← replaced, List.set_getElem_self]

/-- A call that ends is counted, and its loop goes on. -/
theorem Shared.replied {past : List (Burst × (ℕ × IngestResult))}
    (shared : Shared (answers past) burst)
    (move : ℕ × IngestResult) : Shared (answers (past ++ [(burst, move)])) (burst.step move) := by
  obtain ⟨sender, result⟩ := move
  rw [answers, List.filterMap_append]
  cases stands : burst.senders[sender]? with
  | none =>
      have nothing : answer (burst, (sender, result)) = none := by simp [answer, stands]
      simp only [step, reply, stands, List.filterMap_cons, nothing, List.filterMap_nil,
        List.append_nil]
      exact shared
  | some standing =>
      cases standing with
      | finished =>
          have nothing : answer (burst, (sender, result)) = none := by
            simp [answer, stands, Sender.inFlight]
          simp only [step, reply, stands, List.filterMap_cons, nothing, List.filterMap_nil,
            List.append_nil]
          exact shared
      | awaiting index =>
          have ends : answer (burst, (sender, result)) = some (index, result.outcome) := by
            simp [answer, stands, Sender.inFlight]
          obtain ⟨before, after, split, replaced⟩ := split_at stands
          have looped := (shared.counts split result.outcome).looped
          obtain ⟨-, -, -, same⟩ := count_frame result.outcome burst
          simp only [step, reply, stands, loop_senders, same, replaced, List.filterMap_cons, ends,
            List.filterMap_nil]
          exact looped

theorem shared_run (n : ℕ) (moves : List (ℕ × IngestResult)) :
    Shared (answers (Machine.visits step (begin n) moves)) (Machine.run step (begin n) moves) :=
  Machine.visits_invariant step (fun past burst => Shared (answers past) burst) (fun _ => True)
    (shared_spawned n _).1 (fun _ _ move _ shared => shared.replied move) moves fun _ _ => trivial

/-- The number of events and that of the loops do not change. -/
theorem fixed_run (n : ℕ) (moves : List (ℕ × IngestResult)) :
    (Machine.run step (begin n) moves).n = n ∧
      (Machine.run step (begin n) moves).senders.length = min concurrency n := by
  refine Machine.run_invariant step
    (fun burst => burst.n = n ∧ burst.senders.length = min concurrency n) (fun _ => True)
    ?_ ?_ moves fun _ _ => trivial
  · obtain ⟨-, length, size⟩ := shared_spawned n (min concurrency n)
    exact ⟨size, length⟩
  · rintro burst ⟨sender, result⟩ - ⟨size, length⟩
    rw [step, reply]
    split
    · obtain ⟨same, -, -, stand⟩ := count_frame result.outcome burst
      refine ⟨(loop_n _).trans (same.trans size), ?_⟩
      change ((burst.count result.outcome).loop.2.senders.set sender _).length = _
      rw [List.length_set, loop_senders, stand]
      exact length
    · exact ⟨size, length⟩

/-! ### What a burst comes to -/

/-- Every index was used for one call, and every call is in one counter, the one of its outcome, so
that the four counters add up to the size of the burst. -/
structure Accounted (n : ℕ) (answers : List (ℕ × Outcome)) (burst : Burst) : Prop where
  calls : burst.calls = List.range n
  ended : (answers.map Prod.fst).Perm (List.range n)
  counted : ∀ outcome, burst.counter outcome = (answers.map Prod.snd).count outcome
  total : burst.accepted + burst.refused + burst.throttled + burst.failed = n

/-- In every state of a burst few calls are in flight, and when all loops have finished, which they have
after `n` calls have ended, every event was posted once and every post is accounted for. -/
structure Accounts (n : ℕ) (answers : List (ℕ × Outcome)) (burst : Burst) : Prop where
  bounded : burst.inFlight.length ≤ concurrency
  accounted : (∀ sender ∈ burst.senders, sender = .finished) → Accounted n answers burst
  finishes : answers.length = n → ∀ sender ∈ burst.senders, sender = .finished

theorem count_outcomes (outcomes : List Outcome) :
    outcomes.count .accepted + outcomes.count .refused + outcomes.count .throttled +
      outcomes.count .failed = outcomes.length := by
  induction outcomes with
  | nil => rfl
  | cons outcome outcomes ih =>
      cases outcome <;> simp only [List.count_cons, List.length_cons] <;> simp <;> omega

/-- Nothing is in flight exactly when all loops have finished. -/
theorem inFlight_eq_nil {burst : Burst} :
    burst.inFlight = [] ↔ ∀ sender ∈ burst.senders, sender = .finished := by
  rw [inFlight, List.filterMap_eq_nil_iff]
  refine forall₂_congr fun sender _ => ?_
  cases sender <;> simp [Sender.inFlight]

/-- A burst posts each event once and accounts for every post.  This holds in every interleaving of
its loops, and whatever the calls come to. -/
theorem burst_accounts (n : ℕ) (moves : List (ℕ × IngestResult)) :
    Accounts n (answers (Machine.visits step (begin n) moves))
      (Machine.run step (begin n) moves) := by
  obtain ⟨size, length⟩ := fixed_run n moves
  obtain ⟨calls, bound, taken, ended, counted⟩ := shared_run n moves
  generalize Machine.run step (begin n) moves = burst at *
  generalize answers (Machine.visits step (begin n) moves) = answers at *
  have few : burst.inFlight.length ≤ burst.senders.length := List.length_filterMap_le ..
  constructor
  case bounded => omega
  case finishes =>
    intro all
    have whole := taken.length_eq
    rw [List.length_append, List.length_map, List.length_range, all] at whole
    exact inFlight_eq_nil.mp (List.eq_nil_of_length_eq_zero (by omega))
  case accounted =>
    intro finished
    have last : burst.next = n := by
      rcases Nat.eq_zero_or_pos n with none | some
      · omega
      · obtain ⟨sender, member⟩ := List.exists_mem_of_length_pos
          (show 0 < burst.senders.length by rw [length]; exact Nat.lt_min.mpr ⟨by decide, some⟩)
        exact (ended (finished sender member ▸ member)).trans size
    rw [inFlight_eq_nil.mpr finished, List.nil_append, last] at taken
    have total := count_outcomes (answers.map Prod.snd)
    rw [← counted, ← counted, ← counted, ← counted, List.length_map] at total
    have posted := taken.length_eq
    rw [List.length_map, List.length_range] at posted
    exact ⟨last ▸ calls, taken, counted, total.trans posted⟩

end Burst

end UseIngest

end FeathrEvents
