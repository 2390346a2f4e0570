/-
Module: FeathrEvents.Proofs.RateLimitBounds
Purpose: The table of the limiter stays bounded without forgetting the pair that was just checked, and
  its counts stay between nothing and the capacity.
Trusted boundary: none
Main exports: Counted, counted_run, KeepsCaller, keepsCaller, table_stays_bounded
-/
import FeathrEvents.Proofs.RateLimitAdmission

namespace FeathrEvents.RateLimiter

open Collections (OrderedDict)

variable {bound : ℕ} {limiter : RateLimiter} {check : Check}

/-! ### The counts -/

/-- No count is negative, and none was counted after this time. -/
structure Counted (now : ℚ) (limiter : RateLimiter) : Prop where
  gains : ∀ kind, 0 ≤ limiter.rate kind
  counts : ∀ item ∈ limiter.buckets.items, 0 ≤ item.2.tokens ∧ item.2.updated ≤ now

/-- A take leaves no debt: it takes a token only when there is one. -/
theorem take_nonneg {capacity : ℤ} (room : 1 ≤ capacity) {perSecond now : ℚ}
    (gains : 0 ≤ perSecond) {bucket : Bucket} (some : 0 ≤ bucket.tokens)
    (later : bucket.updated ≤ now) : 0 ≤ (bucket.take capacity perSecond now).2.tokens := by
  have one : (1 : ℚ) ≤ capacity := by exact_mod_cast room
  have refilled : 0 ≤ bucket.tokens + (now - bucket.updated) * perSecond :=
    add_nonneg some (mul_nonneg (sub_nonneg.mpr later) gains)
  simp only [Bucket.take]
  split
  · rename_i there
    exact sub_nonneg.mpr there
  · exact le_min (zero_le_one.trans one) refilled

theorem take_updated (capacity : ℤ) (perSecond now : ℚ) (bucket : Bucket) :
    (bucket.take capacity perSecond now).2.updated = now := by
  simp only [Bucket.take]
  split <;> rfl

/-- The bucket that a check asks is a new one or one of the table. -/
theorem Counted.asked {now : ℚ} (counted : Counted now limiter) (spendable : Spendable limiter)
    (later : now ≤ check.now) :
    0 ≤ (limiter.asked check).tokens ∧ (limiter.asked check).updated ≤ check.now := by
  cases stored : limiter.buckets.get? check.key with
  | none =>
      have room : (1 : ℚ) ≤ limiter.capacity check.kind := by
        exact_mod_cast spendable.room check.kind
      simp only [RateLimiter.asked, stored, Option.getD_none]
      exact ⟨zero_le_one.trans room, le_refl _⟩
  | some bucket =>
      have own := counted.counts _ (OrderedDict.get?_eq_some.mp stored)
      simp only [RateLimiter.asked, stored, Option.getD_some]
      exact ⟨own.1, own.2.trans later⟩

theorem Counted.checked {now : ℚ} (counted : Counted now limiter) (bound : ℕ)
    (spendable : Spendable limiter) (later : now ≤ check.now) : Counted check.now (next bound limiter check) where
  gains kind := by simpa [next, RateLimiter.check] using counted.gains kind
  counts item member := by
    have spent : item ∈ (limiter.spend check).2.buckets.items :=
      (evictIfNeeded_sublist ..).subset member
    rw [spend_items] at spent
    rcases List.mem_append.mp spent with old | new
    · have before := counted.counts item (List.mem_filter.mp old).1
      exact ⟨before.1, before.2.trans later⟩
    · obtain ⟨some, earlier⟩ := counted.asked spendable later
      rw [List.mem_singleton.mp new]
      constructor
      · exact take_nonneg (spendable.room check.kind) (counted.gains check.kind) some earlier
      · exact (take_updated ..).le

theorem Counted.mono {now later : ℚ} (counted : Counted now limiter) (forward : now ≤ later) :
    Counted later limiter where
  gains := counted.gains
  counts item member :=
    ⟨(counted.counts item member).1, (counted.counts item member).2.trans forward⟩

/-! ### The table after a check -/

/-- A check leaves a table within the bound that has the bucket of its pair as the take left it, with
every count between nothing and the capacity of its kind; eviction changed no bucket that remains. -/
structure KeepsCaller (bound : ℕ) (limiter : RateLimiter) (check : Check) : Prop where
  size : (next bound limiter check).buckets.size ≤ bound
  caller : (next bound limiter check).buckets.get? check.key = some (limiter.taken check).2
  below : ∀ item ∈ (next bound limiter check).buckets.items,
    item.2.tokens ≤ limiter.capacity item.1.2
  unchanged : ∀ key ∈ (next bound limiter check).buckets.keys,
    (next bound limiter check).buckets.get? key = (limiter.spend check).2.buckets.get? key

/-- The table after a check: the other pairs and the one that was checked, less the excess in front. -/
theorem Spendable.items_checked (spendable : Spendable limiter) (bound : ℕ) (check : Check) :
    (next bound limiter check).buckets.items =
      ((limiter.buckets.erase check.key).items ++ [(check.key, (limiter.taken check).2)]).drop
        (((limiter.buckets.erase check.key).items ++
          [(check.key, (limiter.taken check).2)]).length - bound) := by
  have evicted : (next bound limiter check).buckets = (limiter.spend check).2.buckets.dropFirst
      ((limiter.spend check).2.buckets.size - bound) :=
    (spendable.spent check).evicted bound
  simp only [evicted, OrderedDict.dropFirst, OrderedDict.size, spend_items]

theorem Spendable.size_checked (spendable : Spendable limiter) (bound : ℕ) (check : Check) :
    (next bound limiter check).buckets.size ≤ bound := by
  rw [OrderedDict.size, spendable.items_checked, List.length_drop]
  omega

/-- The pair that was just checked is the last of the table, so eviction comes to it last. -/
theorem Spendable.caller_checked (spendable : Spendable limiter) (positive : 1 ≤ bound)
    (check : Check) :
    (next bound limiter check).buckets.get? check.key = some (limiter.taken check).2 := by
  rw [OrderedDict.get?_eq_some, spendable.items_checked]
  have few : ((limiter.buckets.erase check.key).items ++
      [(check.key, (limiter.taken check).2)]).length - bound ≤
        (limiter.buckets.erase check.key).items.length := by
    rw [List.length_append, List.length_singleton]
    omega
  rw [List.drop_append_of_le_length few]
  apply List.mem_append_right
  exact List.mem_singleton_self _

theorem keepsCaller (spendable : Spendable limiter) (positive : 1 ≤ bound) (check : Check) :
    KeepsCaller bound limiter check where
  size := spendable.size_checked bound check
  caller := spendable.caller_checked positive check
  below item member := by
    have short := (spendable.checked bound check).short item member
    simpa [next, RateLimiter.check] using short.le
  unchanged key stays := next_get? stays

/-! ### Runs -/

theorem spendable_run (spendable : Spendable limiter) (checks : List Check) :
    Spendable (run bound limiter checks) :=
  Machine.run_invariant (next bound) Spendable (fun _ => True) spendable
    (fun _ check _ kept => kept.checked bound check) checks fun _ _ => trivial

theorem counted_create {writes reads : ℤ} (positive : 1 ≤ writes ∧ 1 ≤ reads) {windowSeconds : ℚ}
    (window : 0 ≤ windowSeconds) (now : ℚ) :
    Counted now (create writes reads windowSeconds) where
  gains kind := by
    have one : (0 : ℚ) ≤ writes := by exact_mod_cast (by omega : (0 : ℤ) ≤ writes)
    have two : (0 : ℚ) ≤ reads := by exact_mod_cast (by omega : (0 : ℤ) ≤ reads)
    cases kind
    · exact div_nonneg two window
    · exact div_nonneg one window
  counts := by simp [create, OrderedDict.empty]

/-- After a run the counts are those of any time that comes after its checks. -/
theorem counted_run (counted : ∀ now, Counted now limiter) (spendable : Spendable limiter)
    {checks : List Check} (ordered : (checks.map Check.now).Pairwise (· ≤ ·)) {now : ℚ}
    (later : ∀ check ∈ checks, check.now ≤ now) : Counted now (run bound limiter checks) := by
  induction checks using List.reverseRecOn generalizing now with
  | nil => exact counted now
  | append_singleton checks check ih =>
      rw [List.map_append, List.pairwise_append] at ordered
      have before : ∀ earlier ∈ checks, earlier.now ≤ check.now := fun earlier member =>
        ordered.2.2 _ (List.mem_map_of_mem member) _ (List.mem_singleton_self _)
      have step := (ih ordered.1 before).checked bound
        (spendable_run spendable checks) (le_refl check.now)
      rw [run_snoc]
      exact step.mono (later check (by simp))

/-- No count in the table is negative. -/
def NoDebts (limiter : RateLimiter) : Prop := ∀ item ∈ limiter.buckets.items, 0 ≤ item.2.tokens

/-- Every check of a run keeps its caller, and leaves no debt when the window is a positive time.
So an eviction never takes the bucket that was just drawn from. -/
structure StaysBounded (bound : ℕ) (writes reads : ℤ) (windowSeconds : ℚ) (checks : List Check) :
    Prop where
  caller : ∀ visit ∈ Machine.visits (next bound) (create writes reads windowSeconds) checks,
    KeepsCaller bound visit.1 visit.2
  debtless : 0 < windowSeconds →
    ∀ visit ∈ Machine.visits (next bound) (create writes reads windowSeconds) checks,
      NoDebts (next bound visit.1 visit.2)

theorem stays_bounded (bound : ℕ) (positive : 1 ≤ bound) (writes reads : ℤ)
    (limits : 1 ≤ writes ∧ 1 ≤ reads) (windowSeconds : ℚ) (checks : List Check)
    (ordered : (checks.map Check.now).Pairwise (· ≤ ·)) :
    StaysBounded bound writes reads windowSeconds checks where
  caller visit member := by
    obtain ⟨first, second, -, here⟩ := Machine.mem_visits_split _ member
    rw [here]
    exact keepsCaller (spendable_run (spendable_create limits windowSeconds) first) positive visit.2
  debtless window visit member item stored := by
    obtain ⟨first, second, shape, here⟩ := Machine.mem_visits_split _ member
    rw [shape, List.map_append, List.map_cons, List.pairwise_append] at ordered
    have before : ∀ earlier ∈ first, earlier.now ≤ visit.2.now := fun earlier among =>
      ordered.2.2 _ (List.mem_map_of_mem among) _ (List.mem_cons_self ..)
    have spendable := spendable_create limits windowSeconds
    have counted : Counted visit.2.now visit.1 := by
      rw [here]
      exact counted_run (counted_create limits window.le) spendable ordered.1 before
    have stocked : Spendable visit.1 := by
      rw [here]
      exact spendable_run spendable first
    exact ((counted.checked bound stocked (le_refl _)).counts item stored).1

/-- The table of the program, at its bound.  No sequence of checks, by however many clients, makes
it larger, and none evicts the one who asks. -/
theorem table_stays_bounded (writes reads : ℤ) (limits : 1 ≤ writes ∧ 1 ≤ reads)
    (windowSeconds : ℚ) (checks : List Check) (ordered : (checks.map Check.now).Pairwise (· ≤ ·)) :
    StaysBounded maxClients writes reads windowSeconds checks :=
  stays_bounded maxClients (by decide) writes reads limits windowSeconds checks ordered

theorem table_stays_bounded_refused :
    ((1 : ℤ) ≤ 2 ∧ (1 : ℤ) ≤ 2) ∧ (refusedOnce.map Check.now).Pairwise (· ≤ ·) ∧
      StaysBounded maxClients 2 2 2 refusedOnce :=
  ⟨by decide, by decide +kernel,
    table_stays_bounded 2 2 (by decide) 2 refusedOnce (by decide +kernel)⟩

end FeathrEvents.RateLimiter
