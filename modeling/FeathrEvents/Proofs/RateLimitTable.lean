/-
Module: FeathrEvents.Proofs.RateLimitTable
Purpose: What a check does to the table of the limiter: the stored counts are never full, so eviction
  only ever drops the pairs that were asked least recently, and when that makes no difference.
Trusted boundary: none
Main exports: next, run, waits, unboundedWaits, Spendable, Spendable.evicted, Recovered, Shrinks,
  eviction_is_invisible
-/
import Mathlib.Tactic.Linarith
import FeathrEvents.App.RateLimit
import FeathrEvents.Lib.Runs

namespace FeathrEvents.RateLimiter

open Collections (OrderedDict)

/-- The limiter after a check. -/
def next (bound : ℕ) (limiter : RateLimiter) (check : Check) : RateLimiter :=
  (limiter.check bound check).2

def run (bound : ℕ) (limiter : RateLimiter) (checks : List Check) : RateLimiter :=
  Machine.run (next bound) limiter checks

/-- The waits that a sequence of checks returns. -/
def waits (bound : ℕ) (limiter : RateLimiter) (checks : List Check) : List ℚ :=
  (Machine.visits (next bound) limiter checks).map fun visit => (visit.1.check bound visit.2).1

/-- The same limiter with no bound on its table.  What an eviction changes is measured by it. -/
def unboundedNext (limiter : RateLimiter) (check : Check) : RateLimiter := (limiter.spend check).2

def unboundedWaits (limiter : RateLimiter) (checks : List Check) : List ℚ :=
  (Machine.visits unboundedNext limiter checks).map fun visit => (visit.1.spend visit.2).1

variable {bound : ℕ} {limiter : RateLimiter}

/-! ### One check -/

/-- The bucket that a check asks. -/
def asked (limiter : RateLimiter) (check : Check) : Bucket :=
  (limiter.buckets.get? check.key).getD
    { tokens := limiter.capacity check.kind, updated := check.now }

/-- The outcome of a check: the wait, and the bucket that was asked. -/
def taken (limiter : RateLimiter) (check : Check) : ℚ × Bucket :=
  (limiter.asked check).take (limiter.capacity check.kind) (limiter.rate check.kind) check.now

theorem spend_wait (limiter : RateLimiter) (check : Check) :
    (limiter.spend check).1 = (limiter.taken check).1 := by
  simp only [spend, taken, asked]

theorem check_wait (bound : ℕ) (limiter : RateLimiter) (check : Check) :
    (limiter.check bound check).1 = (limiter.taken check).1 := by
  simp only [RateLimiter.check, spend_wait]

/-- The bucket that was asked ends up last. -/
theorem spend_items (limiter : RateLimiter) (check : Check) :
    (limiter.spend check).2.buckets.items =
      (limiter.buckets.erase check.key).items ++ [(check.key, (limiter.taken check).2)] :=
  OrderedDict.items_set_moveToEnd_set ..

@[simp] theorem spend_capacity (limiter : RateLimiter) (check : Check) :
    (limiter.spend check).2.capacity = limiter.capacity := by
  simp only [spend]

@[simp] theorem spend_rate (limiter : RateLimiter) (check : Check) :
    (limiter.spend check).2.rate = limiter.rate := by
  simp only [spend]

@[simp] theorem evictIfNeeded_capacity (bound : ℕ) (limiter : RateLimiter) :
    (limiter.evictIfNeeded bound).capacity = limiter.capacity := by
  unfold evictIfNeeded
  split <;> rfl

@[simp] theorem evictIfNeeded_rate (bound : ℕ) (limiter : RateLimiter) :
    (limiter.evictIfNeeded bound).rate = limiter.rate := by
  unfold evictIfNeeded
  split <;> rfl

/-- A bucket that was just asked is not full. -/
theorem take_lt {capacity : ℤ} (room : 1 ≤ capacity) (perSecond now : ℚ) (bucket : Bucket) :
    (bucket.take capacity perSecond now).2.tokens < capacity := by
  have one : (1 : ℚ) ≤ capacity := by exact_mod_cast room
  have most : min (capacity : ℚ) (bucket.tokens + (now - bucket.updated) * perSecond) ≤ capacity :=
    min_le_left _ _
  simp only [Bucket.take]
  split
  · exact (sub_lt_self _ one_pos).trans_le most
  · rename_i short
    exact (not_le.mp short).trans_le one

theorem take_kept (capacity : ℤ) (perSecond now : ℚ) (bucket : Bucket) :
    (bucket.take capacity perSecond now).2.suppressed = bucket.suppressed ∧
      (bucket.take capacity perSecond now).2.loggedAt = bucket.loggedAt := by
  simp only [Bucket.take]
  split <;> exact ⟨rfl, rfl⟩

/-! ### The table -/

/-- Every limit is positive, and no stored count is at its capacity: counts are stored after a token
was taken or refused. -/
structure Spendable (limiter : RateLimiter) : Prop where
  room : ∀ kind, 1 ≤ limiter.capacity kind
  short : ∀ item ∈ limiter.buckets.items, item.2.tokens < limiter.capacity item.1.2

theorem spendable_create {writes reads : ℤ} (positive : 1 ≤ writes ∧ 1 ≤ reads)
    (windowSeconds : ℚ) : Spendable (create writes reads windowSeconds) where
  room kind := by
    cases kind
    · exact positive.2
    · exact positive.1
  short := by simp [create, OrderedDict.empty]

theorem Spendable.spent (spendable : Spendable limiter) (check : Check) :
    Spendable (limiter.spend check).2 where
  room := spendable.room
  short item member := by
    rw [spend_items] at member
    rcases List.mem_append.mp member with old | new
    · exact spendable.short item (List.mem_filter.mp old).1
    · rw [List.mem_singleton.mp new]
      exact take_lt (spendable.room check.kind) ..

/-- No count is full, so the loop that looks for idle clients finds none and the first pairs go. -/
theorem evictFull_of_short (bound : ℕ) (capacity : Kind → ℤ)
    (items : List ((String × Kind) × Bucket)) (buckets : OrderedDict (String × Kind) Bucket)
    (short : ∀ item ∈ items, item.2.tokens < capacity item.1.2) (many : bound < buckets.size) :
    evictFull bound capacity items buckets = buckets.dropFirst (buckets.size - bound) := by
  induction items with
  | nil => rfl
  | cons item items ih =>
      have used := not_le.mpr (short item (List.mem_cons_self ..))
      simp only [evictFull, if_neg used, if_neg (not_le.mpr many)]
      exact ih fun later member => short later (List.mem_cons_of_mem _ member)

/-- Eviction keeps the last pairs of the table, as many as the bound allows. -/
theorem Spendable.evicted (spendable : Spendable limiter) (bound : ℕ) :
    (limiter.evictIfNeeded bound).buckets =
      limiter.buckets.dropFirst (limiter.buckets.size - bound) := by
  unfold evictIfNeeded
  split
  · rename_i within
    rw [Nat.sub_eq_zero_of_le within]
    rfl
  · rename_i many
    exact evictFull_of_short bound _ _ _ spendable.short (not_le.mp many)

theorem Spendable.checked (spendable : Spendable limiter) (bound : ℕ) (check : Check) :
    Spendable (next bound limiter check) := by
  have spent := spendable.spent check
  refine ⟨?_, ?_⟩
  · intro kind
    simpa [next, RateLimiter.check] using spendable.room kind
  · intro item member
    simp only [next, RateLimiter.check, spent.evicted, OrderedDict.dropFirst] at member
    simpa [next, RateLimiter.check] using spent.short item (List.mem_of_mem_drop member)

/-! ### With and without a bound -/

variable {unbounded : RateLimiter}

/-- The most recent pairs, as many as the bound allows. -/
def recent (bound : ℕ) (limiter : RateLimiter) : OrderedDict (String × Kind) Bucket :=
  limiter.buckets.dropFirst (limiter.buckets.size - bound)

/-- The limiter has the most recent buckets of one without a bound, which are counted by checks
only.  The two are compared over a whole run by it. -/
structure Shrinks (bound : ℕ) (limiter unbounded : RateLimiter) : Prop where
  capacity : limiter.capacity = unbounded.capacity
  rate : limiter.rate = unbounded.rate
  buckets : limiter.buckets = recent bound unbounded
  quiet : ∀ item ∈ unbounded.buckets.items, item.2.suppressed = 0 ∧ item.2.loggedAt = 0

/-- A pair that is asked again, after as many other pairs as the bound allows, has its whole capacity
again. -/
def Recovered (bound : ℕ) (limiter : RateLimiter) (check : Check) : Prop :=
  ∀ bucket ∈ limiter.buckets.get? check.key, check.key ∉ (recent bound limiter).keys →
    limiter.capacity check.kind ≤
      bucket.tokens + (check.now - bucket.updated) * limiter.rate check.kind

instance (bound : ℕ) (limiter : RateLimiter) (check : Check) :
    Decidable (Recovered bound limiter check) :=
  inferInstanceAs (Decidable (∀ bucket ∈ limiter.buckets.get? check.key,
    check.key ∉ (recent bound limiter).keys → limiter.capacity check.kind ≤
      bucket.tokens + (check.now - bucket.updated) * limiter.rate check.kind))

theorem get?_recent {key : String × Kind} {bucket : Bucket}
    (stored : (recent bound limiter).get? key = some bucket) :
    limiter.buckets.get? key = some bucket :=
  OrderedDict.get?_eq_some.mpr (List.mem_of_mem_drop (OrderedDict.get?_eq_some.mp stored))

/-- A bucket that is full when it is asked is left as a new one is. -/
theorem take_full {capacity : ℤ} (room : 1 ≤ capacity) {perSecond now : ℚ} {bucket : Bucket}
    (full : capacity ≤ bucket.tokens + (now - bucket.updated) * perSecond) :
    bucket.take capacity perSecond now =
      (0, { bucket with tokens := capacity - 1, updated := now }) := by
  have one : (1 : ℚ) ≤ capacity := by exact_mod_cast room
  simp only [Bucket.take, min_eq_left full, if_pos one]

theorem Shrinks.taken (shrinks : Shrinks bound limiter unbounded) (spendable : Spendable unbounded)
    {check : Check} (recovered : Recovered bound unbounded check) :
    limiter.taken check = unbounded.taken check := by
  have room := spendable.room check.kind
  simp only [RateLimiter.taken, asked, shrinks.capacity, shrinks.rate, shrinks.buckets]
  cases kept : (recent bound unbounded).get? check.key with
  | some bucket => rw [get?_recent kept]
  | none =>
      cases stored : unbounded.buckets.get? check.key with
      | none => rfl
      | some bucket =>
          have full := recovered bucket stored (OrderedDict.get?_eq_none.mp kept)
          obtain ⟨suppressed, loggedAt⟩ :=
            shrinks.quiet _ (OrderedDict.get?_eq_some.mp stored)
          rw [Option.getD_none, Option.getD_some, take_full room full,
            take_full room (by simp)]
          rw [suppressed, loggedAt]

/-- Dropping the excess before or after the last item is appended. -/
theorem drop_excess {α : Type*} (before after : List α) (item : α)
    (enough : bound ≤ after.length + 1 ∨ before = []) :
    (after ++ [item]).drop ((after ++ [item]).length - bound) =
      (before ++ after ++ [item]).drop ((before ++ after ++ [item]).length - bound) := by
  rcases enough with many | rfl
  · have split : (before ++ after ++ [item]).length - bound =
        before.length + ((after ++ [item]).length - bound) := by
      simp only [List.length_append, List.length_singleton]
      omega
    rw [split, List.append_assoc, List.drop_length_add_append]
  · rfl

theorem Shrinks.checked (shrinks : Shrinks bound limiter unbounded) (positive : 1 ≤ bound)
    (spendable : Spendable unbounded) {check : Check}
    (recovered : Recovered bound unbounded check) :
    Shrinks bound (next bound limiter check) (unboundedNext unbounded check) := by
  have taken := shrinks.taken spendable recovered
  have spendableHere : Spendable limiter := by
    refine ⟨fun kind => by rw [shrinks.capacity]; exact spendable.room kind, ?_⟩
    intro item member
    rw [shrinks.buckets] at member
    rw [shrinks.capacity]
    exact spendable.short item (List.mem_of_mem_drop member)
  have evicted : (next bound limiter check).buckets = (limiter.spend check).2.buckets.dropFirst
      ((limiter.spend check).2.buckets.size - bound) :=
    (spendableHere.spent check).evicted bound
  -- what was dropped before, and what of it the new check takes out
  have split : (unbounded.buckets.erase check.key).items =
      (unbounded.buckets.items.take (unbounded.buckets.size - bound)).filter
          (fun item => item.1 ≠ check.key) ++ (limiter.buckets.erase check.key).items := by
    rw [shrinks.buckets]
    simp only [OrderedDict.erase, recent, OrderedDict.dropFirst, ← List.filter_append,
      List.take_append_drop]
  have enough : bound ≤ (limiter.buckets.erase check.key).items.length + 1 ∨
      (unbounded.buckets.items.take (unbounded.buckets.size - bound)).filter
          (fun item => item.1 ≠ check.key) = [] := by
    have nearly := limiter.buckets.size_le_size_erase check.key
    have size : limiter.buckets.size =
        unbounded.buckets.size - (unbounded.buckets.size - bound) := by
      rw [shrinks.buckets]
      exact List.length_drop
    rcases Nat.lt_or_ge unbounded.buckets.size bound with few | many
    · right
      rw [Nat.sub_eq_zero_of_le few.le]
      rfl
    · left
      have same : (limiter.buckets.erase check.key).items.length =
        (limiter.buckets.erase check.key).size := rfl
      omega
  refine ⟨?_, ?_, ?_, ?_⟩
  · simpa [next, RateLimiter.check, unboundedNext] using shrinks.capacity
  · simpa [next, RateLimiter.check, unboundedNext] using shrinks.rate
  · apply OrderedDict.eq_of_items
    rw [evicted, recent, unboundedNext]
    simp only [OrderedDict.dropFirst, OrderedDict.size, spend_items, taken, split]
    exact drop_excess _ _ _ enough
  · intro item member
    rw [unboundedNext, spend_items] at member
    rcases List.mem_append.mp member with old | new
    · exact shrinks.quiet item (List.mem_filter.mp old).1
    · rw [List.mem_singleton.mp new]
      obtain ⟨suppressed, loggedAt⟩ := take_kept (unbounded.capacity check.kind)
        (unbounded.rate check.kind) check.now (unbounded.asked check)
      simp only [RateLimiter.taken, suppressed, loggedAt]
      cases stored : unbounded.buckets.get? check.key with
      | none => simp [asked, stored]
      | some bucket =>
          simpa [asked, stored] using shrinks.quiet _ (OrderedDict.get?_eq_some.mp stored)

theorem waits_of_shrinks (shrinks : Shrinks bound limiter unbounded) (positive : 1 ≤ bound)
    (spendable : Spendable unbounded) {checks : List Check}
    (recovered : ∀ visit ∈ Machine.visits unboundedNext unbounded checks,
      Recovered bound visit.1 visit.2) :
    waits bound limiter checks = unboundedWaits unbounded checks := by
  induction checks generalizing limiter unbounded with
  | nil => rfl
  | cons check checks ih =>
      have here := recovered (unbounded, check) (List.mem_cons_self ..)
      have later := ih (shrinks.checked positive spendable here) (spendable.spent check)
        fun visit member => recovered visit (List.mem_cons_of_mem _ member)
      simp only [waits, unboundedWaits, Machine.visits, List.map_cons] at later ⊢
      rw [check_wait, spend_wait, shrinks.taken spendable here, later]

/-- Eviction is invisible in every sequence of checks in which a pair that comes back after `bound` or
more other pairs were asked has its whole capacity again: every wait is the one of the same limiter
with no bound on its table. -/
theorem eviction_is_invisible (bound : ℕ) (positive : 1 ≤ bound) (writes reads : ℤ)
    (limits : 1 ≤ writes ∧ 1 ≤ reads) (windowSeconds : ℚ) (checks : List Check)
    (recovered : ∀ visit ∈
      Machine.visits unboundedNext (create writes reads windowSeconds) checks,
        Recovered bound visit.1 visit.2) :
    waits bound (create writes reads windowSeconds) checks =
      unboundedWaits (create writes reads windowSeconds) checks := by
  apply waits_of_shrinks _ positive (spendable_create limits windowSeconds) recovered
  refine ⟨rfl, rfl, OrderedDict.eq_of_items ?_, ?_⟩
  · simp [create, recent, OrderedDict.dropFirst, OrderedDict.empty]
  · simp [create, OrderedDict.empty]

/-! ### A pair that is forgotten too early -/

/-- The pairs that are below their capacity at a moment, the refill up to then counted. -/
def belowFull (limiter : RateLimiter) (now : ℚ) : List (String × Kind) :=
  (limiter.buckets.items.filter fun item =>
    item.2.tokens + (now - item.2.updated) * limiter.rate item.1.2 < limiter.capacity item.1.2).map
      Prod.fst

/-- At no moment more pairs than the bound are below their capacity.  Then some pair that is not in
use can always be dropped instead. -/
def NeverCrowded (bound : ℕ) (limiter : RateLimiter) (checks : List Check) : Prop :=
  ∀ visit ∈ Machine.visits unboundedNext limiter checks, ∀ moment, visit.2.now ≤ moment →
    ((unboundedNext visit.1 visit.2).belowFull moment).length ≤ bound

/-- Fewer pairs are below their capacity as time goes by. -/
theorem belowFull_antitone {limiter : RateLimiter} (gains : ∀ kind, 0 ≤ limiter.rate kind)
    {now later : ℚ} (forward : now ≤ later) :
    (limiter.belowFull later).length ≤ (limiter.belowFull now).length := by
  rw [belowFull, belowFull, List.length_map, List.length_map, ← List.countP_eq_length_filter,
    ← List.countP_eq_length_filter]
  apply List.countP_mono_left
  intro item _ short
  have gained : (now - item.2.updated) * limiter.rate item.1.2 ≤
      (later - item.2.updated) * limiter.rate item.1.2 :=
    mul_le_mul_of_nonneg_right (by linarith) (gains item.1.2)
  simp only [decide_eq_true_eq] at short ⊢
  linarith

theorem neverCrowded_of_checks {limiter : RateLimiter} (gains : ∀ kind, 0 ≤ limiter.rate kind)
    {checks : List Check} (few : ∀ visit ∈ Machine.visits unboundedNext limiter checks,
      ((unboundedNext visit.1 visit.2).belowFull visit.2.now).length ≤ bound) :
    NeverCrowded bound limiter checks := by
  intro visit member moment forward
  obtain ⟨first, second, -, here⟩ := Machine.mem_visits_split _ member
  have rates : (Machine.run unboundedNext limiter first).rate = limiter.rate :=
    Machine.run_invariant unboundedNext (fun other => other.rate = limiter.rate) (fun _ => True) rfl
      (fun _ _ _ same => same) first fun _ _ => trivial
  apply (belowFull_antitone _ forward).trans (few visit member)
  intro kind
  rw [unboundedNext, spend_rate, here, rates]
  exact gains kind

/-- A limiter for two writes in two seconds. -/
def twoWrites : RateLimiter := create 2 2 2

/-- One client spends its two writes, and another one a write. -/
def twoClients : List Check := [⟨"a", .write, 0⟩, ⟨"a", .write, 0⟩, ⟨"b", .write, 0⟩]

/-- A third client asks when the first has its two writes again, and then the first. -/
def forgottenRested : List Check := twoClients ++ [⟨"c", .write, 2⟩, ⟨"a", .write, 2⟩]

theorem a_rested_pair_is_forgotten_unnoticed :
    waits 2 twoWrites forgottenRested = unboundedWaits twoWrites forgottenRested :=
  eviction_is_invisible 2 (by decide) 2 2 (by decide) 2 forgottenRested (by decide +kernel)

/-- A third client asks when only the first is below its capacity, and then the first asks twice. -/
def forgottenEarly : List Check :=
  twoClients ++ [⟨"c", .write, 1⟩, ⟨"a", .write, 1⟩, ⟨"a", .write, 1⟩]

theorem a_busy_pair_is_forgotten :
    (forgottenEarly.map Check.now).Pairwise (· ≤ ·) ∧ NeverCrowded 2 twoWrites forgottenEarly ∧
      waits 2 twoWrites forgottenEarly = [0, 0, 0, 0, 0, 0] ∧
      unboundedWaits twoWrites forgottenEarly = [0, 0, 0, 0, 0, 1] := by
  refine ⟨by decide +kernel, ?_, by decide +kernel, by decide +kernel⟩
  apply neverCrowded_of_checks
  · intro kind
    cases kind <;> decide +kernel
  · decide +kernel

end FeathrEvents.RateLimiter
