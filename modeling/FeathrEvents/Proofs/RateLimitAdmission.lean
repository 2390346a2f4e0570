/-
Module: FeathrEvents.Proofs.RateLimitAdmission
Purpose: Which checks of a pair are granted: as long as its bucket stays in the table, exactly those that
  a token bucket of its own would grant, whatever the other pairs do.
Trusted boundary: none
Main exports: ownTimes, ownWaits, grants, Kept, Mirrors, mirrors_run, AdmissionLaw, admission_law
-/
import FeathrEvents.Lib.TokenBucket
import FeathrEvents.Proofs.RateLimitTable

namespace FeathrEvents.RateLimiter

open Collections (OrderedDict)
open TokenBucket (Follows granted)

/-- The times at which a pair is checked. -/
def ownTimes (key : String × Kind) (checks : List Check) : List ℚ :=
  (checks.filter fun check => check.key = key).map Check.now

/-- The waits that the checks of a pair return. -/
def ownWaits (bound : ℕ) (limiter : RateLimiter) (key : String × Kind) (checks : List Check) :
    List ℚ :=
  ((Machine.visits (next bound) limiter checks).filter fun visit => visit.2.key = key).map
    fun visit => (visit.1.check bound visit.2).1

/-- The times at which checks of a pair are granted. -/
def grants (bound : ℕ) (limiter : RateLimiter) (key : String × Kind)
    (checks : List Check) : List ℚ :=
  ((Machine.visits (next bound) limiter checks).filter fun visit =>
    visit.2.key = key ∧ (visit.1.check bound visit.2).1 = 0).map fun visit => visit.2.now

/-- The bucket of a pair is not evicted: once the pair was checked its bucket is in the table.  A
bucket made anew after an eviction would be full again. -/
def Kept (bound : ℕ) (limiter : RateLimiter) (key : String × Kind) (checks : List Check) : Prop :=
  ∀ count ≤ checks.length, (∃ check ∈ checks.take count, check.key = key) →
    key ∈ (run bound limiter (checks.take count)).buckets.keys

instance (bound : ℕ) (limiter : RateLimiter) (key : String × Kind) (checks : List Check) :
    Decidable (Kept bound limiter key checks) :=
  inferInstanceAs (Decidable (∀ count ≤ checks.length,
    (∃ check ∈ checks.take count, check.key = key) →
      key ∈ (run bound limiter (checks.take count)).buckets.keys))

variable {bound : ℕ} {limiter : RateLimiter} {key : String × Kind} {checks : List Check}

/-! ### Snoc -/

theorem run_snoc (checks : List Check) (check : Check) :
    run bound limiter (checks ++ [check]) = next bound (run bound limiter checks) check :=
  Machine.run_snoc ..

theorem ownTimes_snoc (checks : List Check) (check : Check) :
    ownTimes key (checks ++ [check]) =
      ownTimes key checks ++ if check.key = key then [check.now] else [] := by
  by_cases mine : check.key = key <;> simp [ownTimes, mine]

theorem ownWaits_snoc (checks : List Check) (check : Check) :
    ownWaits bound limiter key (checks ++ [check]) = ownWaits bound limiter key checks ++
      if check.key = key then [((run bound limiter checks).taken check).1] else [] := by
  by_cases mine : check.key = key
  · simp [ownWaits, mine, check_wait, run]
  · simp [ownWaits, mine]

theorem grants_snoc (checks : List Check) (check : Check) :
    grants bound limiter key (checks ++ [check]) = grants bound limiter key checks ++
      if check.key = key ∧ ((run bound limiter checks).taken check).1 = 0 then [check.now]
      else [] := by
  simp only [grants, Machine.visits_snoc, List.filter_append, List.map_append, List.filter_cons,
    List.filter_nil, check_wait, apply_ite (List.map _)]
  congr 1
  exact if_congr decide_eq_true_iff rfl rfl

theorem Kept.left {more : List Check} (kept : Kept bound limiter key (checks ++ more)) :
    Kept bound limiter key checks := by
  intro count within seen
  have same : (checks ++ more).take count = checks.take count := List.take_append_of_le_length within
  have here := kept count (by simp; omega)
  rw [same] at here
  exact here seen

/-! ### The bucket of a pair -/

theorem spend_get? (limiter : RateLimiter) (check : Check) (key : String × Kind) :
    (limiter.spend check).2.buckets.get? key =
      if key = check.key then some (limiter.taken check).2 else limiter.buckets.get? key := by
  simp only [spend, OrderedDict.get?_set, OrderedDict.get?_moveToEnd]
  split
  · rfl
  · rfl

/-- Eviction only takes buckets out. -/
theorem evictFull_sublist (bound : ℕ) (capacity : Kind → ℤ)
    (items : List ((String × Kind) × Bucket)) (buckets : OrderedDict (String × Kind) Bucket) :
    (evictFull bound capacity items buckets).items.Sublist buckets.items := by
  induction items generalizing buckets with
  | nil => exact List.drop_sublist _ _
  | cons item items ih =>
      simp only [evictFull]
      have fewer : (if (capacity item.1.2 : ℚ) ≤ item.2.tokens then buckets.erase item.1
          else buckets).items.Sublist buckets.items := by
        split
        · exact List.filter_sublist
        · exact List.Sublist.refl _
      generalize (if (capacity item.1.2 : ℚ) ≤ item.2.tokens then buckets.erase item.1
          else buckets) = remaining at fewer ⊢
      split
      · exact fewer
      · exact (ih _).trans fewer

theorem evictIfNeeded_sublist (bound : ℕ) (limiter : RateLimiter) :
    (limiter.evictIfNeeded bound).buckets.items.Sublist limiter.buckets.items := by
  unfold evictIfNeeded
  split
  · exact List.Sublist.refl _
  · exact evictFull_sublist ..

/-- A pair that is in the table after a check has the bucket that the check left it. -/
theorem next_get? {check : Check} (stays : key ∈ (next bound limiter check).buckets.keys) :
    (next bound limiter check).buckets.get? key = (limiter.spend check).2.buckets.get? key := by
  obtain ⟨bucket, stored⟩ := OrderedDict.mem_keys.mp stays
  have member := (evictIfNeeded_sublist ..).subset (OrderedDict.get?_eq_some.mp stored)
  rw [stored]
  exact (OrderedDict.get?_eq_some.mpr member).symm

/-- A pair that was not in the table comes in by its own check only. -/
theorem next_get?_eq_none {check : Check} (other : check.key ≠ key)
    (absent : limiter.buckets.get? key = none) :
    (next bound limiter check).buckets.get? key = none := by
  by_contra present
  have stays : key ∈ (next bound limiter check).buckets.keys := by
    rwa [OrderedDict.get?_eq_none, not_not] at present
  rw [next_get? stays, spend_get?, if_neg (Ne.symm other)] at present
  exact present absent

variable {capacity : ℤ} {rate : ℚ}

/-- What a bucket answers and what it is left with, when its count follows some grants. -/
theorem take_follows {bucket : Bucket} {grants : List ℚ} {now : ℚ} (gains : 0 ≤ rate)
    (follows : Follows (capacity : ℚ) rate bucket.tokens bucket.updated grants)
    (later : bucket.updated ≤ now) :
    (bucket.take capacity rate now).1 = TokenBucket.wait (capacity : ℚ) rate grants now ∧
      (bucket.take capacity rate now).2.updated = now ∧
      Follows (capacity : ℚ) rate (bucket.take capacity rate now).2.tokens now
        (TokenBucket.ask (capacity : ℚ) rate grants now) := by
  have counted : min (capacity : ℚ) (bucket.tokens + (now - bucket.updated) * rate) =
      TokenBucket.supply (capacity : ℚ) rate grants now := follows now later
  simp only [Bucket.take, TokenBucket.wait, TokenBucket.ask]
  by_cases there : 1 ≤ TokenBucket.supply (capacity : ℚ) rate grants now
  · simp only [counted, if_pos there]
    rw [← follows now later]
    exact ⟨trivial, trivial, follows.spent later⟩
  · simp only [counted, if_neg there]
    rw [← follows now later]
    exact ⟨trivial, trivial, follows.counted gains later⟩

/-- What the bucket of a pair says about its own checks so far.  It does as a token bucket does that
is asked at the times of these checks only. -/
structure Mirrors (capacity : ℤ) (rate : ℚ) (key : String × Kind) (limiter : RateLimiter)
    (times waits grants : List ℚ) : Prop where
  limit : limiter.capacity key.2 = capacity
  gain : limiter.rate key.2 = rate
  fresh : times = [] → limiter.buckets.get? key = none
  follows : times ≠ [] → ∃ bucket, limiter.buckets.get? key = some bucket ∧
    bucket.updated ∈ times ∧ Follows (capacity : ℚ) rate bucket.tokens bucket.updated
      (granted (capacity : ℚ) rate [] times)
  waits : waits = TokenBucket.waits (capacity : ℚ) rate [] times
  grants : grants = (granted (capacity : ℚ) rate [] times).reverse

section Step

variable {times waits grants : List ℚ} {check : Check}

/-- The bucket that the pair is asked for, a new one or its own, follows its grants. -/
theorem Mirrors.asked (mirrors : Mirrors capacity rate check.key limiter times waits grants)
    (gains : 0 ≤ rate) (ordered : ∀ time ∈ times, time ≤ check.now) :
    (limiter.asked check).updated ≤ check.now ∧
      Follows (capacity : ℚ) rate (limiter.asked check).tokens (limiter.asked check).updated
        (granted (capacity : ℚ) rate [] times) := by
  by_cases first : times = []
  · have new : limiter.asked check = { tokens := capacity, updated := check.now } := by
      rw [RateLimiter.asked, mirrors.fresh first, Option.getD_none, ← mirrors.limit]
      rfl
    rw [new, first]
    exact ⟨le_rfl, TokenBucket.follows_full gains check.now⟩
  · obtain ⟨bucket, stored, updated, follows⟩ := mirrors.follows first
    have own : limiter.asked check = bucket := by
      rw [RateLimiter.asked, stored, Option.getD_some]
    rw [own]
    exact ⟨ordered _ updated, follows⟩

/-- A check of the pair waits as long as the request of a bucket of its own. -/
theorem Mirrors.wait (mirrors : Mirrors capacity rate check.key limiter times waits grants)
    (gains : 0 ≤ rate) (ordered : ∀ time ∈ times, time ≤ check.now) :
    (limiter.taken check).1 =
      TokenBucket.wait (capacity : ℚ) rate (granted (capacity : ℚ) rate [] times) check.now := by
  obtain ⟨earlier, follows⟩ := mirrors.asked gains ordered
  have limit : limiter.capacity check.kind = capacity := mirrors.limit
  have gain : limiter.rate check.kind = rate := mirrors.gain
  rw [taken, limit, gain]
  exact (take_follows gains follows earlier).1

/-- The step for a check of the pair. -/
theorem Mirrors.own (mirrors : Mirrors capacity rate check.key limiter times waits grants)
    (gains : 0 < rate) (ordered : ∀ time ∈ times, time ≤ check.now)
    (stays : check.key ∈ (next bound limiter check).buckets.keys) :
    Mirrors capacity rate check.key (next bound limiter check) (times ++ [check.now])
      (waits ++ [(limiter.taken check).1])
      (grants ++ if (limiter.taken check).1 = 0 then [check.now] else []) := by
  obtain ⟨earlier, follows⟩ := mirrors.asked gains.le ordered
  have limit : limiter.capacity check.kind = capacity := mirrors.limit
  have gain : limiter.rate check.kind = rate := mirrors.gain
  have wait := mirrors.wait gains.le ordered
  obtain ⟨-, updated, left⟩ := take_follows gains.le follows earlier
  refine ⟨?_, ?_, by simp, fun _ => ⟨(limiter.taken check).2, ?_, ?_, ?_⟩, ?_, ?_⟩
  · simpa [next, RateLimiter.check] using mirrors.limit
  · simpa [next, RateLimiter.check] using mirrors.gain
  · rw [next_get? stays, spend_get?, if_pos rfl]
  · rw [taken, limit, gain, updated]
    simp
  · rw [TokenBucket.granted_snoc, taken, limit, gain, updated]
    exact left
  · rw [TokenBucket.waits_append, mirrors.waits, wait]
    rfl
  · rw [TokenBucket.granted_snoc, mirrors.grants, wait, TokenBucket.ask]
    simp only [TokenBucket.wait_eq_zero_iff gains]
    split
    · exact List.reverse_cons.symm
    · exact List.append_nil _

/-- The step for a check of another pair. -/
theorem Mirrors.other (mirrors : Mirrors capacity rate key limiter times waits grants)
    (different : check.key ≠ key)
    (stays : times ≠ [] → key ∈ (next bound limiter check).buckets.keys) :
    Mirrors capacity rate key (next bound limiter check) times waits grants := by
  refine ⟨?_, ?_, fun none => ?_, fun some => ?_,
    mirrors.waits, mirrors.grants⟩
  · simpa [next, RateLimiter.check] using mirrors.limit
  · simpa [next, RateLimiter.check] using mirrors.gain
  · exact next_get?_eq_none different (mirrors.fresh none)
  · rw [next_get? (stays some), spend_get?, if_neg (Ne.symm different)]
    exact mirrors.follows some

end Step

variable {check : Check}

/-- The clock does not go back, and the bucket of a pair is not evicted. -/
structure Tracked (bound : ℕ) (limiter : RateLimiter) (key : String × Kind) (checks : List Check) :
    Prop where
  ordered : (checks.map Check.now).Pairwise (· ≤ ·)
  kept : Kept bound limiter key checks

theorem Tracked.left {more : List Check} (tracked : Tracked bound limiter key (checks ++ more)) :
    Tracked bound limiter key checks := by
  have ordered := tracked.ordered
  rw [List.map_append, List.pairwise_append] at ordered
  exact ⟨ordered.1, tracked.kept.left⟩

theorem Tracked.before {more : List Check}
    (tracked : Tracked bound limiter key (checks ++ check :: more)) :
    ∀ time ∈ ownTimes key checks, time ≤ check.now := by
  have ordered := tracked.ordered
  rw [List.map_append, List.pairwise_append] at ordered
  intro time member
  obtain ⟨earlier, among, rfl⟩ := List.mem_map.mp member
  apply ordered.2.2 _ (List.mem_map_of_mem (List.mem_filter.mp among).1) check.now
  exact List.mem_cons_self ..

/-- The bucket mirrors the checks of its pair in every run in which it is not evicted, however many
checks of other pairs come in between. -/
theorem mirrors_run (start : Mirrors capacity rate key limiter [] [] []) (gains : 0 < rate)
    (tracked : Tracked bound limiter key checks) :
    Mirrors capacity rate key (run bound limiter checks) (ownTimes key checks)
      (ownWaits bound limiter key checks) (grants bound limiter key checks) := by
  induction checks using List.reverseRecOn with
  | nil => exact start
  | append_singleton checks check ih =>
      have mirrors := ih tracked.left
      have kept := tracked.kept (checks ++ [check]).length le_rfl
      rw [List.take_length, run_snoc] at kept
      rw [run_snoc, ownTimes_snoc, ownWaits_snoc, grants_snoc]
      by_cases mine : check.key = key
      · subst mine
        simp only [true_and, if_true]
        apply mirrors.own gains tracked.before
        exact kept ⟨check, by simp, rfl⟩
      · simp only [mine, false_and, if_false, List.append_nil]
        apply mirrors.other mine
        intro some
        obtain ⟨time, member⟩ := List.exists_mem_of_ne_nil _ some
        obtain ⟨earlier, among, -⟩ := List.mem_map.mp member
        rw [List.mem_filter, decide_eq_true_eq] at among
        exact kept ⟨earlier, List.mem_append_left _ among.1, among.2⟩

/-! ### The law -/

/-- What a pair may be granted in some time. -/
def allowance (limiter : RateLimiter) (key : String × Kind) (elapsed : ℚ) : ℚ :=
  limiter.capacity key.2 + limiter.rate key.2 * elapsed

/-- The admission of the checks of a pair: which ones are granted, how many an interval can have,
and who is never refused. -/
structure AdmissionLaw (bound : ℕ) (limiter : RateLimiter) (key : String × Kind)
    (checks : List Check) : Prop where
  /-- A check is granted exactly when, from every earlier grant of the pair on, its grants and the
  check do not exceed the allowance. -/
  decided : ∀ before check after, checks = before ++ check :: after → check.key = key →
    (((run bound limiter before).check bound check).1 = 0 ↔
      ∀ earlier grant later, grants bound limiter key before = earlier ++ grant :: later →
        ((grant :: later).length : ℚ) + 1 ≤ limiter.allowance key (check.now - grant))
  /-- The grants in an interval do not exceed the allowance. -/
  bounded : ∀ start length, 0 ≤ length →
    ((grants bound limiter key checks).countP (TokenBucket.Within start length ·) : ℚ) ≤
      limiter.allowance key length
  /-- A pair whose checks do not exceed the allowance in any interval is never refused. -/
  conforming : (∀ start length, 0 ≤ length →
      ((ownTimes key checks).countP (TokenBucket.Within start length ·) : ℚ) ≤
        limiter.allowance key length) →
    ∀ wait ∈ ownWaits bound limiter key checks, wait = 0
  /-- Without a refused check all others of the pair return what they returned with it. -/
  refused : ∀ before check after, checks = before ++ check :: after → check.key = key →
    ((run bound limiter before).check bound check).1 ≠ 0 →
    ∀ others, Tracked bound limiter key others →
      ownTimes key others = ownTimes key (before ++ after) →
      ownWaits bound limiter key others =
        (ownWaits bound limiter key checks).eraseIdx (ownTimes key before).length
  /-- What other pairs are asked makes no difference. -/
  alone : ∀ others, Tracked bound limiter key others →
    ownTimes key others = ownTimes key checks →
    ownWaits bound limiter key others = ownWaits bound limiter key checks

theorem ownTimes_append (before after : List Check) :
    ownTimes key (before ++ after) = ownTimes key before ++ ownTimes key after := by
  rw [ownTimes, List.filter_append, List.map_append]
  rfl

theorem ownTimes_cons (mine : check.key = key) (after : List Check) :
    ownTimes key (check :: after) = check.now :: ownTimes key after := by
  simp [ownTimes, mine]

theorem mirrors_create (writes reads : ℤ) (windowSeconds : ℚ) (key : String × Kind) :
    Mirrors ((create writes reads windowSeconds).capacity key.2)
      ((create writes reads windowSeconds).rate key.2) key (create writes reads windowSeconds)
      [] [] [] where
  limit := rfl
  gain := rfl
  fresh _ := rfl
  follows some := absurd rfl some
  waits := rfl
  grants := rfl

theorem rate_pos {writes reads : ℤ} {windowSeconds : ℚ} (window : 0 < windowSeconds)
    {key : String × Kind} (room : 1 ≤ (create writes reads windowSeconds).capacity key.2) :
    0 < (create writes reads windowSeconds).rate key.2 := by
  have same : (create writes reads windowSeconds).rate key.2 =
      (create writes reads windowSeconds).capacity key.2 / windowSeconds := by
    cases key.2 <;> rfl
  rw [same]
  apply div_pos _ window
  exact_mod_cast room

theorem Tracked.ascends (tracked : Tracked bound limiter key checks) :
    (ownTimes key checks).Pairwise (· ≤ ·) :=
  tracked.ordered.sublist (List.filter_sublist.map Check.now)

/-- A check in a run waits as long as the request of a bucket of its own. -/
theorem wait_in_run {before after : List Check} (start : Mirrors capacity rate key limiter [] [] [])
    (gains : 0 < rate) (tracked : Tracked bound limiter key (before ++ check :: after))
    (mine : check.key = key) :
    ((run bound limiter before).check bound check).1 = TokenBucket.wait (capacity : ℚ) rate
      (granted (capacity : ℚ) rate [] (ownTimes key before)) check.now := by
  subst mine
  exact (mirrors_run start gains tracked.left).wait gains.le tracked.before

/-- A splitting of a reversed list, read from its other end. -/
theorem split_reverse {α : Type*} {items first second : List α} {item : α} :
    items.reverse = first ++ item :: second ↔ items = second.reverse ++ item :: first.reverse := by
  constructor
  · intro split
    rw [← List.reverse_reverse items, split]
    simp
  · rintro rfl
    simp

theorem law_of_mirrors
    (start : Mirrors (limiter.capacity key.2) (limiter.rate key.2) key limiter [] [] [])
    (room : 1 ≤ limiter.capacity key.2) (gains : 0 < limiter.rate key.2)
    (tracked : Tracked bound limiter key checks) : AdmissionLaw bound limiter key checks := by
  have one : (1 : ℚ) ≤ limiter.capacity key.2 := by exact_mod_cast room
  have mirrors := mirrors_run start gains tracked
  constructor
  case decided =>
    rintro before check after rfl mine
    rw [wait_in_run start gains tracked mine, TokenBucket.wait_eq_zero_iff_law gains one,
      (mirrors_run start gains tracked.left).grants]
    constructor
    · intro law earlier grant later split
      have bound := law later.reverse grant earlier.reverse (split_reverse.mp split)
      rw [List.length_reverse] at bound
      rw [List.length_cons, Nat.cast_add, Nat.cast_one]
      exact bound
    · intro law later grant earlier split
      have bound := law earlier.reverse grant later.reverse (by rw [split]; simp)
      rw [List.length_cons, List.length_reverse, Nat.cast_add, Nat.cast_one] at bound
      exact bound
  case bounded =>
    intro start length forward
    rw [mirrors.grants, List.countP_reverse]
    apply TokenBucket.countP_within_le gains.le (zero_le_one.trans one) _ _ start forward
    · exact TokenBucket.descends_granted _ _ tracked.ascends
    · exact TokenBucket.backed_granted _
  case conforming =>
    intro conforms
    rw [mirrors.waits]
    exact TokenBucket.waits_of_conforms gains tracked.ascends conforms
  case refused =>
    rintro before check after rfl mine refused others trackedOthers same
    rw [wait_in_run start gains tracked mine] at refused
    rw [(mirrors_run start gains trackedOthers).waits, mirrors.waits, same, ownTimes_append,
      ownTimes_append, ownTimes_cons mine]
    exact TokenBucket.waits_of_refused _ _ refused
  case alone =>
    intro others trackedOthers same
    rw [(mirrors_run start gains trackedOthers).waits, mirrors.waits, same]

/-- The admission law of the limiter: as long as the bucket of a pair is not evicted, its checks are
granted exactly when they stay within the allowance after each of its grants, whatever other pairs are
asked. -/
theorem admission_law (bound : ℕ) (writes reads : ℤ) (windowSeconds : ℚ)
    (window : 0 < windowSeconds)
    (key : String × Kind) (room : 1 ≤ (create writes reads windowSeconds).capacity key.2)
    (checks : List Check) (tracked : Tracked bound (create writes reads windowSeconds) key checks) :
    AdmissionLaw bound (create writes reads windowSeconds) key checks :=
  law_of_mirrors (mirrors_create writes reads windowSeconds key) room (rate_pos window room) tracked

/-- A client that has spent its two writes is refused a third, and asks again in time. -/
def refusedOnce : List Check := twoClients ++ [⟨"a", .write, 0⟩, ⟨"a", .write, 1⟩]

theorem a_client_is_refused_once :
    AdmissionLaw 2 twoWrites ("a", .write) refusedOnce ∧
      ownWaits 2 twoWrites ("a", .write) refusedOnce = [0, 0, 1, 0] :=
  ⟨admission_law 2 2 2 2 (by decide +kernel) ("a", .write) (by decide +kernel) refusedOnce
      ⟨by decide +kernel, by decide +kernel⟩,
    by decide +kernel⟩

end FeathrEvents.RateLimiter
