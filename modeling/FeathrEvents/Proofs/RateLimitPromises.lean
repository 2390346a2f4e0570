/-
Module: FeathrEvents.Proofs.RateLimitPromises
Purpose: A refused pair is told the time at which it will be granted: until then it is refused with what
  is left of its wait, and from then on it is granted, also when its bucket was evicted meanwhile.
Trusted boundary: none
Main exports: LimiterCall, afterCall, calledRun, Promised, promised_run, PromiseKept, retry_after_is_kept
-/
import Mathlib.Tactic.FieldSimp
import FeathrEvents.Proofs.RateLimitAdmission

namespace FeathrEvents

/-- A call that changes the limiter. -/
inductive LimiterCall where
  | check (request : Check)
  | shouldLog (client : String) (kind : Kind) (now : ℚ)

def LimiterCall.now : LimiterCall → ℚ
  | .check request => request.now
  | .shouldLog _ _ now => now

namespace RateLimiter

open Collections (OrderedDict)

/-- The limiter after a call. -/
def afterCall (bound : ℕ) (limiter : RateLimiter) : LimiterCall → RateLimiter
  | .check check => next bound limiter check
  | .shouldLog client kind now => (limiter.shouldLog client kind now).2

/-- The limiter after a list of calls. -/
def calledRun (bound : ℕ) (limiter : RateLimiter) (calls : List LimiterCall) : RateLimiter :=
  Machine.run (afterCall bound) limiter calls

variable {bound : ℕ} {limiter : RateLimiter} {key : String × Kind} {check : Check} {due : ℚ}

theorem calledRun_snoc (limiter : RateLimiter) (calls : List LimiterCall) (call : LimiterCall) :
    calledRun bound limiter (calls ++ [call]) =
      afterCall bound (calledRun bound limiter calls) call :=
  Machine.run_snoc ..

/-! ### One call -/

/-- The log line moves neither the count of a bucket nor its time, and brings no bucket in. -/
theorem shouldLog_get? (client : String) (kind : Kind) (now : ℚ) (limiter : RateLimiter)
    (key : String × Kind) :
    ((limiter.shouldLog client kind now).2.buckets.get? key).map
        (fun bucket => (bucket.tokens, bucket.updated)) =
      (limiter.buckets.get? key).map fun bucket => (bucket.tokens, bucket.updated) := by
  unfold shouldLog
  split
  · rfl
  · rename_i bucket stored
    dsimp only
    by_cases same : key = (client, kind)
    · subst same
      split <;> simp [OrderedDict.get?_set, stored]
    · split <;> simp [OrderedDict.get?_set, same]

theorem shouldLog_limits (client : String) (kind : Kind) (now : ℚ) (limiter : RateLimiter) :
    (limiter.shouldLog client kind now).2.capacity = limiter.capacity ∧
      (limiter.shouldLog client kind now).2.rate = limiter.rate := by
  unfold shouldLog
  split
  · exact ⟨rfl, rfl⟩
  · dsimp only
    split <;> exact ⟨rfl, rfl⟩

theorem afterCall_limits (bound : ℕ) (limiter : RateLimiter) (call : LimiterCall) :
    (afterCall bound limiter call).capacity = limiter.capacity ∧
      (afterCall bound limiter call).rate = limiter.rate := by
  cases call with
  | check check => simp [afterCall, next, RateLimiter.check]
  | shouldLog client kind now => exact shouldLog_limits client kind now limiter

theorem calledRun_limits (bound : ℕ) (limiter : RateLimiter) (calls : List LimiterCall) :
    (calledRun bound limiter calls).capacity = limiter.capacity ∧
      (calledRun bound limiter calls).rate = limiter.rate := by
  induction calls using List.reverseRecOn with
  | nil => exact ⟨rfl, rfl⟩
  | append_singleton calls call ih =>
      have step := afterCall_limits bound (calledRun bound limiter calls) call
      rw [calledRun_snoc, step.1, step.2]
      exact ih

/-- A pair is gone after a check, or it has the bucket that the check left it. -/
theorem next_get?_cases (bound : ℕ) (limiter : RateLimiter) (check : Check) (key : String × Kind) :
    (next bound limiter check).buckets.get? key = none ∨
      (next bound limiter check).buckets.get? key =
        if key = check.key then some (limiter.taken check).2 else limiter.buckets.get? key := by
  by_cases stays : key ∈ (next bound limiter check).buckets.keys
  · right
    rw [next_get? stays, spend_get?]
  · left
    exact OrderedDict.get?_eq_none.mpr stays

/-! ### A promise -/

/-- A positive limit, which refills. -/
structure Limits (key : String × Kind) (limiter : RateLimiter) : Prop where
  room : 1 ≤ limiter.capacity key.2
  gains : 0 < limiter.rate key.2

/-- The bucket has less than a token until a time, at which it has one. -/
def DueAt (rate : ℚ) (due : ℚ) (bucket : Bucket) : Prop :=
  bucket.tokens < 1 ∧ bucket.updated + (1 - bucket.tokens) / rate = due

/-- The pair has no bucket, or one that has a token at the time that was promised. -/
def Promised (due : ℚ) (key : String × Kind) (limiter : RateLimiter) : Prop :=
  ∀ bucket, limiter.buckets.get? key = some bucket → DueAt (limiter.rate key.2) due bucket

/-- A take from a bucket with less than a token: refused with what is left until it is due, or
granted from then on.  A refused one leaves the promise as it was. -/
theorem take_of_due {capacity : ℤ} (room : 1 ≤ capacity) {rate : ℚ} (gains : 0 < rate)
    {bucket : Bucket} (promised : DueAt rate due bucket) (now : ℚ) :
    (due ≤ now ∧ (bucket.take capacity rate now).1 = 0) ∨
    (now < due ∧ (bucket.take capacity rate now).1 = due - now ∧
      DueAt rate due (bucket.take capacity rate now).2) := by
  obtain ⟨short, rfl⟩ := promised
  have one : (1 : ℚ) ≤ capacity := by exact_mod_cast room
  have token : bucket.updated + (1 - bucket.tokens) / rate ≤ now ↔
      1 ≤ bucket.tokens + (now - bucket.updated) * rate := by
    rw [← le_sub_iff_add_le', div_le_iff₀ gains, sub_le_iff_le_add']
  by_cases there : 1 ≤ bucket.tokens + (now - bucket.updated) * rate
  · left
    simp only [Bucket.take, if_pos (le_min one there), token.mpr there, true_and]
  · right
    have few := not_le.mp there
    have unclamped : min (capacity : ℚ) (bucket.tokens + (now - bucket.updated) * rate) =
        bucket.tokens + (now - bucket.updated) * rate :=
      min_eq_right (few.le.trans one)
    have left : (1 - (bucket.tokens + (now - bucket.updated) * rate)) / rate =
        bucket.updated + (1 - bucket.tokens) / rate - now := by
      field_simp
      ring
    simp only [Bucket.take, unclamped, if_neg there, DueAt, left]
    exact ⟨not_le.mp (fun reached => there (token.mp reached)), trivial, few, by ring⟩

/-- A refusal makes a promise: the wait ends when the bucket has a token. -/
theorem take_promises {capacity : ℤ} {rate : ℚ} (gains : 0 < rate) (bucket : Bucket) (now : ℚ)
    (refused : (bucket.take capacity rate now).1 ≠ 0) :
    0 < (bucket.take capacity rate now).1 ∧
      DueAt rate (now + (bucket.take capacity rate now).1)
        (bucket.take capacity rate now).2 := by
  simp only [Bucket.take, DueAt] at refused ⊢
  split at refused
  · exact absurd rfl refused
  · rename_i short
    rw [if_neg short]
    have few := not_le.mp short
    exact ⟨div_pos (sub_pos.mpr few) gains, few, rfl⟩

/-- A new bucket is full, so it is granted. -/
theorem taken_of_absent (room : 1 ≤ limiter.capacity check.kind)
    (absent : limiter.buckets.get? check.key = none) : (limiter.taken check).1 = 0 := by
  have one : (1 : ℚ) ≤ limiter.capacity check.kind := by exact_mod_cast room
  simp [taken, asked, absent, Bucket.take, one]

/-- A check of the pair while the promise stands. -/
theorem Promised.taken (promised : Promised due check.key limiter)
    (limits : Limits check.key limiter) :
    (due ≤ check.now → (limiter.taken check).1 = 0) ∧
    (check.key ∈ limiter.buckets.keys → check.now < due →
      (limiter.taken check).1 = due - check.now) ∧
    ((limiter.taken check).1 ≠ 0 →
      DueAt (limiter.rate check.kind) due (limiter.taken check).2) := by
  cases stored : limiter.buckets.get? check.key with
  | none =>
      have granted := taken_of_absent limits.room stored
      refine ⟨fun _ => granted, fun present => ?_, fun refused => absurd granted refused⟩
      exact absurd present (OrderedDict.get?_eq_none.mp stored)
  | some bucket =>
      have own : limiter.taken check =
          bucket.take (limiter.capacity check.kind) (limiter.rate check.kind) check.now := by
        simp [RateLimiter.taken, asked, stored]
      rw [own]
      rcases take_of_due limits.room limits.gains (promised bucket stored) check.now with
        ⟨reached, granted⟩ | ⟨early, wait, due⟩
      · refine ⟨fun _ => granted, fun _ early => absurd reached (not_le.mpr early), ?_⟩
        exact fun refused => absurd granted refused
      · exact ⟨fun reached => absurd early (not_lt.mpr reached), fun _ _ => wait, fun _ => due⟩

/-- A call that does not grant the pair a token keeps the promise. -/
theorem Promised.afterCall (promised : Promised due key limiter) (limits : Limits key limiter)
    (call : LimiterCall)
    (ungranted : ∀ check, call = .check check → check.key = key →
      (limiter.check bound check).1 ≠ 0) :
    Promised due key (afterCall bound limiter call) := by
  intro bucket stored
  rw [(afterCall_limits bound limiter call).2]
  cases call with
  | check check =>
      rcases next_get?_cases bound limiter check key with gone | kept
      · rw [RateLimiter.afterCall, gone] at stored
        cases stored
      · rw [RateLimiter.afterCall, kept] at stored
        by_cases mine : key = check.key
        · subst mine
          rw [if_pos rfl, Option.some.injEq] at stored
          rw [← stored]
          apply (promised.taken limits).2.2
          rw [← check_wait bound]
          exact ungranted check rfl rfl
        · rw [if_neg mine] at stored
          exact promised bucket stored
  | shouldLog client kind now =>
      have kept := shouldLog_get? client kind now limiter key
      rw [RateLimiter.afterCall] at stored
      rw [stored] at kept
      cases before : limiter.buckets.get? key with
      | none => simp [before] at kept
      | some old =>
          simp only [before, Option.map_some, Option.some.injEq, Prod.mk.injEq] at kept
          have due := promised old before
          rw [DueAt, ← kept.1, ← kept.2] at due
          exact due

/-! ### Runs -/

/-- No check of the pair among these calls is granted. -/
def Ungranted (bound : ℕ) (limiter : RateLimiter) (key : String × Kind)
    (calls : List LimiterCall) : Prop :=
  ∀ visit ∈ Machine.visits (afterCall bound) limiter calls, ∀ check, visit.2 = .check check →
    check.key = key → (visit.1.check bound check).1 ≠ 0

/-- The pair has its bucket before each of these calls and after the last one, so that what a
refusal said of it still holds. -/
def HasBucket (bound : ℕ) (limiter : RateLimiter) (key : String × Kind)
    (calls : List LimiterCall) : Prop :=
  ∀ first second, calls = first ++ second →
    key ∈ (calledRun bound limiter first).buckets.keys

theorem Ungranted.left {first second : List LimiterCall}
    (ungranted : Ungranted bound limiter key (first ++ second)) :
    Ungranted bound limiter key first := by
  intro visit member
  apply ungranted visit
  rw [Machine.visits_append]
  exact List.mem_append_left _ member

theorem Limits.calledRun (limits : Limits key limiter) (calls : List LimiterCall) :
    Limits key (calledRun bound limiter calls) := by
  obtain ⟨capacity, rate⟩ := calledRun_limits bound limiter calls
  constructor
  · rw [capacity]
    exact limits.room
  · rw [rate]
    exact limits.gains

/-- Without a grant the promise stands after every run: refused checks take nothing from a bucket,
and an evicted one comes back full. -/
theorem promised_run (promised : Promised due key limiter) (limits : Limits key limiter)
    {calls : List LimiterCall} (ungranted : Ungranted bound limiter key calls) :
    Promised due key (calledRun bound limiter calls) := by
  induction calls using List.reverseRecOn with
  | nil => exact promised
  | append_singleton calls call ih =>
      rw [calledRun_snoc]
      apply (ih ungranted.left).afterCall (limits.calledRun calls)
      intro check made mine
      apply ungranted (calledRun bound limiter calls, call) _ check made mine
      rw [Machine.visits_snoc]
      exact List.mem_append_right _ (List.mem_singleton_self _)

/-- Before the promised time nothing is granted to a pair that has its bucket. -/
theorem ungranted_of_early (promised : Promised due key limiter) (limits : Limits key limiter)
    {calls : List LimiterCall} (kept : HasBucket bound limiter key calls)
    (early : ∀ call ∈ calls, call.now < due) : Ungranted bound limiter key calls := by
  induction calls using List.reverseRecOn with
  | nil => simp [Ungranted]
  | append_singleton calls call ih =>
      have earlier : Ungranted bound limiter key calls := by
        apply ih
        · intro first second split
          exact kept first (second ++ [call]) (by rw [split, List.append_assoc])
        · exact fun other member => early other (List.mem_append_left _ member)
      intro visit member check made mine
      rw [Machine.visits_snoc] at member
      rcases List.mem_append.mp member with old | new
      · exact earlier visit old check made mine
      · rw [List.mem_singleton] at new
        subst new mine made
        have before := early (.check check) (by simp)
        have wait := ((promised_run promised limits earlier).taken (limits.calledRun calls)).2.1
          (kept calls [.check check] rfl) before
        rw [check_wait]
        change ((RateLimiter.calledRun bound limiter calls).taken check).1 ≠ 0
        rw [wait]
        exact (sub_pos.mpr before).ne'

/-- A refused check leaves its pair the promise that its wait made. -/
theorem promised_of_refused (limits : Limits check.key limiter)
    (refused : (limiter.check bound check).1 ≠ 0) :
    0 < (limiter.check bound check).1 ∧
      Promised (check.now + (limiter.check bound check).1) check.key
        (next bound limiter check) := by
  rw [check_wait] at refused ⊢
  obtain ⟨positive, due⟩ := take_promises limits.gains (limiter.asked check) check.now refused
  refine ⟨positive, ?_⟩
  intro bucket stored
  rcases next_get?_cases bound limiter check check.key with gone | kept
  · rw [gone] at stored
    cases stored
  · rw [kept, if_pos rfl, Option.some.injEq] at stored
    have rate : (next bound limiter check).rate = limiter.rate :=
      (afterCall_limits bound limiter (.check check)).2
    rw [← stored, rate]
    exact due

/-! ### The header -/

theorem le_retryAfter (wait : ℚ) : wait ≤ retryAfter wait := by
  have least : wait ≤ (-⌊-wait⌋ : ℤ) := by
    have below := Int.floor_le (-wait)
    push_cast
    linarith
  exact least.trans (by exact_mod_cast le_max_right 1 (-⌊-wait⌋))

/-- The middleware refuses exactly when the check has a wait, and sends it as `Retry-After`. -/
theorem answer_of_refused (loggedAt : ℚ) (refused : (limiter.check bound check).1 ≠ 0) :
    ∃ logged, (limiter.answer bound check loggedAt).1 =
      .refused (retryAfter (limiter.check bound check).1) logged := by
  simp only [answer, if_neg refused]
  exact ⟨_, rfl⟩

/-- What the refusal of a check promises to a later check of its pair: who comes early waits for the
rest of the time, who comes when it is due is granted, and `Retry-After` is no less than the wait. -/
structure PromiseKept (bound : ℕ) (limiter : RateLimiter) (refused : Check)
    (between : List LimiterCall) (again : Check) : Prop where
  positive : 0 < (limiter.check bound refused).1
  early : HasBucket bound (next bound limiter refused) refused.key between →
    again.now < refused.now + (limiter.check bound refused).1 →
    ((calledRun bound (next bound limiter refused) between).check bound again).1 =
      refused.now + (limiter.check bound refused).1 - again.now
  due : Ungranted bound (next bound limiter refused) refused.key between →
    refused.now + (limiter.check bound refused).1 ≤ again.now →
    ((calledRun bound (next bound limiter refused) between).check bound again).1 = 0
  told : ∀ loggedAt, ∃ logged, (limiter.answer bound refused loggedAt).1 =
    .refused (retryAfter (limiter.check bound refused).1) logged
  enough : (limiter.check bound refused).1 ≤ retryAfter (limiter.check bound refused).1

theorem promiseKept (limits : Limits check.key limiter)
    (refused : (limiter.check bound check).1 ≠ 0) {between : List LimiterCall} {again : Check}
    (same : again.key = check.key) (ordered : ∀ call ∈ between, call.now ≤ again.now) :
    PromiseKept bound limiter check between again := by
  obtain ⟨positive, promised⟩ := promised_of_refused limits refused
  have limitsAfter : Limits check.key (next bound limiter check) := limits.calledRun [.check check]
  have limitsAgain : Limits again.key (calledRun bound (next bound limiter check) between) := by
    rw [same]
    exact limitsAfter.calledRun between
  constructor
  case positive => exact positive
  case early =>
    intro kept soon
    have ungranted := ungranted_of_early promised limitsAfter kept
      fun call member => (ordered call member).trans_lt soon
    have stands := promised_run promised limitsAfter ungranted
    have present := kept between [] (List.append_nil _).symm
    rw [← same] at stands present
    rw [check_wait]
    exact (stands.taken limitsAgain).2.1 present soon
  case due =>
    intro ungranted late
    have stands := promised_run promised limitsAfter ungranted
    rw [← same] at stands
    rw [check_wait]
    exact (stands.taken limitsAgain).1 late
  case told => exact fun loggedAt => answer_of_refused loggedAt refused
  case enough => exact le_retryAfter _

/-- A refused check of a running limiter keeps its promise to every later check of the pair,
whatever other pairs ask in between and whatever is logged. -/
theorem retry_after_is_kept (bound : ℕ) (writes reads : ℤ) (windowSeconds : ℚ)
    (window : 0 < windowSeconds) (before : List LimiterCall) (refused : Check)
    (room : 1 ≤ (create writes reads windowSeconds).capacity refused.kind)
    (denied : ((calledRun bound (create writes reads windowSeconds) before).check bound
      refused).1 ≠ 0)
    (between : List LimiterCall) (again : Check) (same : again.key = refused.key)
    (ordered : ((before ++ LimiterCall.check refused :: between ++ [LimiterCall.check again]).map
      LimiterCall.now).Pairwise (· ≤ ·)) :
    PromiseKept bound (calledRun bound (create writes reads windowSeconds) before) refused between
      again := by
  have limits : Limits refused.key (create writes reads windowSeconds) :=
    ⟨room, rate_pos window room⟩
  apply promiseKept (limits.calledRun before) denied same
  intro call member
  rw [List.map_append, List.pairwise_append] at ordered
  apply ordered.2.2 _ (List.mem_map_of_mem _) _ (List.mem_singleton_self _)
  exact List.mem_append_right _ (List.mem_cons_of_mem _ member)

/-- A client spends its two writes. -/
def twoSpent : List LimiterCall := [.check ⟨"a", .write, 0⟩, .check ⟨"a", .write, 0⟩]

/-- Before it asks again, it is counted in the log and another client asks. -/
def meanwhile : List LimiterCall := [.shouldLog "a" .write 0, .check ⟨"b", .write, 0⟩]

theorem retry_after_is_kept_one :
    (0 : ℚ) < 2 ∧ (1 : ℤ) ≤ 2 ∧
      ((calledRun 2 (create 2 2 2) twoSpent).check 2 ⟨"a", .write, 0⟩).1 = 1 ∧
      PromiseKept 2 (calledRun 2 (create 2 2 2) twoSpent) ⟨"a", .write, 0⟩ meanwhile
        ⟨"a", .write, 1⟩ :=
  ⟨by decide +kernel, by decide, by decide +kernel,
    retry_after_is_kept 2 2 2 2 (by decide +kernel) twoSpent ⟨"a", .write, 0⟩ (by decide +kernel)
      (by decide +kernel) meanwhile ⟨"a", .write, 1⟩ (by decide) (by decide +kernel)⟩

end RateLimiter

end FeathrEvents
