/-
Module: FeathrEvents.Proofs.RateLimitLogging
Purpose: What the log says about the refusals of a pair: no two lines within the window, and every
  refusal is in the count of a line or still in the bucket.
Trusted boundary: none
Main exports: lines, refusals, Accounted, accounted_run, caller_kept, LogLaw, no_refusal_is_lost
-/
import FeathrEvents.Proofs.RateLimitPromises

namespace FeathrEvents.RateLimiter

open Collections (OrderedDict)

/-- The call asks for a line about the pair. -/
def AsksToLog (key : String × Kind) : LimiterCall → Prop
  | .check _ => False
  | .shouldLog client kind _ => (client, kind) = key

instance (key : String × Kind) : DecidablePred (AsksToLog key)
  | .check _ => inferInstanceAs (Decidable False)
  | .shouldLog client kind _ => inferInstanceAs (Decidable ((client, kind) = key))

/-- How many calls ask for a line about the pair. -/
def refusals (key : String × Kind) (calls : List LimiterCall) : ℕ :=
  calls.countP fun call => AsksToLog key call

/-- The line about a pair that a call writes: its time, and the refusals it stands for. -/
def lineOf (key : String × Kind) (limiter : RateLimiter) : LimiterCall → Option (ℚ × ℕ)
  | .check _ => none
  | .shouldLog client kind now =>
      if (client, kind) = key then
        (limiter.shouldLog client kind now).1.map fun count => (now, count)
      else none

/-- The lines about a pair that a list of calls writes. -/
def lines (bound : ℕ) (limiter : RateLimiter) (key : String × Kind) (calls : List LimiterCall) :
    List (ℚ × ℕ) :=
  (Machine.visits (afterCall bound) limiter calls).filterMap fun visit =>
    lineOf key visit.1 visit.2

variable {bound : ℕ} {limiter : RateLimiter} {key : String × Kind} {bucket : Bucket}

/-! ### Snoc -/

theorem refusals_snoc (calls : List LimiterCall) (call : LimiterCall) :
    refusals key (calls ++ [call]) = refusals key calls + if AsksToLog key call then 1 else 0 := by
  by_cases asks : AsksToLog key call <;> simp [refusals, asks]

theorem lines_snoc (calls : List LimiterCall) (call : LimiterCall) :
    lines bound limiter key (calls ++ [call]) =
      lines bound limiter key calls ++ (lineOf key (calledRun bound limiter calls) call).toList := by
  rw [lines, Machine.visits_snoc, Machine.filterMap_snoc]
  rfl

/-! ### One call -/

/-- A check leaves the refusals of a stored bucket and the time of its last line. -/
theorem next_kept {check : Check} (stored : limiter.buckets.get? key = some bucket)
    (stays : key ∈ (next bound limiter check).buckets.keys) :
    ∃ after, (next bound limiter check).buckets.get? key = some after ∧
      after.suppressed = bucket.suppressed ∧ after.loggedAt = bucket.loggedAt := by
  rw [next_get? stays, spend_get?]
  by_cases mine : key = check.key
  · subst mine
    rw [if_pos rfl]
    have own : limiter.asked check = bucket := by simp [asked, stored]
    refine ⟨(limiter.taken check).2, rfl, ?_⟩
    rw [taken, own]
    exact take_kept ..
  · rw [if_neg mine]
    exact ⟨bucket, stored, rfl, rfl⟩

/-- A call that asks for a line counts one refusal more, or reports all of them and starts over. -/
theorem shouldLog_own {client : String} {kind : Kind} (now : ℚ)
    (stored : limiter.buckets.get? (client, kind) = some bucket) :
    ((limiter.shouldLog client kind now).1 = none ∧
      (limiter.shouldLog client kind now).2.buckets.get? (client, kind) =
        some { bucket with suppressed := bucket.suppressed + 1 }) ∨
    (bucket.loggedAt + logEverySeconds ≤ now ∧
      (limiter.shouldLog client kind now).1 = some (bucket.suppressed + 1) ∧
      (limiter.shouldLog client kind now).2.buckets.get? (client, kind) =
        some { bucket with suppressed := 0, loggedAt := now }) := by
  by_cases soon : now - bucket.loggedAt < logEverySeconds
  · left
    simp [shouldLog, stored, soon]
  · right
    have late : bucket.loggedAt + logEverySeconds ≤ now := by
      have least := not_lt.mp soon
      linarith
    simp [shouldLog, stored, soon, late]

/-- The bucket of a pair does not change when the line of another pair is asked for. -/
theorem shouldLog_other {client : String} {kind : Kind} (now : ℚ) (limiter : RateLimiter)
    (other : (client, kind) ≠ key) :
    (limiter.shouldLog client kind now).2.buckets.get? key = limiter.buckets.get? key := by
  have different : key ≠ (client, kind) := fun same => other same.symm
  unfold shouldLog
  split
  · rfl
  · dsimp only
    split <;> simp [OrderedDict.get?_set, different]

/-! ### The account -/

/-- The refusals of a pair are in the lines written so far or in the bucket, and the bucket knows when
the last line was written. -/
structure Accounted (written : List (ℚ × ℕ)) (refused : ℕ) (bucket : Bucket) : Prop where
  spaced : written.Pairwise fun earlier later => earlier.1 + logEverySeconds ≤ later.1
  last : ∀ line ∈ written, line.1 ≤ bucket.loggedAt
  positive : ∀ line ∈ written, 1 ≤ line.2
  balance : (written.map Prod.snd).sum + bucket.suppressed = refused

theorem Accounted.check {written : List (ℚ × ℕ)} {refused : ℕ} {after : Bucket}
    (accounted : Accounted written refused bucket) (suppressed : after.suppressed = bucket.suppressed)
    (loggedAt : after.loggedAt = bucket.loggedAt) : Accounted written refused after where
  spaced := accounted.spaced
  last line member := by
    rw [loggedAt]
    exact accounted.last line member
  positive := accounted.positive
  balance := by
    rw [suppressed]
    exact accounted.balance

theorem Accounted.quiet {written : List (ℚ × ℕ)} {refused : ℕ}
    (accounted : Accounted written refused bucket) :
    Accounted written (refused + 1) { bucket with suppressed := bucket.suppressed + 1 } where
  spaced := accounted.spaced
  last := accounted.last
  positive := accounted.positive
  balance := by
    rw [← accounted.balance]
    exact (Nat.add_assoc ..).symm

theorem Accounted.line {written : List (ℚ × ℕ)} {refused : ℕ} {now : ℚ}
    (accounted : Accounted written refused bucket) (late : bucket.loggedAt + logEverySeconds ≤ now) :
    Accounted (written ++ [(now, bucket.suppressed + 1)]) (refused + 1)
      { bucket with suppressed := 0, loggedAt := now } where
  spaced := by
    apply List.pairwise_append.mpr
    refine ⟨accounted.spaced, List.pairwise_singleton .., ?_⟩
    intro earlier before later here
    rw [List.mem_singleton.mp here]
    have known := accounted.last earlier before
    change earlier.1 + logEverySeconds ≤ now
    linarith
  last line member := by
    have window : (0 : ℚ) ≤ logEverySeconds := by norm_num [logEverySeconds]
    rcases List.mem_append.mp member with before | here
    · have known := accounted.last line before
      change line.1 ≤ now
      linarith
    · rw [List.mem_singleton.mp here]
  positive line member := by
    rcases List.mem_append.mp member with before | here
    · exact accounted.positive line before
    · rw [List.mem_singleton.mp here]
      exact Nat.le_add_left 1 bucket.suppressed
  balance := by
    have before := accounted.balance
    simp only [List.map_append, List.sum_append, List.map_cons, List.map_nil, List.sum_singleton]
    omega

/-- A call after which the pair still has its bucket keeps the account. -/
theorem Accounted.afterCall {written : List (ℚ × ℕ)} {refused : ℕ}
    (stored : limiter.buckets.get? key = some bucket)
    (accounted : Accounted written refused bucket) (call : LimiterCall)
    (stays : key ∈ (RateLimiter.afterCall bound limiter call).buckets.keys) :
    ∃ after, (RateLimiter.afterCall bound limiter call).buckets.get? key = some after ∧
      Accounted (written ++ (lineOf key limiter call).toList)
        (refused + if AsksToLog key call then 1 else 0) after := by
  cases call with
  | check check =>
      obtain ⟨after, found, suppressed, loggedAt⟩ := next_kept stored stays
      refine ⟨after, found, ?_⟩
      simpa [lineOf, AsksToLog] using accounted.check suppressed loggedAt
  | shouldLog client kind now =>
      by_cases mine : (client, kind) = key
      · subst mine
        rcases shouldLog_own now stored with ⟨silent, kept⟩ | ⟨late, count, kept⟩
        · refine ⟨_, kept, ?_⟩
          simpa [lineOf, AsksToLog, silent] using accounted.quiet
        · refine ⟨_, kept, ?_⟩
          simpa [lineOf, AsksToLog, count] using accounted.line late
      · refine ⟨bucket, ?_, ?_⟩
        · rw [RateLimiter.afterCall, shouldLog_other now limiter mine]
          exact stored
        · simpa [lineOf, AsksToLog, mine] using accounted

theorem HasBucket.left {first second : List LimiterCall}
    (kept : HasBucket bound limiter key (first ++ second)) : HasBucket bound limiter key first := by
  intro before after split
  apply kept before (after ++ second)
  rw [split, List.append_assoc]

theorem hasBucket_iff {calls : List LimiterCall} :
    (∀ count ≤ calls.length, key ∈ (calledRun bound limiter (calls.take count)).buckets.keys) ↔
      HasBucket bound limiter key calls := by
  constructor
  · rintro there first second rfl
    have here := there first.length (by simp)
    rwa [List.take_left] at here
  · intro kept count _
    exact kept (calls.take count) (calls.drop count) (List.take_append_drop count calls).symm

instance (bound : ℕ) (limiter : RateLimiter) (key : String × Kind) (calls : List LimiterCall) :
    Decidable (HasBucket bound limiter key calls) :=
  decidable_of_iff _ hasBucket_iff

/-- As long as the pair keeps the bucket it starts with, every refusal is accounted for. -/
theorem accounted_run (stored : limiter.buckets.get? key = some bucket)
    (fresh : bucket.suppressed = 0) {calls : List LimiterCall}
    (kept : HasBucket bound limiter key calls) :
    ∃ after, (calledRun bound limiter calls).buckets.get? key = some after ∧
      Accounted (lines bound limiter key calls) (refusals key calls) after := by
  induction calls using List.reverseRecOn with
  | nil =>
      refine ⟨bucket, stored, ?_⟩
      constructor <;> simp [lines, refusals, fresh]
  | append_singleton calls call ih =>
      obtain ⟨before, found, accounted⟩ := ih kept.left
      have stays := kept (calls ++ [call]) [] (List.append_nil _).symm
      rw [calledRun_snoc] at stays ⊢
      rw [lines_snoc, refusals_snoc]
      exact accounted.afterCall found call stays

/-! ### The bucket that was just asked -/

/-- Eviction does not reach the last item of the table when its count is below the capacity. -/
theorem evictFull_keeps_last (positive : 1 ≤ bound) {capacity : Kind → ℤ}
    {items : List ((String × Kind) × Bucket)} {buckets : OrderedDict (String × Kind) Bucket}
    (short : ∀ item ∈ items, item.1 = key → item.2.tokens < capacity key.2)
    (last : ∃ before, buckets.items = before ++ [(key, bucket)]) :
    (key, bucket) ∈ (evictFull bound capacity items buckets).items := by
  induction items generalizing buckets with
  | nil =>
      obtain ⟨before, shape⟩ := last
      have few : (before ++ [(key, bucket)]).length - bound ≤ before.length := by
        rw [List.length_append, List.length_singleton]
        omega
      simp only [evictFull, OrderedDict.dropFirst, OrderedDict.size, shape]
      rw [List.drop_append_of_le_length few]
      exact List.mem_append_right _ (List.mem_singleton_self _)
  | cons item items ih =>
      have later : ∀ item ∈ items, item.1 = key → item.2.tokens < capacity key.2 :=
        fun other member => short other (List.mem_cons_of_mem _ member)
      have remains : ∃ before, (if (capacity item.1.2 : ℚ) ≤ item.2.tokens
          then buckets.erase item.1 else buckets).items = before ++ [(key, bucket)] := by
        split
        · rename_i full
          have other : key ≠ item.1 := by
            intro same
            have used := short item (List.mem_cons_self ..) same.symm
            rw [same] at used
            exact absurd full (not_le.mpr used)
          obtain ⟨before, shape⟩ := last
          exists before.filter fun entry => entry.1 ≠ item.1
          simp [OrderedDict.erase, shape, List.filter_append, other]
        · exact last
      simp only [evictFull]
      generalize (if (capacity item.1.2 : ℚ) ≤ item.2.tokens then buckets.erase item.1
          else buckets) = remaining at remains ⊢
      split
      · obtain ⟨before, shape⟩ := remains
        rw [shape]
        exact List.mem_append_right _ (List.mem_singleton_self _)
      · exact ih later remains

/-- A pair with a positive limit has its bucket after its check, whatever the table held. -/
theorem caller_kept (positive : 1 ≤ bound) (limiter : RateLimiter) (check : Check)
    (room : 1 ≤ limiter.capacity check.kind) :
    (next bound limiter check).buckets.get? check.key = some (limiter.taken check).2 := by
  have shape := spend_items limiter check
  rw [OrderedDict.get?_eq_some]
  simp only [next, RateLimiter.check, evictIfNeeded]
  split
  · rw [shape]
    exact List.mem_append_right _ (List.mem_singleton_self _)
  · apply evictFull_keeps_last positive _ ⟨_, shape⟩
    intro item member mine
    rw [shape] at member
    rcases List.mem_append.mp member with old | new
    · have gone := (List.mem_filter.mp old).2
      simp [mine] at gone
    · rw [List.mem_singleton.mp new, spend_capacity]
      exact take_lt room ..

/-! ### Before the first check -/

/-- No line is written about a pair that was never checked. -/
theorem lines_unchecked {calls : List LimiterCall} (absent : limiter.buckets.get? key = none)
    (unchecked : ∀ check, LimiterCall.check check ∈ calls → check.key ≠ key) :
    lines bound limiter key calls = [] ∧
      (calledRun bound limiter calls).buckets.get? key = none := by
  induction calls using List.reverseRecOn with
  | nil => exact ⟨rfl, absent⟩
  | append_singleton calls call ih =>
      obtain ⟨silent, gone⟩ :=
        ih fun check member => unchecked check (List.mem_append_left _ member)
      rw [lines_snoc, silent, calledRun_snoc]
      cases call with
      | check check =>
          have other := unchecked check (by simp)
          exact ⟨rfl, next_get?_eq_none other gone⟩
      | shouldLog client kind now =>
          by_cases mine : (client, kind) = key
          · subst mine
            simp [lineOf, afterCall, shouldLog, gone]
          · rw [afterCall, shouldLog_other now _ mine]
            simp [lineOf, mine, gone]

/-! ### Every run -/

/-- What the log says about a pair whose bucket was made by a check and has stayed in the table
since: few lines, none without a refusal, and none of the refusals left out. -/
structure LogLaw (bound : ℕ) (limiter : RateLimiter) (before : List LimiterCall) (created : Check)
    (calls : List LimiterCall) : Prop where
  spaced : (lines bound (next bound (calledRun bound limiter before) created) created.key
    calls).Pairwise fun earlier later => earlier.1 + logEverySeconds ≤ later.1
  positive : ∀ line ∈ lines bound (next bound (calledRun bound limiter before) created) created.key
    calls, 1 ≤ line.2
  balance : ∀ first second, calls = first ++ second → ∃ bucket,
    (calledRun bound (next bound (calledRun bound limiter before) created) first).buckets.get?
      created.key = some bucket ∧
    ((lines bound (next bound (calledRun bound limiter before) created) created.key first).map
      Prod.snd).sum + bucket.suppressed = refusals created.key first
  silent : (∀ check, LimiterCall.check check ∈ before → check.key ≠ created.key) →
    lines bound limiter created.key before = []
  found : ∀ (others : List LimiterCall) (check : Check), 1 ≤ limiter.capacity check.kind →
    check.key ∈ (calledRun bound limiter (others ++ [.check check])).buckets.keys

theorem logLaw (positive : 1 ≤ bound) (empty : limiter.buckets = .empty)
    {before : List LimiterCall} {created : Check} {calls : List LimiterCall}
    (absent : (calledRun bound limiter before).buckets.get? created.key = none)
    (kept : HasBucket bound (next bound (calledRun bound limiter before) created) created.key
      calls) :
    LogLaw bound limiter before created calls := by
  have made : created.key ∈ (next bound (calledRun bound limiter before) created).buckets.keys := by
    simpa only [calledRun, Machine.run_nil] using kept [] calls rfl
  obtain ⟨bucket, stored⟩ := OrderedDict.mem_keys.mp made
  have fresh : bucket.suppressed = 0 := by
    rcases next_get?_cases bound (calledRun bound limiter before) created created.key with
      gone | own
    · exact absurd made (OrderedDict.get?_eq_none.mp gone)
    · rw [if_pos rfl] at own
      have same : bucket = ((calledRun bound limiter before).taken created).2 :=
        Option.some.inj (stored.symm.trans own)
      rw [same, taken, (take_kept ..).1]
      simp [asked, absent]
  obtain ⟨_, -, accounted⟩ := accounted_run stored fresh kept
  constructor
  case spaced => exact accounted.spaced
  case positive => exact accounted.positive
  case balance =>
    intro first second split
    obtain ⟨after, found, here⟩ := accounted_run stored fresh (split ▸ kept).left
    exact ⟨after, found, here.balance⟩
  case silent =>
    intro unchecked
    exact (lines_unchecked (by rw [empty]; rfl) unchecked).1
  case found =>
    intro others check room
    rw [calledRun_snoc, afterCall]
    have same := (calledRun_limits bound limiter others).1
    have asked := caller_kept positive (calledRun bound limiter others) check (same ▸ room)
    exact OrderedDict.mem_keys.mpr ⟨_, asked⟩

/-- The refusals of a pair are logged at most once in a window, and none is lost: at every moment they
are in the counts returned since its bucket was made or in that bucket. -/
theorem no_refusal_is_lost (bound : ℕ) (positive : 1 ≤ bound) (writes reads : ℤ)
    (windowSeconds : ℚ) (before : List LimiterCall) (created : Check)
    (absent : (calledRun bound (create writes reads windowSeconds) before).buckets.get?
      created.key = none)
    (calls : List LimiterCall)
    (kept : HasBucket bound (next bound
      (calledRun bound (create writes reads windowSeconds) before) created) created.key calls) :
    LogLaw bound (create writes reads windowSeconds) before created calls :=
  logLaw positive rfl absent kept

/-- A client whose line is asked for before its first check. -/
def askedEarly : List LimiterCall := [.shouldLog "a" .write 19]

/-- Three refusals of a client, the second of them too soon for a line of its own, and another client
between them. -/
def threeRefusals : List LimiterCall :=
  [.shouldLog "a" .write 20, .check ⟨"b", .write, 20⟩, .shouldLog "a" .write 21,
    .shouldLog "a" .write 31]

theorem no_refusal_is_lost_three :
    lines 2 (next 2 (calledRun 2 (create 1 1 1) askedEarly) ⟨"a", .write, 20⟩) ("a", .write)
        threeRefusals = [(20, 1), (31, 2)] ∧
      LogLaw 2 (create 1 1 1) askedEarly ⟨"a", .write, 20⟩ threeRefusals := by
  have absent : (calledRun 2 (create 1 1 1) askedEarly).buckets.get? ("a", .write) = none := rfl
  have kept : HasBucket 2 (next 2 (calledRun 2 (create 1 1 1) askedEarly) ⟨"a", .write, 20⟩)
      ("a", .write) threeRefusals := by
    decide +kernel
  exact ⟨by decide +kernel, no_refusal_is_lost 2 (by decide) 1 1 1 askedEarly ⟨"a", .write, 20⟩
    absent threeRefusals kept⟩

end FeathrEvents.RateLimiter
