/-
Module: FeathrEvents.Proofs.ApiFlooding
Purpose: The limiter stands before the queue: in some time a number of clients can only pass so many
  requests, so that the queue cannot be filled any faster, however slow the worker is.
Trusted boundary: none
Main exports: ApiMove.check?, Post.passed, Api.Metered, Api.metered_run, Api.flooding_takes_time
-/
import Mathlib.Algebra.BigOperators.Ring.Finset
import Mathlib.Algebra.Order.BigOperators.Group.List
import Mathlib.Data.Finset.Card
import Mathlib.Tactic.Linarith
import FeathrEvents.Lib.Histogram
import FeathrEvents.Proofs.ApiReceipts
import FeathrEvents.Proofs.RateLimitBounds
import FeathrEvents.Proofs.RateLimitPromises

namespace FeathrEvents

open Collections (OrderedDict)

/-- What a move asks of the limiter. -/
def ApiMove.check? : ApiMove → Option Check
  | .post client _ now _ => some ⟨client, .write, now⟩
  | .get client now _ => some ⟨client, .read, now⟩
  | .handle .. | .worker _ => none

/-- The limiter passed the request on. -/
def Post.passed (post : Post) : Bool :=
  decide (post.answer.bind IngestAnswer.throttleReason ≠ some "rate_limit")

theorem Post.passed_ofLimiter (client : String) (body : Option Payload) (answer : Answer) :
    (⟨client, body, IngestAnswer.ofLimiter answer⟩ : Post).passed = true ↔ answer = .passed := by
  cases answer <;> simp [Post.passed, IngestAnswer.ofLimiter, IngestAnswer.throttleReason]

namespace RateLimiter

variable {bound : ℕ} {limiter : RateLimiter} {check : Check}

/-- The tokens of a pair, and when they were counted. -/
def counted (limiter : RateLimiter) (key : String × Kind) : Option (ℚ × ℚ) :=
  (limiter.buckets.get? key).map fun bucket => (bucket.tokens, bucket.updated)

/-- Without eviction, the middleware leaves the limiter with the count of the pair that it asked. -/
theorem answer_counted (room : (limiter.spend check).2.buckets.size ≤ bound) (loggedAt : ℚ)
    (key : String × Kind) :
    (limiter.answer bound check loggedAt).2.counted key =
      if key = check.key then some ((limiter.taken check).2.tokens, (limiter.taken check).2.updated)
      else limiter.counted key := by
  have checked : (limiter.check bound check).2 = (limiter.spend check).2 := if_pos room
  have spent : ((limiter.check bound check).2.buckets.get? key).map
        (fun bucket => (bucket.tokens, bucket.updated)) =
      if key = check.key then some ((limiter.taken check).2.tokens, (limiter.taken check).2.updated)
      else limiter.counted key := by
    rw [checked, spend_get?]
    split <;> rfl
  simp only [answer]
  split
  · exact spent
  · exact (shouldLog_get? ..).trans spent

theorem answer_passed_iff (loggedAt : ℚ) :
    (limiter.answer bound check loggedAt).1 = .passed ↔ (limiter.taken check).1 = 0 := by
  rw [← check_wait bound]
  simp only [answer]
  split
  · rename_i granted
    simp [granted]
  · rename_i refused
    simp [refused]

theorem answer_limits (bound : ℕ) (limiter : RateLimiter) (check : Check) (loggedAt : ℚ) :
    (limiter.answer bound check loggedAt).2.capacity = limiter.capacity ∧
      (limiter.answer bound check loggedAt).2.rate = limiter.rate := by
  have checked := afterCall_limits bound limiter (.check check)
  simp only [answer]
  split
  · exact checked
  · obtain ⟨capacity, rate⟩ := shouldLog_limits check.client check.kind loggedAt
      (limiter.check bound check).2
    exact ⟨capacity.trans checked.1, rate.trans checked.2⟩

/-- The pairs in a table are those that were counted. -/
theorem mem_keys_iff_counted (key : String × Kind) :
    key ∈ limiter.buckets.keys ↔ limiter.counted key ≠ none := by
  rw [OrderedDict.mem_keys, counted, ne_eq, Option.map_eq_none_iff]
  exact Option.ne_none_iff_exists'.symm

/-- A table whose pairs are among a number of pairs has no more buckets than that. -/
theorem size_le_card {pairs : Finset (String × Kind)}
    (known : ∀ key ∈ limiter.buckets.keys, key ∈ pairs) : limiter.buckets.size ≤ pairs.card := by
  have distinct : limiter.buckets.keys.Nodup := limiter.buckets.distinct
  calc limiter.buckets.size = limiter.buckets.keys.toFinset.card := by
        rw [List.toFinset_card_of_nodup distinct]
        simp [OrderedDict.keys, OrderedDict.size]
    _ ≤ pairs.card := Finset.card_le_card fun key member => known key (List.mem_toFinset.mp member)

/-- A granted take costs a token, and no take gains more than the time gives. -/
theorem take_spends (capacity : ℤ) {rate : ℚ} (gains : 0 < rate) (now : ℚ) (bucket : Bucket) :
    (bucket.take capacity rate now).2.tokens +
        (if (bucket.take capacity rate now).1 = 0 then 1 else 0) ≤
      bucket.tokens + rate * (now - bucket.updated) := by
  have most : min (capacity : ℚ) (bucket.tokens + (now - bucket.updated) * rate) ≤
      bucket.tokens + (now - bucket.updated) * rate := min_le_right _ _
  simp only [Bucket.take]
  by_cases there : 1 ≤ min (capacity : ℚ) (bucket.tokens + (now - bucket.updated) * rate)
  · simp only [if_pos there, if_true]
    linarith
  · have waits : (1 - min (capacity : ℚ) (bucket.tokens + (now - bucket.updated) * rate)) / rate ≠ 0 :=
      (div_pos (sub_pos.mpr (not_le.mp there)) gains).ne'
    simp only [if_neg there, if_neg waits]
    linarith

end RateLimiter

namespace Api

variable {surround : Surround} {api later : Api} {move : ApiMove} {pairs : Finset (String × Kind)}
  {writes : ℤ} {rate start now : ℚ}

/-! ### What the clients spend -/

/-- How many requests of a client were passed on. -/
def spent (api : Api) (client : String) : ℕ :=
  api.posts.countP fun post => post.client = client ∧ post.passed

/-- What a client was passed and what it could still be passed is what it had at the start and what it has
gained until its tokens were counted. -/
structure Metered (pairs : Finset (String × Kind)) (writes : ℤ) (rate start now : ℚ) (api : Api) :
    Prop where
  limits : api.limiter.capacity .write = writes ∧ api.limiter.rate .write = rate
  known : ∀ key ∈ api.limiter.buckets.keys, key ∈ pairs
  fresh : ∀ client, api.limiter.counted (client, .write) = none → api.spent client = 0
  balanced : ∀ client tokens updated,
    api.limiter.counted (client, .write) = some (tokens, updated) →
    0 ≤ tokens ∧ updated ≤ now ∧ api.spent client + tokens ≤ writes + rate * (updated - start)

/-- What a client has spent is bounded by the time that has passed. -/
theorem Metered.spent_le (metered : Metered pairs writes rate start now api) (room : 0 ≤ writes)
    (gains : 0 ≤ rate) (forward : start ≤ now) (client : String) :
    (api.spent client : ℚ) ≤ writes + rate * (now - start) := by
  cases counted : api.limiter.counted (client, .write) with
  | none =>
      have some : (0 : ℚ) ≤ writes := by exact_mod_cast room
      rw [metered.fresh client counted, Nat.cast_zero]
      exact add_nonneg some (mul_nonneg gains (sub_nonneg.mpr forward))
  | some pair =>
      obtain ⟨tokens, updated⟩ := pair
      obtain ⟨positive, earlier, balance⟩ := metered.balanced client tokens updated counted
      have more : rate * (updated - start) ≤ rate * (now - start) :=
        mul_le_mul_of_nonneg_left (by linarith) gains
      linarith

/-- A move that asks the limiter nothing and answers nobody that it had refused. -/
theorem Metered.keep (metered : Metered pairs writes rate start now api) {after : ℚ}
    (forward : now ≤ after) (limiter : later.limiter = api.limiter)
    (same : ∀ client, later.spent client = api.spent client) :
    Metered pairs writes rate start after later where
  limits := by
    rw [limiter]
    exact metered.limits
  known := by
    rw [limiter]
    exact metered.known
  fresh client := by
    rw [limiter, same]
    exact metered.fresh client
  balanced client tokens updated := by
    rw [limiter, same]
    intro counted
    obtain ⟨positive, earlier, balance⟩ := metered.balanced client tokens updated counted
    exact ⟨positive, earlier.trans forward, balance⟩

/-- The bucket that a client is asked for, a new one or its own. -/
theorem Metered.asked (metered : Metered pairs writes rate start now api) {client : String}
    {check : Check} (own : check.key = (client, .write)) (room : 1 ≤ writes) (gains : 0 < rate)
    (forward : now ≤ check.now) (started : start ≤ check.now) :
    0 ≤ (api.limiter.asked check).tokens ∧ (api.limiter.asked check).updated ≤ check.now ∧
      api.spent client + (api.limiter.asked check).tokens ≤
        writes + rate * ((api.limiter.asked check).updated - start) := by
  cases stored : api.limiter.buckets.get? check.key with
  | none =>
      have one : (1 : ℚ) ≤ writes := by exact_mod_cast room
      have absent : api.limiter.counted (client, .write) = none := by
        rw [RateLimiter.counted, ← own, stored]
        rfl
      have kind : check.kind = .write := congrArg Prod.snd own
      have gained : 0 ≤ rate * (check.now - start) :=
        mul_nonneg gains.le (sub_nonneg.mpr started)
      rw [RateLimiter.asked, stored, Option.getD_none, kind, metered.limits.1,
        metered.fresh client absent]
      refine ⟨zero_le_one.trans one, le_refl _, ?_⟩
      simpa using gained
  | some bucket =>
      have present : api.limiter.counted (client, .write) = some (bucket.tokens, bucket.updated) := by
        rw [RateLimiter.counted, ← own, stored]
        rfl
      obtain ⟨positive, earlier, balance⟩ :=
        metered.balanced client bucket.tokens bucket.updated present
      rw [RateLimiter.asked, stored, Option.getD_some]
      exact ⟨positive, earlier.trans forward, balance⟩

/-- A check is asked, of a table that has room for all pairs: a client spends at most one request, and
only when its own check is granted. -/
theorem Metered.checked (metered : Metered pairs writes rate start now api) {check : Check}
    (room : 1 ≤ writes) (gains : 0 < rate) (few : pairs.card ≤ maxClients) (mine : check.key ∈ pairs)
    (forward : now ≤ check.now) (started : start ≤ check.now) {after : ℚ} (before : check.now ≤ after)
    (loggedAt : ℚ)
    (limiter : later.limiter = (api.limiter.answer maxClients check loggedAt).2)
    (spends : ∀ client, later.spent client = api.spent client +
      if check.key = (client, .write) ∧ (api.limiter.taken check).1 = 0 then 1 else 0) :
    Metered pairs writes rate start after later := by
  have known : ∀ key ∈ (api.limiter.spend check).2.buckets.keys, key ∈ pairs := by
    intro key member
    rw [OrderedDict.mem_keys] at member
    obtain ⟨bucket, stored⟩ := member
    rw [RateLimiter.spend_get?] at stored
    split at stored
    · rename_i same
      exact same ▸ mine
    · exact metered.known key (OrderedDict.mem_keys.mpr ⟨bucket, stored⟩)
  have small := (RateLimiter.size_le_card known).trans few
  have counts := RateLimiter.answer_counted small loggedAt
  rw [← limiter] at counts
  obtain ⟨capacity, perSecond⟩ := RateLimiter.answer_limits maxClients api.limiter check loggedAt
  rw [← limiter] at capacity perSecond
  refine ⟨?_, ?_, ?_, ?_⟩
  · rw [capacity, perSecond]
    exact metered.limits
  · intro key member
    rw [RateLimiter.mem_keys_iff_counted, counts] at member
    split at member
    · rename_i same
      exact same ▸ mine
    · exact metered.known key (RateLimiter.mem_keys_iff_counted key |>.mpr member)
  · intro client absent
    rw [counts] at absent
    split at absent
    · cases absent
    · rename_i other
      rw [spends, if_neg fun both => other both.1.symm, metered.fresh client absent]
  · intro client tokens updated present
    rw [counts] at present
    split at present
    · rename_i own
      cases present
      have kind : check.kind = .write := (congrArg Prod.snd own).symm
      obtain ⟨positive, earlier, balance⟩ := metered.asked own.symm room gains forward started
      have bucket := RateLimiter.take_spends writes gains check.now (api.limiter.asked check)
      have updated := RateLimiter.take_updated writes rate check.now (api.limiter.asked check)
      have left := RateLimiter.take_nonneg room gains.le positive earlier
      rw [RateLimiter.taken, kind, metered.limits.1, metered.limits.2] at spends ⊢
      refine ⟨left, updated.le.trans before, ?_⟩
      rw [spends, updated]
      simp only [own.symm, true_and, Nat.cast_add, Nat.cast_ite, Nat.cast_one, Nat.cast_zero]
      linarith
    · rename_i other
      obtain ⟨positive, earlier, balance⟩ := metered.balanced client tokens updated present
      rw [spends, if_neg fun both => other both.1.symm, Nat.add_zero]
      exact ⟨positive, earlier.trans (forward.trans before), balance⟩

/-- An answer to a request that was passed on spends nothing. -/
theorem spent_answered {index : ℕ} {client : String} {body : Option Payload} {answer : IngestAnswer}
    {posts : List Post} (waits : posts[index]? = some ⟨client, body, none⟩)
    (reason : answer.throttleReason ≠ some "rate_limit") (other : String) :
    (posts.set index ⟨client, body, some answer⟩).countP (fun post =>
        post.client = other ∧ post.passed) =
      posts.countP fun post => post.client = other ∧ post.passed := by
  obtain ⟨inside, here⟩ := List.getElem?_eq_some_iff.mp waits
  have before : (⟨client, body, none⟩ : Post).passed = true := rfl
  have after : (⟨client, body, some answer⟩ : Post).passed = true := decide_eq_true reason
  rw [List.countP_set inside, here]
  by_cases same : client = other
  · subst same
    have some : 0 < posts.countP fun post => post.client = client ∧ post.passed :=
      List.countP_pos_iff.mpr ⟨_, List.mem_of_getElem? waits, by simp [before]⟩
    simp only [before, after, and_self, decide_true, if_true]
    omega
  · simp [same]

theorem Metered.moved (metered : Metered pairs writes rate start now api)
    (room : 1 ≤ writes) (gains : 0 < rate) (few : pairs.card ≤ maxClients)
    (moved : Moved surround api move later) {after : ℚ} (later_le : now ≤ after)
    (mine : ∀ check ∈ move.check?, check.key ∈ pairs ∧ start ≤ check.now ∧ now ≤ check.now ∧
      check.now ≤ after) : Metered pairs writes rate start after later := by
  cases moved with
  | idle => exact metered.keep later_le rfl fun _ => rfl
  | arrived client body readAt loggedAt =>
      obtain ⟨known, started, forward, before⟩ := mine ⟨client, .write, readAt⟩ rfl
      refine metered.checked room gains few known forward started before loggedAt rfl fun other => ?_
      rw [spent, List.countP_append, List.countP_singleton]
      simp only [Post.passed_ofLimiter, RateLimiter.answer_passed_iff, Check.key, Prod.mk.injEq,
        and_true, decide_eq_true_eq]
      rfl
  | read client readAt loggedAt =>
      obtain ⟨known, started, forward, before⟩ := mine ⟨client, .read, readAt⟩ rfl
      refine metered.checked room gains few known forward started before loggedAt rfl fun other => ?_
      simp [Check.key, spent]
  | declined waits answer early =>
      exact metered.keep later_le rfl (spent_answered waits (by simp [early.2]))
  | accepted waits event named made took =>
      exact metered.keep later_le rfl (spent_answered waits (by simp [IngestAnswer.throttleReason]))
  | full waits event named refused =>
      exact metered.keep later_le rfl (spent_answered waits (by simp [IngestAnswer.throttleReason]))
  | worked move notSend => exact metered.keep later_le rfl fun _ => rfl

/-! ### Every run -/

/-- What a run of moves asks of the limiter: one check for each request that is subject to a limit,
in the order in which they arrive. -/
def checks (moves : List ApiMove) : List Check := moves.filterMap ApiMove.check?

theorem metered_start {reads : ℤ} {windowSeconds : ℚ} :
    Metered pairs writes (writes / windowSeconds) start start
      (Api.start (.create writes reads windowSeconds)) where
  limits := ⟨rfl, rfl⟩
  known key member := by cases member
  fresh client absent := rfl
  balanced client tokens updated counted := by cases counted

theorem metered_run (surround : Surround) {reads : ℤ} {windowSeconds : ℚ} (room : 1 ≤ writes)
    (window : 0 < windowSeconds) (few : pairs.card ≤ maxClients) {moves : List ApiMove}
    (asked : ∀ check ∈ checks moves, check.key ∈ pairs ∧ start ≤ check.now)
    (ordered : ((checks moves).map Check.now).Pairwise (· ≤ ·)) {after : ℚ}
    (ended : start ≤ after ∧ ∀ check ∈ checks moves, check.now ≤ after) :
    Metered pairs writes (writes / windowSeconds) start after
      (run surround (.create writes reads windowSeconds) moves) := by
  have gains : 0 < writes / windowSeconds :=
    div_pos (by exact_mod_cast zero_lt_one.trans_le room) window
  induction moves using List.reverseRecOn generalizing after with
  | nil => exact metered_start.keep ended.1 rfl fun _ => rfl
  | append_singleton moves move ih =>
      have grown : checks (moves ++ [move]) = checks moves ++ move.check?.toList :=
        Machine.filterMap_snoc ..
      rw [grown] at asked ordered ended
      rw [List.map_append, List.pairwise_append] at ordered
      rw [run_snoc]
      have earlier : ∀ time, start ≤ time → (∀ check ∈ checks moves, check.now ≤ time) →
          Metered pairs writes (writes / windowSeconds) start time
            (run surround (.create writes reads windowSeconds) moves) := fun time began before =>
        ih (fun check member => asked check (List.mem_append_left _ member)) ordered.1 ⟨began, before⟩
      cases made : move.check? with
      | none =>
          apply (earlier after ended.1 fun check member => ended.2 check
            (List.mem_append_left _ member)).moved room gains few (next_moved ..) le_rfl
          simp [made]
      | some check =>
          rw [made] at asked ordered ended
          have here : check ∈ checks moves ++ (some check).toList := by simp
          have before := ended.2 check here
          have began := (asked check here).2
          refine (earlier check.now began fun other member => ?_).moved room gains few
            (next_moved ..) before ?_
          · exact ordered.2.2 _ (List.mem_map_of_mem member) _ (by simp)
          · rw [made]
            rintro other ⟨⟩
            exact ⟨(asked check here).1, began, le_rfl, before⟩

/-- Every request was made by a move. -/
theorem posted_run (surround : Surround) (limiter : RateLimiter) (moves : List ApiMove) :
    ∀ post ∈ (run surround limiter moves).posts, ∃ check ∈ checks moves,
      check.client = post.client ∧ check.kind = .write := by
  induction moves using List.reverseRecOn with
  | nil => simp [Api.start]
  | append_singleton moves move ih =>
      have grown : checks (moves ++ [move]) = checks moves ++ move.check?.toList :=
        Machine.filterMap_snoc ..
      have older : ∀ post ∈ (run surround limiter moves).posts, ∃ check ∈ checks (moves ++ [move]),
          check.client = post.client ∧ check.kind = .write := by
        intro post member
        obtain ⟨check, listed, mine⟩ := ih post member
        exact ⟨check, by rw [grown]; exact List.mem_append_left _ listed, mine⟩
      rw [run_snoc]
      have moved := next_moved surround (run surround limiter moves) move
      generalize (run surround limiter moves).next surround move = later at moved
      intro post member
      cases moved with
      | idle | read | worked => exact older post member
      | arrived client body now loggedAt =>
          rcases List.mem_append.mp member with old | new
          · exact older post old
          · cases List.mem_singleton.mp new
            exact ⟨⟨client, .write, now⟩, by rw [grown]; simp [ApiMove.check?], rfl, rfl⟩
      | declined waits | accepted waits | full waits =>
          rcases List.mem_or_eq_of_mem_set member with old | rfl
          · exact older post old
          · have former := older _ (List.mem_of_getElem? waits)
            exact former

/-- Where a request was answered that the queue is full, the queue has accepted all that it can
hold: only what the limiter let through has filled it. -/
theorem crowded_run (surround : Surround) (serialises : surround.setup.host.Serialises)
    (limiter : RateLimiter) (moves : List ApiMove) {post : Post}
    (member : post ∈ (run surround limiter moves).posts) (answer : post.answer = some .queueFull) :
    surround.setup.queue.maxsize ≤
      (acceptedEvents surround.setup (run surround limiter moves).system.past).length := by
  induction moves using List.reverseRecOn generalizing post with
  | nil => cases member
  | append_singleton moves move ih =>
      have issued := issued_run surround limiter moves
      obtain ⟨worked, ran⟩ := issued.ran
      have driven : System.Driven surround.setup (run surround limiter moves).system :=
        ran ▸ System.driven_run surround.setup worked
      rw [run_snoc] at member ⊢
      have moved := next_moved surround (run surround limiter moves) move
      generalize (run surround limiter moves).next surround move = later at moved member ⊢
      generalize run surround limiter moves = api at *
      cases moved with
      | idle | read => exact ih member answer
      | arrived client body now loggedAt =>
          rcases List.mem_append.mp member with old | new
          · exact ih old answer
          · cases List.mem_singleton.mp new
            generalize api.limiter.answer maxClients ⟨client, .write, now⟩ loggedAt = answered at answer
            obtain ⟨given, _⟩ := answered
            cases given <;> cases answer
      | declined waits given early =>
          rcases List.mem_or_eq_of_mem_set member with old | rfl
          · exact ih old answer
          · cases answer
            cases early.2
      | accepted waits event named made took =>
          rcases List.mem_or_eq_of_mem_set member with old | rfl
          · rw [(System.accepted_of_send driven event).1, List.length_append]
            exact (ih old answer).trans (Nat.le_add_right _ _)
          · cases answer
      | full waits event named refused =>
          -- the entries are events that were accepted, each of them once
          have balance := InMemoryEventQueue.balance_reached surround.setup.queue serialises
            (calls api.system.past) driven.port
          have sizes := congrArg Multiset.card balance
          rw [← driven.queue] at sizes
          simp only [Multiset.card_add, Multiset.coe_card] at sizes
          have entries : api.system.queue.entries.size = api.system.queue.pendingEvents.length := by
            simp [InMemoryEventQueue.pendingEvents, OrderedDict.values, OrderedDict.size]
          have atLimit := refused.1
          rw [(System.accepted_of_send driven event).1, List.length_append, acceptedEvents]
          omega
      | worked move notSend =>
          rw [((System.next_moved driven.linked move).accepts notSend).1]
          exact ih member answer

/-- The requests that were passed on, counted client by client. -/
theorem passed_eq_sum {posts : List Post} {clients : Finset String}
    (known : ∀ post ∈ posts, post.client ∈ clients) :
    posts.countP Post.passed =
      (clients.toList.map fun client =>
        posts.countP fun post => post.client = client ∧ post.passed).sum := by
  have counted := Histogram.sum_countP Post.client (posts.filter Post.passed) clients.nodup_toList
  have all : (posts.filter Post.passed).countP (fun post => post.client ∈ clients.toList) =
      posts.countP Post.passed := by
    rw [List.countP_filter]
    apply List.countP_congr
    intro post member
    simp [known post member]
  rw [← all, ← counted]
  congr 1
  apply List.map_congr_left
  intro client _
  rw [List.countP_filter]
  simp only [Bool.decide_and, Bool.decide_eq_true]

/-- An element that only the second property has. -/
theorem countP_lt {α : Type*} {less more : α → Bool} {list : List α}
    (implied : ∀ element ∈ list, less element = true → more element = true) {element : α}
    (member : element ∈ list) (without : less element = false) (there : more element = true) :
    list.countP less < list.countP more := by
  obtain ⟨before, after, rfl⟩ := List.append_of_mem member
  have first : before.countP less ≤ before.countP more :=
    List.countP_mono_left fun other listed => implied other (List.mem_append_left _ listed)
  have second : after.countP less ≤ after.countP more :=
    List.countP_mono_left fun other listed => implied other (by simp [listed])
  simp only [List.countP_append, List.countP_cons, without, there, if_true]
  simp only [Bool.false_eq_true, if_false]
  omega

/-- The clients that post, as the limiter tells them apart.  A flood is answered for by all of them
together. -/
def posters (moves : List ApiMove) : Finset String :=
  (((checks moves).filter fun check => check.kind = .write).map Check.client).toFinset

/-- A request is answered that the queue is full only after the clients that post, together, could be passed
one request more than the queue can hold: what each of them has at the start and gains in the time that has
passed, however slow the worker is.  The limiter must have room for all pairs that ask. -/
theorem flooding_takes_time (surround : Surround) (serialises : surround.setup.host.Serialises)
    (writes reads : ℤ) (windowSeconds : ℚ) (room : 1 ≤ writes) (window : 0 < windowSeconds)
    (moves : List ApiMove) (few : ((checks moves).map Check.key).toFinset.card ≤ maxClients)
    (ordered : ((checks moves).map Check.now).Pairwise (· ≤ ·)) (start length : ℚ)
    (within : ∀ check ∈ checks moves, start ≤ check.now ∧ check.now ≤ start + length) {post : Post}
    (member : post ∈ (run surround (.create writes reads windowSeconds) moves).posts)
    (answer : post.answer = some .queueFull) :
    (surround.setup.queue.maxsize + 1 : ℚ) ≤
      (posters moves).card * (writes + writes / windowSeconds * length) := by
  set api := run surround (.create writes reads windowSeconds) moves with api_eq
  have gains : (0 : ℚ) ≤ writes / windowSeconds :=
    (div_pos (by exact_mod_cast zero_lt_one.trans_le room) window).le
  obtain ⟨check, listed, -⟩ := posted_run surround _ moves post member
  have began : start ≤ start + length := (within check listed).1.trans (within check listed).2
  have metered : Metered _ writes (writes / windowSeconds) start (start + length) api :=
    metered_run surround room window few
      (fun check listed => ⟨List.mem_toFinset.mpr (List.mem_map_of_mem listed), (within check listed).1⟩)
      ordered ⟨began, fun check listed => (within check listed).2⟩
  have each : ∀ client, (api.spent client : ℚ) ≤ writes + writes / windowSeconds * length := by
    intro client
    have bound := metered.spent_le (by omega) gains began client
    rwa [add_sub_cancel_left] at bound
  have known : ∀ post ∈ api.posts, post.client ∈ posters moves := by
    intro post member
    obtain ⟨check, listed, same, writing⟩ := posted_run surround _ moves post member
    rw [posters, List.mem_toFinset, ← same]
    exact List.mem_map_of_mem (List.mem_filter.mpr ⟨listed, decide_eq_true writing⟩)
  have accepted : api.receipts.length =
      (acceptedEvents surround.setup api.system.past).length := by
    rw [(issued_run surround _ moves).receipts.length_eq, List.length_map]
  have atLimit : surround.setup.queue.maxsize ≤
      (acceptedEvents surround.setup api.system.past).length :=
    crowded_run surround serialises _ moves member answer
  have more : api.receipts.length < api.posts.countP Post.passed := by
    unfold receipts
    rw [List.length_filterMap_eq_countP]
    refine countP_lt (fun other _ given => ?_) member (by simp [answer, IngestAnswer.eventId?])
      (by simp [Post.passed, answer, IngestAnswer.throttleReason])
    obtain ⟨client, body, answer⟩ := other
    cases answer with
    | none => cases given
    | some answer =>
        cases answer <;> cases given
        rfl
  have total : surround.setup.queue.maxsize + 1 ≤
      ((posters moves).toList.map api.spent).sum := by
    have counted := passed_eq_sum known
    change api.posts.countP Post.passed = ((posters moves).toList.map api.spent).sum at counted
    omega
  calc (surround.setup.queue.maxsize + 1 : ℚ)
      ≤ (((posters moves).toList.map api.spent).sum : ℕ) := by exact_mod_cast total
    _ = ((posters moves).toList.map fun client => (api.spent client : ℚ)).sum := by
        rw [Nat.cast_list_sum, List.map_map]
        rfl
    _ ≤ ((posters moves).toList.map fun client => (api.spent client : ℚ)).length •
          (writes + writes / windowSeconds * length) := by
        apply List.sum_le_card_nsmul
        intro spent member
        obtain ⟨client, -, rfl⟩ := List.mem_map.mp member
        exact each client
    _ = (posters moves).card * (writes + writes / windowSeconds * length) := by
        rw [List.length_map, Finset.length_toList, nsmul_eq_mul]

/-- A process whose queue holds one message. -/
def narrow : Surround := sampleSurround (sampleSetup { maxsize := 1 } { concurrency := 1 })

/-- One client posts two events at once, and the second one finds the queue full. -/
def twoPosted : List ApiMove :=
  [.post "a" (some ⟨"click", "u1", "https://a.io/", none, []⟩) 0 0,
    .post "a" (some ⟨"click", "u2", "https://a.io/", none, []⟩) 0 0, .handle 0 0 0, .handle 1 0 0]

theorem flooding_two : (1 + 1 : ℚ) ≤ (posters twoPosted).card * (2 + 2 / 10 * 0) := by
  have refused : (⟨"a", some ⟨"click", "u2", "https://a.io/", none, []⟩, some .queueFull⟩ : Post) ∈
      (run narrow (.create 2 2 10) twoPosted).posts := by
    with_unfolding_all exact List.mem_cons_of_mem _ (List.mem_cons_self ..)
  have bound := flooding_takes_time narrow (fun _ => rfl) 2 2 10 (by decide) (by decide +kernel) twoPosted
    (by decide +kernel) (by decide +kernel) 0 0 (by decide +kernel) refused rfl
  have size : narrow.setup.queue.maxsize = 1 := rfl
  simpa [size] using bound

end Api

end FeathrEvents
