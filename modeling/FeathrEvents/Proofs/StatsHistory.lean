/-
Module: FeathrEvents.Proofs.StatsHistory
Purpose: Which reply the history panel shows once all replies are there: the one to the newest request that
  succeeded, unless the reply that came last was overtaken by one to a later request.
Trusted boundary: none
Main exports: Arrival, arrivals, selectedFrom, Shown, Settled, SucceededSince, Settles, Overtaken, Tracked,
  settles_iff, an_overtaken_reply_stays
-/
import FeathrEvents.App.UseStats
import FeathrEvents.Lib.Runs

namespace FeathrEvents

namespace UseStats

open Collections (OrderedDict)

variable {Stats Summary : Type*} {state : UseStats Stats Summary} {cached : Summary → Bool}

/-- A move with the state in which it is made. -/
abbrev Visit (Stats Summary : Type*) := UseStats Stats Summary × StatsMove Stats Summary

/-- A successful reply, with the number of its request and the bucket that was asked for. -/
structure Arrival (Stats : Type*) where
  number : ℕ
  bucket : Bucket
  stats : Stats

def arrival : Visit Stats Summary → Option (Arrival Stats)
  | (state, .statsReply mine (some stats) _ _) =>
      (state.requests.flying.get? mine).map fun request => ⟨mine, request.bucket, stats⟩
  | _ => none

/-- The successful replies in the order in which they arrived. -/
def arrivals (past : List (Visit Stats Summary)) : List (Arrival Stats) := past.filterMap arrival

/-- The number of the request that a selection makes. -/
def selection : Visit Stats Summary → Option ℕ
  | (state, .select bucket _) =>
      if bucket = state.bucket then none else some (state.requests.last + 1)
  | _ => none

/-- The number of the first request since the current bucket was selected. -/
def selectedFrom (past : List (Visit Stats Summary)) : ℕ :=
  ((past.filterMap selection).getLast?).getD 1

/-- The reply that came last; it is the one on screen. -/
def Shown (past : List (Visit Stats Summary)) (reply : Arrival Stats) : Prop :=
  (arrivals past).getLast? = some reply

/-- No reply is outstanding. -/
def Settled (state : UseStats Stats Summary) : Prop :=
  ∀ number, state.requests.flying.get? number = none

/-- A request made since the current bucket was selected has succeeded.  Without one there is
nothing that the panel could show for it. -/
def SucceededSince (past : List (Visit Stats Summary)) : Prop :=
  ∃ reply ∈ arrivals past, selectedFrom past ≤ reply.number

/-- Once all replies are there, and one since the bucket was selected is a success, the panel shows a reply
for the selected bucket, and it is the one to the newest request that succeeded. -/
def Settles (past : List (Visit Stats Summary)) (state : UseStats Stats Summary) : Prop :=
  Settled state → SucceededSince past →
    ∃ reply, Shown past reply ∧ state.query = some reply.stats ∧ reply.bucket = state.bucket ∧
      ∀ other ∈ arrivals past, other.number ≤ reply.number

/-- Before the reply that came last, there came one to a later request.  The hook keeps whatever
comes last, so an older answer stays on screen. -/
def Overtaken (past : List (Visit Stats Summary)) : Prop :=
  ∃ before reply, arrivals past = before ++ [reply] ∧ ∃ other ∈ before, reply.number < other.number

/-! ### What is known of a run -/

theorem arrivals_snoc (past : List (Visit Stats Summary)) (visit : Visit Stats Summary) :
    arrivals (past ++ [visit]) = arrivals past ++ (arrival visit).toList :=
  Machine.filterMap_snoc ..

theorem selectedFrom_snoc (past : List (Visit Stats Summary)) (visit : Visit Stats Summary) :
    selectedFrom (past ++ [visit]) = (selection visit).getD (selectedFrom past) := by
  rw [selectedFrom, Machine.getLast?_filterMap_snoc]
  cases selection visit <;> rfl

/-- The reply that came last is on screen, and the requests since the selection are for the selected
bucket. -/
structure Tracked (past : List (Visit Stats Summary)) (state : UseStats Stats Summary) : Prop where
  query : state.query = (arrivals past).getLast?.map Arrival.stats
  made : selectedFrom past ≤ state.requests.last
  arrived : ∀ reply ∈ arrivals past, reply.number ≤ state.requests.last
  flying : ∀ number request, state.requests.flying.get? number = some request →
    selectedFrom past ≤ number → request.bucket = state.bucket
  asked : ∀ reply ∈ arrivals past, selectedFrom past ≤ reply.number → reply.bucket = state.bucket

variable {past : List (Visit Stats Summary)}

theorem tracked_mount (bucket : Bucket) (now : ℚ) :
    Tracked [] (mount bucket now : UseStats Stats Summary) := by
  refine ⟨rfl, le_rfl, by simp [arrivals], ?_, by simp [arrivals]⟩
  intro number request asked _
  rw [mount, loadLive, reloadQuery, Latest.flying_issue] at asked
  split at asked
  · cases asked
    rfl
  · cases asked

/-- A move that concerns the live panel only. -/
theorem Tracked.kept (tracked : Tracked past state) {visit : Visit Stats Summary}
    (came : arrival visit = none) (selects : selection visit = none)
    {later : UseStats Stats Summary} (query : later.query = state.query)
    (bucket : later.bucket = state.bucket) (requests : later.requests = state.requests) :
    Tracked (past ++ [visit]) later := by
  obtain ⟨shown, made, arrived, flying, asked⟩ := tracked
  constructor
  all_goals simp only [arrivals_snoc, selectedFrom_snoc, came, selects, query, bucket, requests,
    Option.toList_none, List.append_nil, Option.getD_none]
  exacts [shown, made, arrived, flying, asked]

/-- A refresh asks for the selected bucket. -/
theorem Tracked.refreshed (tracked : Tracked past state) (now : ℚ) :
    Tracked (past ++ [(state, .refresh now)]) (state.reloadQuery now) := by
  obtain ⟨shown, made, arrived, flying, asked⟩ := tracked
  constructor
  all_goals simp only [arrivals_snoc, selectedFrom_snoc, arrival, selection, Option.toList_none,
    List.append_nil, Option.getD_none]
  case query => exact shown
  case made => exact Nat.le_succ_of_le made
  case arrived => exact fun reply member => Nat.le_succ_of_le (arrived reply member)
  case asked => exact asked
  case flying =>
    intro number request flies since
    rw [reloadQuery, Latest.flying_issue] at flies
    split at flies
    · cases flies
      rfl
    · exact flying number request flies since

/-- After a new bucket was selected, all earlier requests are from before the selection. -/
theorem Tracked.selected (tracked : Tracked past state) {bucket : Bucket}
    (new : bucket ≠ state.bucket)
    (now : ℚ) :
    Tracked (past ++ [(state, .select bucket now)])
      (reloadQuery now { state with bucket := bucket }) := by
  obtain ⟨shown, made, arrived, flying, asked⟩ := tracked
  constructor
  all_goals simp only [arrivals_snoc, selectedFrom_snoc, arrival, selection, if_neg new,
    Option.toList_none, List.append_nil, Option.getD_some]
  case query => exact shown
  case made => exact le_rfl
  case arrived => exact fun reply member => Nat.le_succ_of_le (arrived reply member)
  case asked =>
    intro reply member since
    exact absurd (since.trans (arrived reply member)) (Nat.not_succ_le_self _)
  case flying =>
    intro number request flies since
    rw [reloadQuery, Latest.flying_issue] at flies
    split at flies
    · cases flies
      rfl
    · exact absurd (since.trans (state.requests.le_last flies)) (Nat.not_succ_le_self _)

theorem Tracked.replied (tracked : Tracked past state) (mine : ℕ) (outcome : Option Stats) (now : ℚ)
    (date : ℤ) :
    Tracked (past ++ [(state, .statsReply mine outcome now date)])
      (state.statsReply mine outcome now date) := by
  rw [statsReply]
  cases flies : state.requests.flying.get? mine with
  | none =>
      refine tracked.kept ?_ rfl rfl rfl rfl
      cases outcome with
      | none => rfl
      | some stats => simp [arrival, flies]
  | some request =>
      obtain ⟨shown, made, arrived, flying, asked⟩ := tracked
      have still : ∀ number request, (state.requests.settle mine).flying.get? number = some request →
          selectedFrom past ≤ number → request.bucket = state.bucket := by
        intro number request flies since
        rw [Latest.flying_settle] at flies
        split at flies
        · cases flies
        · exact flying number request flies since
      cases outcome with
      | none =>
          constructor
          all_goals simp only [arrivals_snoc, selectedFrom_snoc, arrival, selection,
            Option.toList_none, List.append_nil, Option.getD_none]
          exacts [shown, made, arrived, still, asked]
      | some stats =>
          constructor
          all_goals simp only [arrivals_snoc, selectedFrom_snoc, arrival, selection, flies,
            Option.map_some, Option.toList_some, Option.getD_none, List.getLast?_concat]
          case made => exact made
          case flying => exact still
          case arrived =>
            intro reply member
            rcases List.mem_append.mp member with earlier | new
            · exact arrived reply earlier
            · cases List.mem_singleton.mp new
              exact state.requests.le_last flies
          case asked =>
            intro reply member since
            rcases List.mem_append.mp member with earlier | new
            · exact asked reply earlier since
            · cases List.mem_singleton.mp new
              exact flying mine request flies since

theorem liveReply_frame (cached : Summary → Bool) (mine : ℕ) (outcome : Option Summary) (now : ℚ)
    (date : ℤ) (state : UseStats Stats Summary) :
    ∃ realtime stale cacheAgeMs recomputedAt latency polls,
      state.liveReply cached mine outcome now date = { state with
        realtime := realtime, stale := stale, cacheAgeMs := cacheAgeMs,
        recomputedAt := recomputedAt, latency := latency, polls := polls } := by
  cases outcome with
  | none | some =>
      rw [liveReply]
      split <;> exact ⟨_, _, _, _, _, _, rfl⟩

theorem Tracked.next (tracked : Tracked past state) (move : StatsMove Stats Summary) :
    Tracked (past ++ [(state, move)]) (state.next cached move) := by
  cases move with
  | select bucket now =>
      rw [UseStats.next]
      split
      · rename_i same
        exact tracked.kept rfl (by rw [selection, if_pos same]) rfl rfl rfl
      · rename_i new
        exact tracked.selected new now
  | refresh now => exact tracked.refreshed now
  | statsReply mine outcome now date => exact tracked.replied mine outcome now date
  | poll now => exact tracked.kept rfl rfl rfl rfl rfl
  | liveReply mine outcome now date =>
      obtain ⟨_, _, _, _, _, _, reached⟩ := liveReply_frame cached mine outcome now date state
      rw [UseStats.next, reached]
      exact tracked.kept rfl rfl rfl rfl rfl

/-- Every run keeps account of its replies. -/
theorem tracked_run (cached : Summary → Bool) (bucket : Bucket) (now : ℚ)
    (moves : List (StatsMove Stats Summary)) :
    Tracked (Machine.visits (next cached) (mount bucket now) moves)
      (Machine.run (next cached) (mount bucket now) moves) :=
  Machine.visits_invariant (next cached) Tracked (fun _ => True) (tracked_mount bucket now)
    (fun _ _ move _ tracked => tracked.next move) moves fun _ _ => trivial

/-! ### What the panel settles on -/

/-- The replies end with the one on screen, and it is to the newest request unless it was overtaken. -/
theorem newest_iff {reply : Arrival Stats} (shown : Shown past reply) :
    (∀ other ∈ arrivals past, other.number ≤ reply.number) ↔ ¬ Overtaken past := by
  obtain ⟨before, split⟩ := List.getLast?_eq_some_iff.mp shown
  constructor
  · rintro newest ⟨earlier, last, ends, other, member, later⟩
    rw [split] at ends
    obtain ⟨rfl, same⟩ := List.append_inj' ends rfl
    cases same
    have bound := newest other (split ▸ List.mem_append_left _ member)
    exact absurd later (not_lt.mpr bound)
  · intro ahead other member
    rw [split] at member
    rcases List.mem_append.mp member with earlier | last
    · by_contra later
      exact ahead ⟨before, reply, split, other, earlier, not_le.mp later⟩
    · cases List.mem_singleton.mp last
      exact le_rfl

/-- The panel settles on the newest reply for the selected bucket exactly when, by the time all replies are
there, the one that came last was not overtaken. -/
theorem settles_iff (cached : Summary → Bool) (bucket : Bucket) (now : ℚ)
    (moves : List (StatsMove Stats Summary)) :
    Settles (Machine.visits (next cached) (mount bucket now) moves)
        (Machine.run (next cached) (mount bucket now) moves) ↔
      (Settled (Machine.run (next cached) (mount bucket now) moves) →
        SucceededSince (Machine.visits (next cached) (mount bucket now) moves) →
          ¬ Overtaken (Machine.visits (next cached) (mount bucket now) moves)) := by
  have tracked := tracked_run cached bucket now moves
  refine forall_congr' fun settled => forall_congr' fun succeeded => ?_
  obtain ⟨success, member, since⟩ := succeeded
  constructor
  · rintro ⟨reply, shown, -, -, newest⟩
    exact (newest_iff shown).mp newest
  · intro ahead
    obtain ⟨reply, shown⟩ := Option.isSome_iff_exists.mp
      (List.getLast?_isSome.mpr (List.ne_nil_of_mem member))
    have newest := (newest_iff shown).mpr ahead
    refine ⟨reply, shown, ?_, ?_, newest⟩
    · rw [tracked.query, shown]
      rfl
    · exact tracked.asked reply (List.mem_of_getLast? shown) (since.trans (newest success member))

/-- While the request for `hourly` is in flight `weekly` is selected, and its reply comes first. -/
def hourlyThenWeekly : List (StatsMove String Empty) :=
  [.select .weekly 1, .statsReply 2 (some "weekly") 2 2, .statsReply 1 (some "hourly") 3 3]

/-- The panel stays with the history by the hour. -/
theorem an_overtaken_reply_stays :
    ¬ Settles (Machine.visits (next nofun) (mount .hourly 0) hourlyThenWeekly)
      (Machine.run (next nofun) (mount .hourly 0) hourlyThenWeekly) := by
  intro settles
  have answers : arrivals (Machine.visits (next nofun) (mount .hourly 0) hourlyThenWeekly) =
      [⟨2, .weekly, "weekly"⟩] ++ [⟨1, .hourly, "hourly"⟩] := rfl
  have since : selectedFrom (Machine.visits (next nofun) (mount .hourly 0) hourlyThenWeekly) = 2 :=
    rfl
  obtain ⟨reply, shown, -, -, newest⟩ := settles (fun _ => rfl)
    ⟨⟨2, .weekly, "weekly"⟩, by simp [answers], since.le⟩
  exact (newest_iff shown).mp newest ⟨_, _, answers, _, List.mem_singleton_self _, by decide⟩

end UseStats

end FeathrEvents
