/-
Module: FeathrEvents.Proofs.ResetRaces
Purpose: What a demo reset leaves behind when the consumers go on working: the queue stays empty and
  the counters stay zero, and a store stays empty unless a write lands in it after it was emptied.
Trusted boundary: none
Main exports: CleanSlate, LandsLate, KnownEmpty, known_empty_iff_nothing_lands_late,
  nothing_lands_late
-/
import FeathrEvents.App.DemoReset
import FeathrEvents.Proofs.WorkerMoves
import FeathrEvents.Lib.Runs

namespace FeathrEvents

open Collections (OrderedDict BoundedDeque)

namespace InMemoryEventQueue

/-- No message in any state. -/
structure HoldsNothing (queue : InMemoryEventQueue) : Prop where
  entries : queue.entries = .empty
  visible : queue.visible = []
  inflight : queue.inflight = .empty
  dlq : queue.dlq = .empty

variable {host : Host} {settings : QueueSettings} {queue : InMemoryEventQueue}

theorem holdsNothing_clear (queue : InMemoryEventQueue) : HoldsNothing queue.clear :=
  ⟨rfl, rfl, rfl, rfl⟩

theorem HoldsNothing.linked (nothing : HoldsNothing queue) : Linked host queue where
  visibleNodup := by simp [nothing.visible]
  visibleEntry := by simp [nothing.visible]
  inflightEntry := by simp [nothing.inflight]
  liveHandle := by simp [nothing.entries]
  idMinted := by simp [nothing.entries]
  handleMinted := by simp [nothing.inflight]

theorem HoldsNothing.unknown (nothing : HoldsNothing queue) (handle : String) :
    queue.inflight.get? handle = none := by
  rw [nothing.inflight]
  exact OrderedDict.get?_empty handle

/-- Whatever is asked of a queue without messages, it still has none unless one is sent. -/
theorem HoldsNothing.after (nothing : HoldsNothing queue) {call : QueueCall}
    (unsent : ∀ event, call ≠ .send event) : HoldsNothing (queue.after host settings call) := by
  cases call with
  | send event => exact absurd rfl (unsent event)
  | receive maxN visibilityTimeout sweptAt now =>
      have untouched : queue.after host settings (.receive maxN visibilityTimeout sweptAt now) =
          queue := by
        have loans : queue.inflight.items = [] := by
          rw [nothing.inflight]
          rfl
        simp [InMemoryEventQueue.after, perform, receive, sweep, loans, expired, sweepLoop,
          nothing.visible, lend]
      rw [untouched]
      exact nothing
  | delete handle =>
      simpa [InMemoryEventQueue.after, perform, delete, nothing.unknown] using nothing
  | changeVisibility handle seconds now =>
      simpa [InMemoryEventQueue.after, perform, changeVisibility, nothing.unknown] using nothing
  | fail handle now =>
      simpa [InMemoryEventQueue.after, perform, fail, nothing.unknown] using nothing
  | clear => exact holdsNothing_clear queue

end InMemoryEventQueue

namespace System

open InMemoryEventQueue (Linked HoldsNothing holdsNothing_clear)

variable {setup : Setup} {system later : System} {move : Move}

/-! ### The queue and the counters -/

/-- The queue holds nothing and the counters are zero. -/
structure CleanSlate (system : System) : Prop where
  queue : HoldsNothing system.queue
  processed : system.processed = 0
  failed : system.failed = 0

/-- What a consumer still has to do with a message that was cleared leaves no trace: its handle is
unknown to the queue. -/
theorem CleanSlate.moved (clean : system.CleanSlate) (moved : Moved setup system move later)
    (unsent : ∀ event, move ≠ .send event)
    (succeeds : ∀ consumer checkedAt openedAt failedAt,
      move ≠ .raised consumer checkedAt openedAt failedAt) : later.CleanSlate := by
  have asked : ∀ call : QueueCall, (∀ event, call ≠ .send event) →
      HoldsNothing (system.queue.after setup.host setup.queue call) :=
    fun call other => clean.queue.after other
  cases moved with
  | idle | quit | waited | faulted | stored | indexed | cancelled | started | stopCalled
  | drained => exact ⟨clean.queue, clean.processed, clean.failed⟩
  | @landed index write =>
      obtain ⟨sink, event, landed⟩ := write
      cases sink <;> exact ⟨clean.queue, clean.processed, clean.failed⟩
  | sent event => exact absurd rfl (unsent event)
  | found | fetched | beat | stale | refused =>
      exact ⟨asked _ (by simp), clean.processed, clean.failed⟩
  | overflowed | failed | backoffOverflowed => exact absurd rfl (succeeds _ _ _ _)
  | acked stands live => exact absurd (clean.queue.unknown _) live

/-! ### The stores -/

/-- The store has no document. -/
def Bare (system : System) : Sink → Prop
  | .mongodb => system.mongo = .empty
  | .elasticsearch => system.elastic = .empty

/-- The move is a write that takes effect in this store. -/
def LandsIn (sink : Sink) (system : System) (move : Move) : Prop :=
  ∃ index event, move = .land index ∧ system.writes[index]? = some ⟨sink, event, false⟩

/-- A write leaves its store with a document, and the other store as it was. -/
theorem bare_land (setup : Setup) (system : System) (write : Write) (sink : Sink) :
    (System.land setup write system).Bare sink ↔ sink ≠ write.sink ∧ system.Bare sink := by
  obtain ⟨target, event, landed⟩ := write
  cases target <;> cases sink <;> simp [land, Bare, OrderedDict.set_ne_empty]

/-- Only a write that lands in a store changes whether the store is empty. -/
theorem bare_next (linked : Linked setup.host system.queue) (move : Move) (sink : Sink) :
    (system.next setup move).Bare sink ↔ ¬ LandsIn sink system move ∧ system.Bare sink := by
  by_cases isLand : ∃ index, move = .land index
  · obtain ⟨index, rfl⟩ := isLand
    cases called : system.writes[index]? with
    | none => simp [next, step, called, LandsIn]
    | some write =>
        obtain ⟨target, event, landed⟩ := write
        cases landed with
        | true => simp [next, step, called, LandsIn]
        | false =>
            have shape : (system.next setup (.land index)).Bare sink ↔
                (System.land setup ⟨target, event, false⟩ system).Bare sink := by
              cases sink <;> simp [next, step, called, Bare]
            rw [shape, bare_land]
            apply and_congr_left
            intro _
            simp [LandsIn, called, eq_comm]
  · have elsewhere : ¬ LandsIn sink system move := by
      rintro ⟨index, -, same, -⟩
      exact isLand ⟨index, same⟩
    have stores : (system.next setup move).mongo = system.mongo ∧
        (system.next setup move).elastic = system.elastic := by
      have moved := next_moved linked move
      revert moved
      generalize system.next setup move = later
      intro moved
      cases moved with
      | landed sent pending => exact absurd ⟨_, rfl⟩ isLand
      | _ => exact ⟨rfl, rfl⟩
    cases sink <;> simp [Bare, stores, elsewhere]

/-! ### Writes in flight -/

/-- No write to this store is in flight, and none is about to follow one that is.  Nothing can land
in it any more unless a consumer takes up a message. -/
structure Drained (system : System) (sink : Sink) : Prop where
  landed : ∀ event, (⟨sink, event, false⟩ : Write) ∉ system.writes
  unfollowed : sink = .elasticsearch → ∀ consumer message rest index,
    system.at? consumer ≠ .writing .mongodb message rest index

variable {sink : Sink}

/-- A move that calls no store, and after which nobody waits for MongoDB who did not before. -/
theorem Drained.keep (drained : system.Drained sink) (writes : later.writes = system.writes)
    (stands : ∀ other, later.at? other = system.at? other ∨
      ∀ message rest index, later.at? other ≠ .writing .mongodb message rest index) :
    later.Drained sink where
  landed event := by
    rw [writes]
    exact drained.landed event
  unfollowed same other message rest index := by
    rcases stands other with still | elsewhere
    · rw [still]
      exact drained.unfollowed same other message rest index
    · exact elsewhere message rest index

theorem resume_ne_writing (rest : List Message) : ∀ message more index,
    Consumer.resume rest ≠ .writing .mongodb message more index := by
  cases rest <;> simp [Consumer.resume]

/-- Without messages in the queue nobody begins an upsert, so a store that waits for nothing goes on
waiting for nothing. -/
theorem Drained.moved (drained : system.Drained sink) (clean : system.CleanSlate)
    (moved : Moved setup system move later) : later.Drained sink := by
  have put : ∀ {consumer : ℕ} {standing : Consumer}, system.at? consumer ≠ .stopped →
      (∀ message rest index, standing ≠ .writing .mongodb message rest index) →
      later.tasks = system.tasks.set consumer standing → ∀ other,
      later.at? other = system.at? other ∨
        ∀ message rest index, later.at? other ≠ .writing .mongodb message rest index := by
    intro consumer standing stood elsewhere tasks
    exact same_or_of_tasks (fun _ standing => ∀ message rest index,
      standing ≠ .writing .mongodb message rest index) stood tasks elsewhere
  cases moved with
  | idle => exact drained
  | sent | waited | faulted | found | stopCalled | drained =>
      exact drained.keep rfl fun _ => .inl rfl
  | quit stands =>
      exact drained.keep rfl (put (by simp [stands]) (by simp) rfl)
  | fetched stands =>
      exact drained.keep rfl (put (by simp [stands]) (by simp) rfl)
  | beat stands ordered live => exact absurd (clean.queue.unknown _) live
  | stale stands | refused stands =>
      exact drained.keep rfl (put (by simp [stands]) (resume_ne_writing _) rfl)
  | @landed index write =>
      obtain ⟨target, event, landed⟩ := write
      have writes : ∀ other, (⟨sink, other, false⟩ : Write) ∉
          system.writes.set index ⟨target, event, true⟩ := by
        intro other member
        rcases List.mem_or_eq_of_mem_set member with old | new
        · exact drained.landed other old
        · cases new
      cases target <;> exact ⟨writes, drained.unfollowed⟩
  | stored stands =>
      refine ⟨fun event member => ?_, fun same => absurd stands (drained.unfollowed same _ _ _ _)⟩
      rcases List.mem_append.mp member with old | new
      · exact drained.landed event old
      · cases List.mem_singleton.mp new
        exact drained.unfollowed rfl _ _ _ _ stands
  | indexed stands => exact drained.keep rfl (put (by simp [stands]) (by simp) rfl)
  | overflowed stands => exact drained.keep rfl (put (by simp [stands]) (by simp) rfl)
  | failed stands =>
      exact drained.keep rfl (put (by simp [stands]) (resume_ne_writing _) rfl)
  | backoffOverflowed stands => exact drained.keep rfl (put (by simp [stands]) (by simp) rfl)
  | acked stands =>
      exact drained.keep rfl (put (by simp [stands]) (resume_ne_writing _) rfl)
  | cancelled unfinished =>
      exact drained.keep rfl (put (Consumer.ne_stopped unfinished) (by simp) rfl)
  | started =>
      refine drained.keep rfl fun other => (at?_of_started rfl other).imp_right fun ready => ?_
      simp [ready.2]

end System

namespace ResetPhase

/-- The route has cleared the queue and the counters. -/
def pastClear : ResetPhase → Bool
  | .counting | .counted _ => false
  | .dropping _ | .deleting _ | .preparing _ | .returned _ => true

/-- The route has emptied this store. -/
def emptied : ResetPhase → Sink → Bool
  | .counting, _ | .counted _, _ | .dropping _, _ => false
  | .deleting _, sink => sink = .mongodb
  | .preparing _, _ | .returned _, _ => true

theorem pastClear_of_emptied {phase : ResetPhase} {sink : Sink}
    (emptied : phase.emptied sink = true) : phase.pastClear = true := by
  cases phase with
  | counting | counted | dropping => cases emptied
  | deleting | preparing | returned => rfl

end ResetPhase

namespace DemoReset

open FeathrEvents.System (LandsIn Bare CleanSlate)

/-! ### The steps of the route -/

/-- The state after some moves, from the call of the route on. -/
def run (setup : Setup) (system : System) (moves : List DemoMove) : DemoReset :=
  Machine.run (next setup) (begin system) moves

def visits (setup : Setup) (system : System) (moves : List DemoMove) :
    List (DemoReset × DemoMove) :=
  Machine.visits (next setup) (begin system) moves

variable {setup : Setup} {reset : DemoReset}

theorem run_snoc (setup : Setup) (system : System) (moves : List DemoMove) (move : DemoMove) :
    run setup system (moves ++ [move]) = (run setup system moves).next setup move :=
  Machine.run_snoc ..

theorem visits_snoc (setup : Setup) (system : System) (moves : List DemoMove) (move : DemoMove) :
    visits setup system (moves ++ [move]) =
      visits setup system moves ++ [(run setup system moves, move)] :=
  Machine.visits_snoc ..

/-- Everything that a move can do to a reset, with the guards that it passed: a step of the route,
or a move of the worker meanwhile. -/
inductive Advanced (setup : Setup) (reset : DemoReset) : DemoMove → DemoReset → Prop where
  | worked (move : Move) :
      Advanced setup reset (.worker move) ⟨reset.phase, reset.system.next setup move⟩
  | idle {move : DemoMove} (other : ∀ inner, move ≠ .worker inner) : Advanced setup reset move reset
  | counted (phase : reset.phase = .counting) :
      Advanced setup reset .count ⟨.counted reset.system.mongo.size, reset.system⟩
  | cleared {documents : ℕ} {now : ℚ} (before : Cleared)
      (phase : reset.phase = .counted documents) :
      Advanced setup reset (.clear now) ⟨.dropping before,
        ((reset.system.tick now).made setup none .clear).resetCounters⟩
  | dropped {before : Cleared} (phase : reset.phase = .dropping before) :
      Advanced setup reset .drop ⟨.deleting before, { reset.system with mongo := .empty }⟩
  | deleted {before : Cleared} (phase : reset.phase = .deleting before) :
      Advanced setup reset .delete ⟨.preparing before, { reset.system with elastic := .empty }⟩
  | finished {before : Cleared} (phase : reset.phase = .preparing before) :
      Advanced setup reset .finish ⟨.returned { cleared := before }, reset.system⟩

theorem next_advanced (setup : Setup) (reset : DemoReset) (move : DemoMove) :
    Advanced setup reset move (reset.next setup move) := by
  cases move with
  | worker move =>
      have shape : reset.next setup (.worker move) =
          ⟨reset.phase, reset.system.next setup move⟩ := by
        cases done : reset.system.step setup move <;> simp [next, step, System.next, done]
      rw [shape]
      exact .worked move
  | count =>
      cases phase : reset.phase with
      | counting => simpa [next, step, phase] using Advanced.counted phase
      | _ => simpa [next, step, phase] using Advanced.idle (by simp)
  | clear now =>
      cases phase : reset.phase with
      | counted documents =>
          by_cases ordered : reset.system.now ≤ now
          · simpa [next, step, phase, ordered, System.call_eq] using Advanced.cleared _ phase
          · simpa [next, step, phase, ordered] using Advanced.idle (by simp)
      | _ => simpa [next, step, phase] using Advanced.idle (by simp)
  | drop =>
      cases phase : reset.phase with
      | dropping before => simpa [next, step, phase] using Advanced.dropped phase
      | _ => simpa [next, step, phase] using Advanced.idle (by simp)
  | delete =>
      cases phase : reset.phase with
      | deleting before => simpa [next, step, phase] using Advanced.deleted phase
      | _ => simpa [next, step, phase] using Advanced.idle (by simp)
  | finish =>
      cases phase : reset.phase with
      | preparing before => simpa [next, step, phase] using Advanced.finished phase
      | _ => simpa [next, step, phase] using Advanced.idle (by simp)

/-! ### Late writes -/

/-- The visit lands a write in this store after the reset has emptied it. -/
def LandsLateIn (sink : Sink) (visit : DemoReset × DemoMove) : Prop :=
  visit.1.phase.emptied sink = true ∧
    ∃ move, visit.2 = .worker move ∧ LandsIn sink visit.1.system move

/-- A write lands in a store that the reset has already emptied.  It was called before the consumers
were stopped, and a cancelled task does not take it back. -/
def LandsLate (visit : DemoReset × DemoMove) : Prop := ∃ sink, LandsLateIn sink visit

/-- The write that a move lands. -/
def write? : DemoMove → Option ℕ
  | .worker (.land index) => some index
  | _ => none

theorem landsLate_iff (visit : DemoReset × DemoMove) :
    LandsLate visit ↔ ∃ index ∈ write? visit.2, ∃ write ∈ visit.1.system.writes[index]?,
      write.landed = false ∧ visit.1.phase.emptied write.sink = true := by
  constructor
  · rintro ⟨sink, emptied, _, same, index, event, rfl, pending⟩
    exact ⟨index, by rw [same]; rfl, ⟨sink, event, false⟩, pending, rfl, emptied⟩
  · rintro ⟨index, named, ⟨sink, event, landed⟩, pending, ⟨⟩, emptied⟩
    refine ⟨sink, emptied, .land index, ?_, index, event, rfl, pending⟩
    revert named
    cases visit.2 with
    | worker move => cases move <;> simp [write?]
    | _ => simp [write?]

instance : DecidablePred LandsLate := fun visit => decidable_of_iff _ (landsLate_iff visit).symm

/-- The known empty state: nothing in the queue, in the dead-letter queue or in the counters, and no
document in either store. -/
structure KnownEmpty (system : System) : Prop where
  slate : system.CleanSlate
  stores : ∀ sink, system.Bare sink

/-- No event is sent and no store operation fails. -/
def Succeeds (move : DemoMove) : Prop :=
  (∀ event, move ≠ .worker (.send event)) ∧
    ∀ consumer checkedAt openedAt failedAt,
      move ≠ .worker (.raised consumer checkedAt openedAt failedAt)

/-- What the steps so far have left: a store that is emptied has exactly what landed in it late, and
the rest is cleared for good once it is. -/
structure Tracked (past : List (DemoReset × DemoMove)) (reset : DemoReset) : Prop where
  slate : reset.phase.pastClear = true → reset.system.CleanSlate
  early : ∀ sink, reset.phase.emptied sink = false → ∀ visit ∈ past, ¬ LandsLateIn sink visit
  late : ∀ sink, reset.phase.emptied sink = true →
    (reset.system.Bare sink ↔ ∀ visit ∈ past, ¬ LandsLateIn sink visit)

/-- A move of the worker keeps the queue empty, and fills a store only by landing a write in it. -/
theorem Tracked.worked {past : List (DemoReset × DemoMove)} (tracked : Tracked past reset)
    (move : Move) (succeeds : Succeeds (.worker move)) :
    Tracked (past ++ [(reset, .worker move)]) ⟨reset.phase, reset.system.next setup move⟩ where
  slate cleared := by
    have clean := tracked.slate cleared
    apply clean.moved (System.next_moved clean.queue.linked move)
    · exact fun event same => succeeds.1 event (congrArg _ same)
    · exact fun _ _ _ _ same => succeeds.2 _ _ _ _ (congrArg _ same)
  early sink untouched := by
    rw [List.forall_mem_append, List.forall_mem_singleton]
    refine ⟨tracked.early sink untouched, fun ⟨emptied, _⟩ => ?_⟩
    cases untouched.symm.trans emptied
  late sink emptied := by
    have clean := tracked.slate (ResetPhase.pastClear_of_emptied emptied)
    have landing : LandsLateIn sink (reset, .worker move) ↔ LandsIn sink reset.system move := by
      constructor
      · rintro ⟨-, _, ⟨⟩, lands⟩
        exact lands
      · exact fun lands => ⟨emptied, move, rfl, lands⟩
    rw [List.forall_mem_append, List.forall_mem_singleton, landing, ← tracked.late sink emptied,
      System.bare_next clean.queue.linked move sink, and_comm]

/-- A step of the route itself lands nothing. -/
theorem not_landsLateIn {visit : DemoReset × DemoMove} (own : ∀ inner, visit.2 ≠ .worker inner)
    (sink : Sink) : ¬ LandsLateIn sink visit :=
  fun ⟨_, move, same, _⟩ => own move same

/-- A step of the route that leaves the stores it has emptied as they are. -/
theorem Tracked.kept {past : List (DemoReset × DemoMove)} {later : DemoReset} {move : DemoMove}
    (tracked : Tracked past reset) (own : ∀ inner, move ≠ .worker inner)
    (slate : later.phase.pastClear = true → later.system.CleanSlate)
    (stores : ∀ sink, later.phase.emptied sink = true →
      (reset.phase.emptied sink = true ∧ (later.system.Bare sink ↔ reset.system.Bare sink)) ∨
      (reset.phase.emptied sink = false ∧ later.system.Bare sink))
    (monotone : ∀ sink, later.phase.emptied sink = false → reset.phase.emptied sink = false) :
    Tracked (past ++ [(reset, move)]) later where
  slate := slate
  early sink untouched := by
    rw [List.forall_mem_append, List.forall_mem_singleton]
    exact ⟨tracked.early sink (monotone sink untouched), not_landsLateIn own sink⟩
  late sink emptied := by
    rw [List.forall_mem_append, List.forall_mem_singleton, and_iff_left (not_landsLateIn own sink)]
    rcases stores sink emptied with ⟨already, same⟩ | ⟨untouched, bare⟩
    · exact same.trans (tracked.late sink already)
    · exact iff_of_true bare (tracked.early sink untouched)

theorem Tracked.advanced {past : List (DemoReset × DemoMove)} {later : DemoReset} {move : DemoMove}
    (tracked : Tracked past reset) (succeeds : Succeeds move)
    (advanced : Advanced setup reset move later) : Tracked (past ++ [(reset, move)]) later := by
  cases advanced with
  | worked move => exact tracked.worked move succeeds
  | idle other =>
      apply tracked.kept other tracked.slate
      · exact fun sink emptied => .inl ⟨emptied, .rfl⟩
      · exact fun sink untouched => untouched
  | counted phase =>
      apply tracked.kept (by simp)
      · exact nofun
      · exact fun sink emptied => nomatch emptied
      · exact fun sink _ => by simp [phase, ResetPhase.emptied]
  | cleared before phase =>
      apply tracked.kept (by simp)
      · exact fun _ => ⟨InMemoryEventQueue.holdsNothing_clear _, rfl, rfl⟩
      · exact fun sink emptied => nomatch emptied
      · exact fun sink _ => by simp [phase, ResetPhase.emptied]
  | dropped phase =>
      have clean := tracked.slate (by simp [phase, ResetPhase.pastClear])
      apply tracked.kept (by simp)
      · exact fun _ => ⟨clean.queue, clean.processed, clean.failed⟩
      · intro sink emptied
        cases sink with
        | mongodb => exact .inr ⟨by simp [phase, ResetPhase.emptied], rfl⟩
        | elasticsearch => cases emptied
      · exact fun sink _ => by simp [phase, ResetPhase.emptied]
  | deleted phase =>
      have clean := tracked.slate (by simp [phase, ResetPhase.pastClear])
      apply tracked.kept (by simp)
      · exact fun _ => ⟨clean.queue, clean.processed, clean.failed⟩
      · intro sink emptied
        cases sink with
        | mongodb => exact .inl ⟨by simp [phase, ResetPhase.emptied], .rfl⟩
        | elasticsearch => exact .inr ⟨by simp [phase, ResetPhase.emptied], rfl⟩
      · exact nofun
  | finished phase =>
      apply tracked.kept (by simp)
      · exact fun _ => tracked.slate (by simp [phase, ResetPhase.pastClear])
      · exact fun sink _ => .inl ⟨by simp [phase, ResetPhase.emptied], .rfl⟩
      · exact nofun

theorem tracked_run (setup : Setup) (system : System) (moves : List DemoMove)
    (succeed : ∀ move ∈ moves, Succeeds move) :
    Tracked (visits setup system moves)
      (run setup system moves) := by
  apply Machine.visits_invariant (next setup) Tracked Succeeds _ _ moves succeed
  · exact ⟨nofun, fun _ _ _ => nofun, fun _ => nofun⟩
  · exact fun past reset move succeeds tracked =>
      tracked.advanced succeeds (next_advanced setup reset move)

/-- A reset of a system in any state, with its consumers at any await and their writes landing at
any later time, reaches the known empty state exactly when no write lands in MongoDB after its
collection was dropped, and none in Elasticsearch after its index was deleted. -/
theorem known_empty_iff_nothing_lands_late (setup : Setup) (system : System)
    (moves : List DemoMove) (succeed : ∀ move ∈ moves, Succeeds move)
    (returned : ∃ answer, (run setup system moves).phase = .returned answer) :
    KnownEmpty (run setup system moves).system ↔
      ∀ visit ∈ visits setup system moves, ¬ LandsLate visit := by
  obtain ⟨answer, returned⟩ := returned
  have tracked := tracked_run setup system moves succeed
  have slate := tracked.slate (by simp [returned, ResetPhase.pastClear])
  have stores := fun sink => tracked.late sink (by simp [returned, ResetPhase.emptied])
  constructor
  · rintro empty visit member ⟨sink, late⟩
    exact (stores sink).mp (empty.stores sink) visit member late
  · intro onTime
    refine ⟨slate, fun sink => (stores sink).mpr fun visit member late => ?_⟩
    exact onTime visit member ⟨sink, late⟩

/-- The route empties a store only when it has nothing in flight.  The code does not wait for that,
but every run in which it happens to be so is harmless. -/
structure Patient (visit : DemoReset × DemoMove) : Prop where
  drop : ∀ before, visit.1.phase = .dropping before → visit.2 = .drop →
    visit.1.system.Drained .mongodb
  delete : ∀ before, visit.1.phase = .deleting before → visit.2 = .delete →
    visit.1.system.Drained .elasticsearch

theorem drained_next {reset later : DemoReset} {move : DemoMove} (patient : Patient (reset, move))
    (clean : reset.phase.pastClear = true → reset.system.CleanSlate)
    (drained : ∀ sink, reset.phase.emptied sink = true → reset.system.Drained sink)
    (advanced : Advanced setup reset move later) :
    ∀ sink, later.phase.emptied sink = true → later.system.Drained sink := by
  intro sink emptied
  cases advanced with
  | worked move =>
      have slate := clean (ResetPhase.pastClear_of_emptied emptied)
      exact (drained sink emptied).moved slate (System.next_moved slate.queue.linked move)
  | idle => exact drained sink emptied
  | counted | cleared => cases emptied
  | dropped phase =>
      cases sink with
      | mongodb =>
          have settled := patient.drop _ phase rfl
          exact ⟨settled.landed, settled.unfollowed⟩
      | elasticsearch => cases emptied
  | deleted phase =>
      cases sink with
      | mongodb =>
          have settled := drained .mongodb (by simp [phase, ResetPhase.emptied])
          exact ⟨settled.landed, settled.unfollowed⟩
      | elasticsearch =>
          have settled := patient.delete _ phase rfl
          exact ⟨settled.landed, settled.unfollowed⟩
  | finished phase => exact drained sink (by simp [phase, ResetPhase.emptied])

theorem patient_run (setup : Setup) (system : System) (moves : List DemoMove)
    (succeed : ∀ move ∈ moves, Succeeds move)
    (patient : ∀ visit ∈ visits setup system moves, Patient visit) :
    (∀ sink, (run setup system moves).phase.emptied sink = true →
      (run setup system moves).system.Drained sink) ∧
    ∀ visit ∈ visits setup system moves, ¬ LandsLate visit := by
  induction moves using List.reverseRecOn with
  | nil => exact ⟨fun _ emptied => (nomatch emptied), by simp [visits]⟩
  | append_singleton moves move ih =>
      rw [visits_snoc, List.forall_mem_append, List.forall_mem_singleton] at patient
      rw [List.forall_mem_append, List.forall_mem_singleton] at succeed
      obtain ⟨drained, onTime⟩ := ih succeed.1 patient.1
      have slate := (tracked_run setup system moves succeed.1).slate
      rw [visits_snoc, run_snoc, List.forall_mem_append, List.forall_mem_singleton]
      refine ⟨drained_next patient.2 slate drained (next_advanced setup _ move), onTime, ?_⟩
      rintro ⟨sink, emptied, _, -, _, event, -, pending⟩
      exact (drained sink emptied).landed event (List.mem_of_getElem? pending)

/-- Nothing lands late when each store has nothing in flight as it is emptied. -/
theorem nothing_lands_late (setup : Setup) (system : System) (moves : List DemoMove)
    (succeed : ∀ move ∈ moves, Succeeds move)
    (patient : ∀ visit ∈ visits setup system moves, Patient visit) :
    ∀ visit ∈ visits setup system moves, ¬ LandsLate visit :=
  (patient_run setup system moves succeed patient).2

/-- Nothing is sent and nothing fails, the route has returned, and no consumer is at work. -/
structure Undisturbed (setup : Setup) (system : System) (moves : List DemoMove) : Prop where
  succeed : ∀ move ∈ moves, Succeeds move
  returned : ∃ answer, (run setup system moves).phase = .returned answer
  idle : ∀ standing ∈ (run setup system moves).system.tasks,
    standing = .ready ∨ standing.done = true

/-- A worker that has just asked MongoDB for the upsert of its only message. -/
def upserting : System :=
  Machine.run (System.next (sampleSetup {} { concurrency := 1 })) .create
    [.send (sampleEvent "a"), .start, .turn 0 none 0 0 0, .heartbeat 0 0]

/-- The upsert takes effect after the drop, and the write to the index after the deletion. -/
def lateMoves : List DemoMove :=
  [.count, .clear 0, .drop, .worker (.land 0), .worker (.returned 0), .delete, .worker (.land 1),
    .finish, .worker (.returned 0), .worker (.ack 0)]

theorem a_late_write_survives_the_reset :
    Undisturbed (sampleSetup {} { concurrency := 1 }) upserting lateMoves ∧
    ¬ KnownEmpty
      (run (sampleSetup {} { concurrency := 1 }) upserting lateMoves).system := by
  refine ⟨⟨?_, ⟨_, rfl⟩, ?_⟩, fun empty => ?_⟩
  · simp [lateMoves, Succeeds]
  · have tasks : (run (sampleSetup {} { concurrency := 1 }) upserting lateMoves).system.tasks =
        [.ready] := rfl
    simp [tasks]
  · have size := congrArg OrderedDict.size (empty.stores .mongodb)
    revert size
    decide

/-- Both writes take effect before the drop. -/
def timelyMoves : List DemoMove :=
  [.count, .clear 0, .worker (.land 0), .worker (.returned 0), .worker (.land 1), .drop, .delete,
    .finish, .worker (.returned 0), .worker (.ack 0)]

theorem timely_writes_are_cleared :
    KnownEmpty
      (run (sampleSetup {} { concurrency := 1 }) upserting timelyMoves).system := by
  have succeed : ∀ move ∈ timelyMoves, Succeeds move := by simp [timelyMoves, Succeeds]
  have returned : ∃ answer,
      (run (sampleSetup {} { concurrency := 1 }) upserting timelyMoves).phase = .returned answer :=
    ⟨_, rfl⟩
  have onTime : ∀ visit ∈ visits (sampleSetup {} { concurrency := 1 }) upserting timelyMoves,
      ¬ LandsLate visit := by decide
  exact (known_empty_iff_nothing_lands_late _ upserting timelyMoves succeed returned).mpr onTime

end DemoReset

end FeathrEvents
