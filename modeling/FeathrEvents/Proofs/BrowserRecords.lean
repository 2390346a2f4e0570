/-
Module: FeathrEvents.Proofs.BrowserRecords
Purpose: What the two records of the console hold after any number of changes and reloads: the newest runs
  since they were cleared, and the first and the last outage of each dependency.
Trusted boundary: none
Main exports: RecordMove, RunLog.history, RunLog.the_log_has_the_newest_runs, FailureWatch.Seen,
  FailureWatch.seenSince, FailureWatch.the_watch_remembers
-/
import FeathrEvents.App.BrowserRecords

namespace FeathrEvents

/-- What happens to a record: it is changed, or the page is reloaded; the store takes what is written then
or refuses it. -/
inductive RecordMove (κ : Type*) where
  | did (change : κ) (taken : Bool)
  | reload (taken : Bool)

namespace RecordMove

variable {κ σ : Type*}

def taken : RecordMove κ → Bool
  | .did _ taken => taken
  | .reload taken => taken

def step (apply : κ → σ → Option σ) : RecordMove κ → Persisted.Step σ
  | .did change taken => .update (apply change) taken
  | .reload taken => .restart taken

theorem taken_step (apply : κ → σ → Option σ) (move : RecordMove κ) :
    (move.step apply).taken = move.taken := by
  cases move <;> rfl

end RecordMove

namespace RunLog

/-- The record of the runs after some moves. -/
def run (stored : Option Json) (mounted : Bool) (moves : List (RecordMove Change)) :
    Persisted (List Json) Json :=
  Machine.run (Persisted.next Json.array load) (Persisted.mount Json.array load mounted stored)
    (moves.map (RecordMove.step change))

/-- What a move adds to the runs there were. -/
def logged (runs : List Json) : RecordMove Change → List Json
  | .did (.add now run) _ => run.toJson now :: runs
  | .did .clear _ => []
  | .reload _ => runs

/-- All runs since the last `clear`, the newest first, as if nothing were ever reloaded and the log
had no bound.  The log of the page is compared with its beginning. -/
def history (loaded : List Json)
    (moves : List (RecordMove Change)) : List Json := moves.foldl logged loaded

theorem isRun_toJson (now : ℚ) (run : Run) : isRun (run.toJson now) = true := by
  cases throttled : run.throttled <;> simp [isRun, Run.toJson, Json.member?, Json.isNumber, throttled]

/-- The log is short, and all its rows are runs, whatever another version of the page or somebody at
its console has left in the store. -/
structure Kept (runs : List Json) : Prop where
  few : runs.length ≤ maxRuns
  rows : ∀ row ∈ runs, isRun row = true

theorem kept_load (stored : Option Json) : Kept (load stored) := by
  rw [load.eq_def]
  split
  · refine ⟨List.length_take_le .., fun row member => ?_⟩
    exact (List.mem_filter.mp (List.mem_of_mem_take member)).2
  · exact ⟨Nat.zero_le _, by simp⟩

theorem Kept.change {runs next : List Json} (kept : Kept runs) {change : Change}
    (changed : RunLog.change change runs = some next) : Kept next := by
  cases change with
  | add now run =>
      cases changed
      refine ⟨List.length_take_le .., fun row member => ?_⟩
      rcases List.mem_cons.mp (List.mem_of_mem_take member) with rfl | old
      · exact isRun_toJson now run
      · exact kept.rows row old
  | clear =>
      cases changed
      exact ⟨Nat.zero_le _, by simp⟩

/-- What was written is read back as it was. -/
theorem Kept.load_array {runs : List Json} (kept : Kept runs) : load
    (some (.array runs)) = runs := by
  rw [load, List.filter_eq_self.mpr kept.rows, List.take_of_length_le kept.few]

theorem run_snoc (stored : Option Json) (mounted : Bool) (moves : List (RecordMove Change))
    (move : RecordMove Change) :
    run stored mounted (moves ++ [move]) =
      (run stored mounted moves).next Json.array load (move.step change) := by
  rw [run, List.map_append, List.map_singleton, Machine.run_snoc]
  rfl

theorem kept_run (stored : Option Json) (mounted : Bool) (moves : List (RecordMove Change)) :
    Kept (run stored mounted moves).memory := by
  induction moves using List.reverseRecOn with
  | nil => exact kept_load stored
  | append_singleton moves move ih =>
      rw [run_snoc]
      generalize run stored mounted moves = log at ih
      cases move with
      | did what taken =>
          cases changed : change what log.memory with
          | none =>
              simp only [RecordMove.step, Persisted.next, changed, Option.map_none, Option.getD_none]
              exact ih
          | some next =>
              simp only [RecordMove.step, Persisted.next, changed]
              exact ih.change changed
      | reload taken => exact kept_load log.stored

theorem saved_run (stored : Option Json) {moves : List (RecordMove Change)}
    (taken : ∀ move ∈ moves, move.taken = true) : (run stored true moves).Saved Json.array := by
  refine (Persisted.run_taken (fun _ => rfl) (Persisted.saved_mount stored) fun step member => ?_).1
  obtain ⟨move, listed, rfl⟩ := List.mem_map.mp member
  rw [RecordMove.taken_step]
  exact taken move listed

/-- Whatever is in the store at first and whatever happens, the log is short and has only runs in it.  While
the store takes every write, it has the newest runs since it was cleared, and no reload is noticed; and
after a stretch in which it takes none a reload finds what there was before it. -/
theorem the_log_has_the_newest_runs (stored : Option Json) (mounted : Bool)
    (moves lost : List (RecordMove Change)) :
    ((run stored mounted moves).memory.length ≤ maxRuns ∧
      ∀ row ∈ (run stored mounted moves).memory, isRun row = true) ∧
    ((∀ move ∈ moves, move.taken = true) →
      (run stored true moves).memory = (history (load stored) moves).take maxRuns ∧
      ((∀ move ∈ lost, move.taken = false) → ∀ taken,
        (run stored true (moves ++ lost ++ [.reload taken])).memory = (run stored true moves).memory)) := by
  refine ⟨⟨(kept_run stored mounted moves).few, (kept_run stored mounted moves).rows⟩, fun all => ⟨?_, ?_⟩⟩
  · induction moves using List.reverseRecOn with
    | nil => exact (List.take_of_length_le (kept_load stored).few).symm
    | append_singleton moves move ih =>
        have before := fun earlier member => all earlier (List.mem_append_left _ member)
        have same := ih before
        rw [run_snoc, Persisted.memory_next (fun _ => rfl) (saved_run stored before), history,
          List.foldl_append]
        cases move with
        | did what taken =>
            cases what with
            | add now run =>
                simp [RecordMove.step, Persisted.ideal, change, same, maxRuns, logged, history,
                  List.take_take]
            | clear => rfl
        | reload taken => exact (kept_run stored true moves).load_array.trans same
  · intro refused taken
    have known : (run stored true (moves ++ lost)).stored = some (.array (run stored true moves).memory) := by
      rw [← saved_run stored all, run, List.map_append, Machine.run_append]
      refine Persisted.stored_of_refused fun step member => ?_
      obtain ⟨move, listed, rfl⟩ := List.mem_map.mp member
      rw [RecordMove.taken_step]
      exact refused move listed
    rw [run_snoc]
    change load (run stored true (moves ++ lost)).stored = _
    rw [known, (kept_run stored true moves).load_array]

end RunLog

namespace FailureWatch

/-- An answer of `/health`, with the readings of the clock that it takes, or `clear`. -/
inductive Change where
  | polled (health : HealthAnswer) (firstNow lastNow : ℤ)
  | cleared

def change : Change → FailureWatch → Option FailureWatch
  | .polled health firstNow lastNow, state => state.poll health firstNow lastNow
  | .cleared, state => state.clear

/-- The record of the failures after some moves, in a browser that had none. -/
def run (moves : List (RecordMove Change)) : Persisted FailureWatch (Watched → Witness) :=
  Machine.run (Persisted.next witnessed load) (Persisted.mount witnessed load true none)
    (moves.map (RecordMove.step change))

/-- An answer that says that a dependency is not up, with the two readings of the clock that the
hook takes for it and the counter of processed events. -/
structure Seen where
  firstNow : ℤ
  lastNow : ℤ
  processed : ℤ

/-- What a move says of a dependency, if it says that it is not up. -/
def seen? (dep : Watched) : RecordMove Change → Option Seen
  | .did (.polled health firstNow lastNow) _ =>
      if health.dependencies dep ≠ "up" then some ⟨firstNow, lastNow, health.processed⟩ else none
  | _ => none

def clears : RecordMove Change → Bool
  | .did .cleared _ => true
  | _ => false

/-- Every time since the last `clear` that a dependency was seen down.  The first one is remembered,
and the last one decides what is shown of the outage. -/
def seenSince (dep : Watched) (moves : List (RecordMove Change)) : List Seen :=
  moves.foldl (fun seen move => if clears move then [] else seen ++ (seen? dep move).toList) []

/-- What is remembered of one dependency. -/
def view (dep : Watched) (state : FailureWatch) : Witness × Option ℤ :=
  (state.witnessed dep, state.processedAtDown dep)

/-- What a move makes of it. -/
def viewed (dep : Watched) (former : Witness × Option ℤ) (move : RecordMove Change) :
    Witness × Option ℤ :=
  match seen? dep move with
  | some seen =>
      if former.1.down then
        ({ former.1 with processedWhileDown := seen.processed - former.2.getD 0 }, former.2)
      else (⟨some (former.1.firstSeenAt.getD seen.firstNow), some seen.lastNow, true, 0⟩,
        some seen.processed)
  | none =>
      match move with
      | .did (.polled ..) _ => ({ former.1 with down := false }, former.2)
      | .did .cleared _ => (⟨none, none, false, 0⟩, former.2)
      | .reload _ => ({ former.1 with down := false }, none)

theorem view_poll (dep : Watched) (state : FailureWatch) (health : HealthAnswer)
    (firstNow lastNow : ℤ)
    (taken : Bool) :
    view dep ((state.poll health firstNow lastNow).getD state) =
      viewed dep (view dep state) (.did (.polled health firstNow lastNow) taken) := by
  have one : view dep ((state.poll health firstNow lastNow).getD state) =
      (state.watch health firstNow lastNow dep).getD (view dep state) := by
    rw [poll]
    split
    · cases changes : state.watch health firstNow lastNow dep <;> simp [view, changes]
    · rename_i still
      have listed : dep ∈ watchedDeps := by cases dep <;> decide
      have same : state.watch health firstNow lastNow dep = none := by
        by_contra changes
        exact still (List.any_eq_true.mpr ⟨dep, listed, by
          rwa [Option.isSome_iff_ne_none]⟩)
      rw [same]
      rfl
  rw [one, watch, viewed, seen?, view]
  dsimp only
  generalize state.processedAtDown dep = reference
  obtain ⟨firstSeenAt, lastSeenAt, down, processedWhileDown⟩ := state.witnessed dep
  by_cases isDown : health.dependencies dep ≠ "up"
  · cases down with
    | true =>
        by_cases since : health.processed - reference.getD 0 = processedWhileDown
        · simp [isDown, since]
        · simp [isDown, since]
    | false => simp [isDown]
  · cases down <;> simp [isDown]

theorem run_snoc (moves : List (RecordMove Change)) (move : RecordMove Change) :
    run (moves ++ [move]) = (run moves).next witnessed load (move.step change) := by
  rw [run, List.map_append, List.map_singleton, Machine.run_snoc]
  rfl

theorem saved_run {moves : List (RecordMove Change)} (taken : ∀ move ∈ moves, move.taken = true) :
    (run moves).Saved witnessed := by
  refine (Persisted.run_taken (fun _ => rfl) (Persisted.saved_mount none) fun step member => ?_).1
  obtain ⟨move, listed, rfl⟩ := List.mem_map.mp member
  rw [RecordMove.taken_step]
  exact taken move listed

/-- While the store takes every write, each move does to a dependency what it says of it. -/
theorem view_snoc (dep : Watched) {moves : List (RecordMove Change)} (move : RecordMove Change)
    (taken : ∀ earlier ∈ moves, earlier.taken = true) :
    view dep (run (moves ++ [move])).memory = viewed dep (view dep (run moves).memory) move := by
  rw [run_snoc, Persisted.memory_next (fun _ => rfl) (saved_run taken)]
  cases move with
  | did what flag =>
      cases what with
      | polled health firstNow lastNow => exact view_poll dep _ health firstNow lastNow flag
      | cleared => rfl
  | reload flag => rfl

variable {dep : Watched} {moves : List (RecordMove Change)}

theorem viewed_seen {former : Witness × Option ℤ} {move : RecordMove Change} {seen : Seen}
    (told : seen? dep move = some seen) :
    viewed dep former move =
      if former.1.down then
        ({ former.1 with processedWhileDown := seen.processed - former.2.getD 0 }, former.2)
      else (⟨some (former.1.firstSeenAt.getD seen.firstNow), some seen.lastNow, true, 0⟩,
        some seen.processed) := by
  rw [viewed.eq_def, told]

theorem viewed_quiet {former : Witness × Option ℤ} {move : RecordMove Change}
    (told : seen? dep move = none) (kept : clears move = false) :
    (viewed dep former move).1 = { former.1 with down := false } := by
  rw [viewed.eq_def, told]
  cases move with
  | did what taken =>
      cases what with
      | polled => rfl
      | cleared => cases kept
  | reload taken => rfl

theorem viewed_cleared {former : Witness × Option ℤ} {move : RecordMove Change}
    (cleared : clears move = true) : (viewed dep former move).1 = ⟨none, none, false, 0⟩ := by
  cases move with
  | did what taken =>
      cases what with
      | polled => cases cleared
      | cleared => rfl
  | reload taken => cases cleared

theorem not_clears {move : RecordMove Change} {seen : Seen} (told : seen? dep move = some seen) :
    clears move = false := by
  cases move with
  | did what taken =>
      cases what with
      | polled => rfl
      | cleared => cases told
  | reload taken => rfl

theorem down_viewed (dep : Watched) (former : Witness × Option ℤ) (move : RecordMove Change) :
    (viewed dep former move).1.down = (seen? dep move).isSome := by
  cases told : seen? dep move with
  | some seen =>
      rw [viewed_seen told]
      split
      · rename_i was
        exact was
      · rfl
  | none =>
      cases cleared : clears move with
      | true => rw [viewed_cleared cleared]; rfl
      | false => rw [viewed_quiet told cleared]; rfl

/-- A dependency is down exactly when the last thing that happened says so. -/
theorem down_iff (taken : ∀ move ∈ moves, move.taken = true) :
    ((run moves).memory.witnessed dep).down = (moves.getLast?.bind (seen? dep)).isSome := by
  induction moves using List.reverseRecOn with
  | nil => rfl
  | append_singleton moves move _ =>
      have after := view_snoc dep move fun earlier member =>
        taken earlier (List.mem_append_left _ member)
      rw [List.getLast?_concat, Option.bind_some, ← down_viewed dep (view dep (run moves).memory), ← after]
      rfl

theorem seenSince_snoc (dep : Watched) (moves : List (RecordMove Change))
    (move : RecordMove Change) :
    seenSince dep (moves ++ [move]) =
      if clears move then [] else seenSince dep moves ++ (seen? dep move).toList := by
  rw [seenSince, List.foldl_append]
  rfl

theorem seenSince_ne_nil (last : (moves.getLast?.bind (seen? dep)).isSome) : seenSince dep moves ≠
    [] := by
  induction moves using List.reverseRecOn with
  | nil => cases last
  | append_singleton moves move _ =>
      rw [List.getLast?_concat, Option.bind_some] at last
      obtain ⟨seen, told⟩ := Option.isSome_iff_exists.mp last
      rw [seenSince_snoc, not_clears told, told]
      simp

/-- The first time that it was seen down since the last `clear` is remembered. -/
theorem first_seen (taken : ∀ move ∈ moves, move.taken = true) :
    ((run moves).memory.witnessed dep).firstSeenAt = (seenSince dep moves).head?.map Seen.firstNow := by
  induction moves using List.reverseRecOn with
  | nil => rfl
  | append_singleton moves move ih =>
      have earlier := fun before member => taken before (List.mem_append_left [move] member)
      have same := ih earlier
      have after := congrArg Prod.fst (view_snoc dep move earlier)
      change (run (moves ++ [move])).memory.witnessed dep = _ at after
      rw [after, seenSince_snoc]
      cases told : seen? dep move with
      | some seen =>
          rw [viewed_seen told, not_clears told, if_neg Bool.false_ne_true, Option.toList_some,
            List.head?_append]
          split
          · rename_i was
            have known := seenSince_ne_nil (Eq.symm (down_iff earlier) ▸ was)
            have some := List.head?_eq_some_head known
            rw [some, Option.some_or, ← some]
            exact same
          · change some (((run moves).memory.witnessed dep).firstSeenAt.getD seen.firstNow) = _
            rw [same]
            cases (seenSince dep moves).head? <;> rfl
      | none =>
          cases cleared : clears move with
          | true =>
              rw [viewed_cleared cleared]
              rfl
          | false =>
              rw [viewed_quiet told cleared, if_neg Bool.false_ne_true, Option.toList_none,
                List.append_nil]
              exact same

/-- What is remembered of an outage that is over or goes on: when it was last seen, and how many
events were processed since it was first seen. -/
structure Recalls (start last : Seen) (witness : Witness) : Prop where
  lastSeenAt : witness.lastSeenAt = some start.lastNow
  processed : witness.processedWhileDown = last.processed - start.processed

section Outages

variable {before outage rest : List (RecordMove Change)} {first : RecordMove Change} {start : Seen}

/-- While an outage lasts the worker is measured against its beginning. -/
theorem recalls_outage (taken : ∀ move ∈ before ++ first :: outage, move.taken = true)
    (quiet : before.getLast?.bind (seen? dep) = none) (begins : seen? dep first = some start)
    (lasts : ∀ move ∈ outage, (seen? dep move).isSome) :
    Recalls start ((outage.filterMap (seen? dep)).getLast?.getD start)
        (view dep (run (before ++ first :: outage)).memory).1 ∧
      (view dep (run (before ++ first :: outage)).memory).1.down = true ∧
      (view dep (run (before ++ first :: outage)).memory).2 = some start.processed := by
  induction outage using List.reverseRecOn with
  | nil =>
      have earlier := fun former member => taken former (List.mem_append_left [first] member)
      have up : ((run _).memory.witnessed dep).down = _ := down_iff earlier
      rw [quiet] at up
      rw [view_snoc dep _ earlier, viewed_seen begins, if_neg (by rw [view, up]; decide)]
      exact ⟨⟨rfl, (Int.sub_self start.processed).symm⟩, rfl, rfl⟩
  | append_singleton outage move ih =>
      rw [← List.cons_append, ← List.append_assoc] at taken ⊢
      have earlier := fun former member => taken former (List.mem_append_left [move] member)
      obtain ⟨recalls, down, reference⟩ := ih earlier fun former member =>
        lasts former (List.mem_append_left _ member)
      obtain ⟨seen, told⟩ := Option.isSome_iff_exists.mp (lasts move (by simp))
      rw [view_snoc dep _ earlier, viewed_seen told, if_pos down, reference,
        Machine.getLast?_filterMap_snoc, told]
      exact ⟨⟨recalls.lastSeenAt, rfl⟩, down, rfl⟩

/-- What is remembered of an outage stays until the next one, or until it is cleared. -/
theorem last_outage (taken : ∀ move ∈ before ++ first :: outage ++ rest, move.taken = true)
    (quiet : before.getLast?.bind (seen? dep) = none) (begins : seen? dep first = some start)
    (lasts : ∀ move ∈ outage, (seen? dep move).isSome)
    (ended : ∀ move ∈ rest, seen? dep move = none ∧ clears move = false) :
    Recalls start ((outage.filterMap (seen? dep)).getLast?.getD start)
      ((run (before ++ first :: outage ++ rest)).memory.witnessed dep) := by
  induction rest using List.reverseRecOn with
  | nil =>
      rw [List.append_nil] at taken ⊢
      exact (recalls_outage taken quiet begins lasts).1
  | append_singleton rest move ih =>
      rw [← List.append_assoc] at taken ⊢
      have earlier := fun former member => taken former (List.mem_append_left [move] member)
      have recalls := ih earlier fun former member => ended former (List.mem_append_left _ member)
      have after := congrArg Prod.fst (view_snoc dep move earlier)
      obtain ⟨told, kept⟩ := ended move (by simp)
      rw [viewed_quiet told kept] at after
      change (run _).memory.witnessed dep = _ at after
      rw [after]
      exact ⟨recalls.lastSeenAt, recalls.processed⟩

end Outages

/-- While the store takes every write, after any polls, clears and reloads: a dependency is shown as down
exactly when the last thing that happened said so; the first time that it was seen down since the last
`clear` is remembered; and of the last outage its beginning, and how far the worker came from there to its
last poll. -/
theorem the_watch_remembers (dep : Watched) {moves : List (RecordMove Change)}
    (taken : ∀ move ∈ moves, move.taken = true) :
    ((run moves).memory.witnessed dep).down = (moves.getLast?.bind (seen? dep)).isSome ∧
    ((run moves).memory.witnessed dep).firstSeenAt = (seenSince dep moves).head?.map Seen.firstNow ∧
    ∀ before first start outage rest, moves = before ++ first :: outage ++ rest →
      before.getLast?.bind (seen? dep) = none → seen? dep first = some start →
      (∀ move ∈ outage, (seen? dep move).isSome) →
      (∀ move ∈ rest, seen? dep move = none ∧ clears move = false) →
      Recalls start ((outage.filterMap (seen? dep)).getLast?.getD start)
        ((run moves).memory.witnessed dep) := by
  refine ⟨down_iff taken, first_seen taken, ?_⟩
  rintro before first start outage rest rfl quiet begins lasts ended
  exact last_outage taken quiet begins lasts ended

/-- MongoDB is seen down twice, the page is reloaded meanwhile, and the worker's counters are reset. -/
def aResetInAnOutage : List (RecordMove Change) :=
  [.did (.polled ⟨fun _ => "up", 7⟩ 1 1) true, .did (.polled ⟨fun _ => "down", 7⟩ 2 2) true, .reload true,
    .did (.polled ⟨fun _ => "down", 9⟩ 3 3) true, .did (.polled ⟨fun _ => "down", 0⟩ 4 4) true]

/-- After a reset the worker seems to have gone back. -/
theorem an_outage_can_count_less_than_nothing :
    ((run aResetInAnOutage).memory.witnessed .mongodb).firstSeenAt = some 2 ∧
      ((run aResetInAnOutage).memory.witnessed .mongodb).lastSeenAt = some 3 ∧
      ((run aResetInAnOutage).memory.witnessed .mongodb).processedWhileDown = -9 := by
  obtain ⟨-, first, outages⟩ := the_watch_remembers .mongodb
    (show ∀ move ∈ aResetInAnOutage, move.taken = true by simp [aResetInAnOutage, RecordMove.taken])
  have recalls := outages [.did (.polled ⟨fun _ => "up", 7⟩ 1 1) true,
    .did (.polled ⟨fun _ => "down", 7⟩ 2 2) true, .reload true] _ ⟨3, 3, 9⟩
    [.did (.polled ⟨fun _ => "down", 0⟩ 4 4) true] [] rfl rfl rfl
    (fun move member => List.mem_singleton.mp member ▸ rfl) (fun move member => by cases member)
  exact ⟨first, recalls.lastSeenAt, recalls.processed⟩

end FailureWatch

end FeathrEvents
