/-
Module: FeathrEvents.Proofs.WorkerDeath
Purpose: When a consumer dies: exactly when a failure is reported to a circuit or to a queue whose
  doubling overflows a float, and a long enough outage gets there.
Trusted boundary: none
Main exports: Reportable, consumers_never_die_iff, outage, a_long_outage_kills_a_consumer
-/
import Mathlib.Tactic.Linarith
import FeathrEvents.Proofs.WorkerOutage
import FeathrEvents.Proofs.WorkerOwnership

namespace FeathrEvents.System

open InMemoryEventQueue

variable {setup : Setup} {system later : System} {move : Move}

/-- Reporting a failed write overflows neither in `record_failure` nor in `fail`, judged by the state
before: no pause is due, or fewer than 1024 have been entered; and the handle is stale, or there have
been at most 1024 deliveries. -/
def Reportable (setup : Setup) (system : System) : Move → Prop
  | .raised consumer checkedAt openedAt failedAt =>
      ∀ sink message rest write, system.at? consumer = .writing sink message rest write →
        system.now ≤ checkedAt ∧ checkedAt ≤ openedAt ∧ openedAt ≤ failedAt →
        (system.sink.Paused checkedAt ∨
          ((insert message.event.eventId system.sink.failures).card : ℤ) <
            setup.worker.sink.threshold ∨
          system.sink.pauses < 1024 ∨ setup.worker.sink.arithmetic = .exact) ∧
        (system.queue.inflight.get? message.receiptHandle = none ∨ message.receiveCount ≤ 1024 ∨
          setup.queue.arithmetic = .exact)
  | _ => True

/-! ### The two doublings -/

/-- `record_failure` returns or overflows, judged by the circuit before. -/
theorem recordFailure_returns (settings : CircuitSettings) (eventId : String)
    (checkedAt openedAt : ℚ) (circuit : SinkCircuit) :
    let small := circuit.Paused checkedAt ∨
      ((insert eventId circuit.failures).card : ℤ) < settings.threshold ∨
      circuit.pauses < 1024 ∨ settings.arithmetic = .exact
    (small ∧ (circuit.recordFailure settings eventId checkedAt openedAt).1 = .ok ()) ∨
      (¬ small ∧ (circuit.recordFailure settings eventId checkedAt openedAt).1 =
        .error .overflowError) := by
  rcases recordFailure_cases settings eventId checkedAt openedAt circuit with
    ⟨ignored, shape⟩ | ⟨unpaused, many, ⟨delay, delayed, shape⟩ | ⟨float, late, shape⟩⟩
  · exact .inl ⟨ignored.imp_right .inl, by rw [shape]⟩
  · refine .inl ⟨.inr (.inr ?_), by rw [shape]⟩
    rcases capped_cases settings.arithmetic settings.pause settings.maxPause
      ((circuit.pauses + 1 : ℕ) - 1) with ⟨-, exact | early⟩ | ⟨overflow, -⟩
    · exact .inr exact
    · exact .inl (by omega)
    · cases delayed.symm.trans overflow
  · refine .inr ⟨?_, by rw [shape]⟩
    rintro (paused | few | early | exact)
    · exact unpaused paused
    · omega
    · omega
    · cases float.symm.trans exact

/-- When `fail` overflows, for a message that its handle lends. -/
theorem fail_overflows_iff (settings : QueueSettings) {host : Host} {queue : InMemoryEventQueue}
    (linked : Linked host queue) {message : Message} (lends : Lends queue message) (now : ℚ) :
    (queue.perform host settings (.fail message.receiptHandle now)).1 = .error .overflowError ↔
      ¬ (queue.inflight.get? message.receiptHandle = none ∨ message.receiveCount ≤ 1024 ∨
        settings.arithmetic = .exact) := by
  rcases fail_cases settings linked message.receiptHandle now with
    ⟨stale, shape⟩ | ⟨messageId, entry, live, stored, -, outcome⟩
  · simp [perform, shape, stale, Except.map, invalidHandle]
  obtain ⟨_, found, -, counted⟩ := lends messageId live
  rw [stored] at found
  cases found
  rcases capped_cases settings.arithmetic settings.visibilityTimeout backoffCapSeconds
    ((entry.receiveCount : ℤ) - 1) with ⟨computed, small⟩ | ⟨computed, float, late⟩
  · rcases outcome with ⟨delay, -, shape⟩ | ⟨overflow, -⟩
    · have room : message.receiveCount ≤ 1024 ∨ settings.arithmetic = .exact := by
        rw [← counted]
        rcases small with exact | early
        · exact .inr exact
        · exact .inl (by omega)
      simp [perform, shape, setDeadline, stored, Except.map, room]
    · cases overflow.symm.trans computed
  · rcases outcome with ⟨delay, backedOff, -⟩ | ⟨-, shape⟩
    · cases backedOff.symm.trans computed
    · have many : 1024 < message.receiveCount := by omega
      simp [perform, shape, Except.map, live, many, float]

/-! ### Deaths -/

/-- New tasks are not dead, and leave the others where they stand. -/
theorem died_of_started {count : ℕ}
    (tasks : later.tasks = system.tasks ++ List.replicate count .ready)
    {consumer : ℕ} {exn : Exn} : later.at? consumer = .died exn ↔ system.at? consumer = .died exn := by
  rcases at?_of_started tasks consumer with same | ⟨stopped, ready⟩
  · rw [same]
  · simp [stopped, ready]

/-- A task that died stays dead. -/
theorem Moved.stays_dead (moved : Moved setup system move later) {consumer : ℕ} {exn : Exn}
    (dead : system.at? consumer = .died exn) : later.at? consumer = .died exn := by
  have elsewhere : ∀ {mover : ℕ} {standing : Consumer},
      later.tasks = system.tasks.set mover standing → system.at? mover ≠ .stopped →
      system.at? mover ≠ .died exn → later.at? consumer = .died exn := by
    intro mover standing tasks stood alive
    rw [at?_of_tasks tasks stood, if_neg, dead]
    rintro rfl
    exact alive dead
  cases moved with
  | idle | sent | waited | faulted | found | stopCalled | drained => exact dead
  | @landed _ write =>
      obtain ⟨sink, event, landed⟩ := write
      cases sink <;> exact dead
  | started => exact (died_of_started rfl).mpr dead
  | cancelled unfinished =>
      apply elsewhere rfl
      all_goals
        intro finished
        rw [finished] at unfinished
        cases unfinished
  | quit stands | fetched stands | beat stands | stale stands | stored stands | indexed stands
  | overflowed stands | failed stands | backoffOverflowed stands | acked stands | refused stands =>
      exact elsewhere rfl (by simp [stands]) (by simp [stands])

theorem resume_ne_died (rest : List Message) (exn : Exn) : Consumer.resume rest ≠ .died exn := by
  cases rest <;> simp [Consumer.resume]

/-- A task dies only in a move that reports a failure beyond what the doublings can stand. -/
theorem Moved.deaths (moved : Moved setup system move later) (owned : Owned setup system)
    (linked : Linked setup.host system.queue) {consumer : ℕ} {exn : Exn}
    (dead : later.at? consumer = .died exn) :
    system.at? consumer = .died exn ∨ ¬ Reportable setup system move := by
  have elsewhere : ∀ {mover : ℕ} {standing : Consumer},
      later.tasks = system.tasks.set mover standing → system.at? mover ≠ .stopped →
      standing ≠ .died exn → system.at? consumer = .died exn := by
    intro mover standing tasks stood alive
    rw [at?_of_tasks tasks stood] at dead
    split at dead
    · exact absurd dead alive
    · exact dead
  cases moved with
  | idle | sent | waited | faulted | found | stopCalled | drained => exact .inl dead
  | @landed _ write =>
      obtain ⟨sink, event, landed⟩ := write
      cases sink <;> exact .inl dead
  | started => exact .inl ((died_of_started rfl).mp dead)
  | cancelled unfinished =>
      exact .inl (elsewhere rfl (Consumer.ne_stopped unfinished) (by simp))
  | quit stands | fetched stands | beat stands | stored stands | indexed stands =>
      exact .inl (elsewhere rfl (by simp [stands]) (by simp))
  | stale stands | failed stands | acked stands | refused stands =>
      exact .inl (elsewhere rfl (by simp [stands]) (resume_ne_died _ _))
  | @overflowed _ checkedAt openedAt _ _ message _ _ _ _ stands ordered raised =>
      right
      intro reportable
      rcases recordFailure_returns setup.worker.sink message.event.eventId checkedAt openedAt
        system.sink with ⟨-, returned⟩ | ⟨late, -⟩
      · rw [raised] at returned
        cases returned
      · exact late (reportable _ _ _ _ stands ordered).1
  | backoffOverflowed stands ordered recorded raised =>
      right
      intro reportable
      have lends := owned.lends _ _ (Consumer.current_held (by rw [stands]; rfl))
      exact (fail_overflows_iff setup.queue linked lends _).mp raised
        (reportable _ _ _ _ stands ordered).2

/-- Reporting a failure beyond what the doublings can stand kills the task. -/
theorem dies_of_unreportable (owned : Owned setup system) (linked : Linked setup.host system.queue)
    (unreportable : ¬ Reportable setup system move) :
    ∃ consumer, (system.next setup move).at? consumer = .died .overflowError := by
  cases move with
  | raised consumer checkedAt openedAt failedAt =>
      simp only [Reportable, not_forall] at unreportable
      obtain ⟨sink, message, rest, write, stands, ordered, unreportable⟩ := unreportable
      refine ⟨consumer, ?_⟩
      have taken : system.next setup (.raised consumer checkedAt openedAt failedAt) =
          system.failing setup consumer sink message rest checkedAt openedAt failedAt := by
        simp only [next, step, stands, if_pos ordered, Option.getD_some]
      have died : ∀ {standing : Consumer} {later : System},
          later.tasks = system.tasks.set consumer standing → later.at? consumer = standing :=
        fun tasks => (at?_of_tasks tasks (by simp [stands]) consumer).trans (if_pos rfl)
      rw [taken]
      cases recorded : system.sink.recordFailure setup.worker.sink message.event.eventId checkedAt
          openedAt with
      | mk result circuit =>
          rcases recordFailure_returns setup.worker.sink message.event.eventId checkedAt openedAt
            system.sink with ⟨small, returned⟩ | ⟨-, raised⟩
          · rw [recorded] at returned
            cases returned
            have lends := owned.lends consumer message (Consumer.current_held (by rw [stands]; rfl))
            have overflow := (fail_overflows_iff setup.queue linked lends failedAt).mpr
              fun few => unreportable ⟨small, few⟩
            rcases failing_reports linked consumer sink message rest failedAt recorded with
              ⟨suppressed, -⟩ | ⟨-, shape⟩
            · exact absurd overflow suppressed
            · rw [shape]
              exact died rfl
          · rw [recorded] at raised
            cases raised
            rw [failing_overflows consumer sink message rest failedAt recorded]
            exact died rfl
  | _ => exact absurd trivial unreportable

theorem alive_run {moves : List Move}
    (reportable : ∀ visit ∈ Machine.visits (System.next setup) System.create moves,
      Reportable setup visit.1 visit.2) (consumer : ℕ) (exn : Exn) :
    (run setup moves).at? consumer ≠ .died exn := by
  induction moves using List.reverseRecOn with
  | nil => simp [System.create, at?]
  | append_singleton moves move ih =>
      rw [Machine.visits_snoc] at reportable
      intro dead
      have moved := next_moved (driven_run setup moves).linked move
      rw [run_snoc] at dead
      rcases moved.deaths (owned_run setup moves) (driven_run setup moves).linked dead with
        already | unreportable
      · exact ih (fun visit member => reportable visit (List.mem_append_left _ member)) already
      · exact unreportable (reportable (run setup moves, move)
          (List.mem_append_right _ (List.mem_singleton_self _)))

/-- No consumer ever dies, in a run of any length, exactly when every report of a failure in it stays
within what the doublings can stand. -/
theorem consumers_never_die_iff (setup : Setup) (moves : List Move) :
    (∀ before after, moves = before ++ after → ∀ consumer exn,
      (run setup before).at? consumer ≠ .died exn) ↔
    ∀ visit ∈ Machine.visits (System.next setup) System.create moves,
      Reportable setup visit.1 visit.2 := by
  constructor
  · intro alive visit member
    by_contra unreportable
    obtain ⟨first, second, shape, here⟩ := Machine.mem_visits_split _ member
    have reachedHere : visit.1 = run setup first := here
    rw [reachedHere] at unreportable
    obtain ⟨consumer, dead⟩ := dies_of_unreportable (owned_run setup first)
      (driven_run setup first).linked unreportable
    rw [← run_snoc] at dead
    exact alive (first ++ [visit.2]) second (by simp [shape]) consumer _ dead
  · rintro reportable before after rfl
    apply alive_run
    intro visit member
    apply reportable
    rw [Machine.visits_append]
    exact List.mem_append_left _ member

/-! ### An outage that kills a consumer -/

theorem size_le_minted {host : Host} {queue : InMemoryEventQueue} (linked : Linked host queue) :
    queue.entries.size ≤ queue.minted := by
  have drawn : queue.entries.keys ⊆ (List.range queue.minted).map host.uuid4 := by
    intro messageId member
    obtain ⟨entry, stored⟩ := Collections.OrderedDict.mem_keys.mp member
    obtain ⟨index, early, named⟩ := linked.idMinted messageId entry stored
    exact List.mem_map.mpr ⟨index, List.mem_range.mpr early, named⟩
  have bounded := (List.subperm_of_subset queue.entries.nodup_keys drawn).length_le
  simpa [Collections.OrderedDict.keys, Collections.OrderedDict.size] using bounded

/-- Where something is visible, a `receive` of one message hands one out. -/
theorem receive_one (settings : QueueSettings) {host : Host} {queue : InMemoryEventQueue}
    (serialises : host.Serialises) (linked : Linked host queue) {messageId : String}
    (visible : messageId ∈ queue.visible) (sweptAt now : ℚ) :
    ∃ message, (queue.perform host settings (.receive 1 none sweptAt now)).1 = .ok [message] ∧
      (queue.after host settings (.receive 1 none sweptAt now)).minted = queue.minted + 1 := by
  obtain ⟨entry, stored, idle⟩ := linked.visibleEntry messageId visible
  have waits : place host queue messageId = .waiting entry.receiveCount :=
    place_eq_waiting.mpr ⟨entry, stored, idle, rfl, visible⟩
  obtain ⟨sweptLinks, minted, -⟩ := sweep_place settings linked sweptAt
  have swept := sweptTo settings linked sweptAt messageId
  obtain ⟨⟨messages, returned⟩, -⟩ := receive_buries settings serialises linked 1 none sweptAt now
  rcases receive_cases settings linked 1 none sweptAt now with
    ⟨eventId, -, shape⟩ | ⟨next, done, shape⟩
  · simp [perform, shape] at returned
  · rw [done] at swept sweptLinks minted
    dsimp only at swept sweptLinks minted
    have still : messageId ∈ next.visible := by
      generalize laterShape : place host next messageId = later at swept
      cases swept with
      | kept =>
          rw [waits] at laterShape
          obtain ⟨-, -, -, -, visible⟩ := place_eq_waiting.mp laterShape
          exact visible
      | ended _ _ held =>
          rw [waits] at held
          cases held
    cases row : next.visible with
    | nil =>
        rw [row] at still
        cases still
    | cons head waiting =>
        obtain ⟨first, found, -⟩ := sweptLinks.visibleEntry head (by rw [row]; exact List.mem_cons_self ..)
        refine ⟨⟨first.event, host.uuid4 next.minted, first.receiveCount + 1⟩, ?_, ?_⟩
        · simp only [perform, shape, row]
          cases waiting <;> simp [lend, lendOne, found, Popped.message?]
        · simp only [after, perform, shape, row]
          cases waiting <;> simp [lend, lendOne, found, Popped.message?, minted]

/-- Three events fail back to back, and the circuit opens. -/
def outageOpening : List Move :=
  [.send (sampleEvent "a"), .send (sampleEvent "b"), .send (sampleEvent "c"), .start,
    .turn 0 none 0 0 0, .heartbeat 0 0, .raised 0 0 0 0, .heartbeat 0 0, .raised 0 0 0 0,
    .heartbeat 0 0, .raised 0 0 0 0]

/-- Another event arrives, and the probe after the pause fails too. -/
def outageCycle (cycle : ℕ) : List Move :=
  let time : ℚ := 1000 * (cycle + 1)
  [.send (sampleEvent "a"), .turn 0 none time time time, .heartbeat 0 time,
    .raised 0 time time time]

/-- The stores stay down for a number of probes. -/
def outage (cycles : ℕ) : List Move :=
  outageOpening ++ (List.range cycles).flatMap outageCycle

/-- The process of the outage: every setting is at its default. -/
def defaults : Setup := sampleSetup {} {}

theorem defaults_serialises : defaults.host.Serialises := fun _ => rfl

/-- The first consumer and its circuit in a cycle of the outage: where it stands, which pause it is
in, and how late it is at most. -/
structure Failing (cycle : ℕ) (standing : Consumer) (probing : Bool) (clock : ℚ) (drawn : ℕ)
    (system : System) : Prop where
  stands : system.at? 0 = standing
  working : system.stopping = false
  now : system.now ≤ clock
  sink : ∃ failures openUntil, system.sink = ⟨failures, some openUntil, cycle + 1, probing⟩ ∧
    3 ≤ failures.card ∧ openUntil ≤ 1000 * cycle + 30
  minted : system.queue.minted ≤ drawn

theorem failing_opening : Failing 0 .ready false 0 6 (run defaults outageOpening) where
  stands := by with_unfolding_all rfl
  working := by with_unfolding_all rfl
  now := by decide +kernel
  sink := ⟨{"c", "b", "a"}, 5, by with_unfolding_all rfl, by decide, by norm_num⟩
  minted := by decide +kernel

variable {cycle drawn : ℕ} {clock : ℚ} {moves : List Move} {message : Message}

theorem Failing.send (failing : Failing cycle .ready false clock drawn (run defaults moves))
    (room : drawn < 10000) (event : Event) :
    let later := run defaults (moves ++ [.send event])
    Failing cycle .ready false clock (drawn + 1) later ∧
      ∃ messageId, messageId ∈ later.queue.visible := by
  intro later
  have sent : later = (run defaults moves).made defaults none (.send event) := run_snoc ..
  have bounded := (size_le_minted (driven_run defaults moves).linked).trans failing.minted
  rcases send_cases defaults.host defaults.queue (run defaults moves).queue event with
    ⟨full, -⟩ | ⟨-, accepted⟩
  · have full : 10000 ≤ (run defaults moves).queue.entries.size := full
    omega
  · have grown := failing.minted
    rw [sent]
    refine ⟨⟨failing.stands, failing.working, failing.now, failing.sink, ?_⟩,
      defaults.host.uuid4 (run defaults moves).queue.minted, ?_⟩
    · simp only [made, InMemoryEventQueue.after, perform, accepted, Prod.map_snd, id]
      omega
    · simp [made, InMemoryEventQueue.after, perform, accepted]

theorem Failing.probe (failing : Failing cycle .ready false clock drawn (run defaults moves))
    {messageId : String} (visible : messageId ∈ (run defaults moves).queue.visible) {time : ℚ}
    (forward : clock ≤ time) (past : 1000 * (cycle : ℚ) + 30 ≤ time) :
    let later := run defaults (moves ++ [.turn 0 none time time time])
    ∃ message, Failing cycle (.batch [message]) true time (drawn + 1) later ∧
      later.queue.inflight.get? message.receiptHandle ≠ none := by
  intro later
  have linked := (driven_run defaults moves).linked
  obtain ⟨failures, openUntil, sink, three, soon⟩ := failing.sink
  obtain ⟨message, answer, minted⟩ :=
    receive_one defaults.queue defaults_serialises linked visible time time
  have taken : later = (run defaults moves).turn defaults 0 none time time time := by
    have enabled : (run defaults moves).next defaults (.turn 0 none time time time) =
        (run defaults moves).turn defaults 0 none time time time := by
      simp [next, step, failing.stands, failing.working, failing.now.trans forward]
    exact (run_snoc ..).trans enabled
  have asked : (run defaults moves).sink.allowance defaults.worker.batchSize time =
      (1, ⟨failures, some openUntil, cycle + 1, true⟩) := by
    simp [sink, SinkCircuit.allowance, not_lt.mpr (soon.trans past)]
  have same : (((run defaults moves).withSink ⟨failures, some openUntil, cycle + 1, true⟩).tick
      time).queue = (run defaults moves).queue := rfl
  simp only [turn, asked, call_eq, same, answer] at taken
  obtain ⟨-, issued⟩ := receive_handles linked answer
  obtain ⟨-, owner, -, live, -⟩ := issued message (List.mem_singleton_self _)
  have stood : (run defaults moves).at? 0 ≠ .stopped := by simp [failing.stands]
  have grown : (run defaults moves).queue.minted + 1 ≤ drawn + 1 :=
    Nat.succ_le_succ failing.minted
  rw [if_neg (by decide)] at taken
  rw [taken]
  refine ⟨message, ⟨?_, failing.working, le_rfl, ⟨failures, openUntil, rfl, three, soon⟩, ?_⟩, ?_⟩
  · exact (at?_of_tasks rfl stood 0).trans (if_pos rfl)
  · exact minted.trans_le grown
  · exact ne_of_eq_of_ne live (by simp)

theorem Failing.beat {time : ℚ}
    (failing : Failing cycle (.batch [message]) true time drawn (run defaults moves))
    (live : (run defaults moves).queue.inflight.get? message.receiptHandle ≠ none) :
    let later := run defaults (moves ++ [.heartbeat 0 time])
    ∃ index, Failing cycle (.writing .mongodb message [] index) true time drawn later := by
  intro later
  have linked := (driven_run defaults moves).linked
  rcases next_heartbeat linked failing.stands failing.now with ⟨dead, -⟩ | ⟨-, taken⟩
  · exact absurd dead live
  have began : later = _ := (run_snoc ..).trans taken
  have stood : (run defaults moves).at? 0 ≠ .stopped := by simp [failing.stands]
  have verb : (QueueCall.changeVisibility message.receiptHandle defaults.worker.visibilityTimeout
      time).receiptHandle? = some message.receiptHandle := rfl
  rw [began]
  refine ⟨(run defaults moves).writes.length, ?_, failing.working, le_rfl, failing.sink, ?_⟩
  · exact (at?_of_tasks rfl stood 0).trans (if_pos rfl)
  · exact (minted_verb defaults.queue linked verb).trans_le failing.minted

/-- A probe that fails enters the next pause, or its delay overflows. -/
theorem Failing.fail {index : ℕ} {time : ℚ}
    (failing : Failing cycle (.writing .mongodb message [] index) true time drawn
      (run defaults moves))
    (past : 1000 * (cycle : ℚ) + 30 ≤ time) (soon : time ≤ 1000 * ((cycle : ℚ) + 1)) :
    let later := run defaults (moves ++ [.raised 0 time time time])
    later.at? 0 = .died .overflowError ∨
      (cycle < 1023 ∧ Failing (cycle + 1) .ready false time drawn later) := by
  intro later
  have linked := (driven_run defaults moves).linked
  obtain ⟨failures, openUntil, sink, three, closes⟩ := failing.sink
  have stood : (run defaults moves).at? 0 ≠ .stopped := by simp [failing.stands]
  have taken : later = (run defaults moves).failing defaults 0 .mongodb message [] time time time := by
    have enabled : (run defaults moves).next defaults (.raised 0 time time time) =
        (run defaults moves).failing defaults 0 .mongodb message [] time time time := by
      simp [next, step, failing.stands, failing.now]
    exact (run_snoc ..).trans enabled
  have unpaused : ¬ (run defaults moves).sink.Paused time := by
    simp [sink, SinkCircuit.Paused, closes.trans past]
  have many : 3 ≤ (insert message.event.eventId failures).card :=
    three.trans (Finset.card_le_card (Finset.subset_insert ..))
  rcases recordFailure_cases defaults.worker.sink message.event.eventId time time
      (run defaults moves).sink with ⟨paused | few, -⟩ | ⟨-, -, ⟨delay, delayed, shape⟩ | ⟨-, -, shape⟩⟩
  · exact absurd paused unpaused
  · rw [sink] at few
    have few : ((insert message.event.eventId failures).card : ℤ) < 3 := few
    omega
  · have counted : (run defaults moves).sink.pauses = cycle + 1 := by rw [sink]
    rcases failing_reports linked 0 .mongodb message [] time shape with
      ⟨-, reported⟩ | ⟨-, reported⟩
    · right
      have within : cycle < 1023 ∧ delay ≤ 30 := by
        rw [counted] at delayed
        rcases capped_cases defaults.worker.sink.arithmetic defaults.worker.sink.pause
          defaults.worker.sink.maxPause ((cycle + 1 + 1 : ℕ) - 1) with
          ⟨computed, exact | early⟩ | ⟨overflow, -⟩
        · cases exact
        · cases delayed.symm.trans computed
          exact ⟨by omega, min_le_right _ _⟩
        · cases delayed.symm.trans overflow
      have verb : (QueueCall.fail message.receiptHandle time).receiptHandle? =
          some message.receiptHandle := rfl
      refine ⟨within.1, ?_⟩
      rw [taken, reported]
      refine ⟨?_, failing.working, le_rfl, ⟨insert message.event.eventId failures, time + delay, ?_,
        many, ?_⟩, ?_⟩
      · exact (at?_of_tasks rfl stood 0).trans (if_pos rfl)
      · simp [put, made, System.reported, sink]
      · push_cast
        exact add_le_add soon within.2
      · exact (minted_verb defaults.queue linked verb).trans_le failing.minted
    · left
      rw [taken, reported]
      exact (at?_of_tasks rfl stood 0).trans (if_pos rfl)
  · left
    rw [taken, failing_overflows 0 .mongodb message [] time shape]
    exact (at?_of_tasks rfl stood 0).trans (if_pos rfl)

theorem Failing.next_cycle
    (failing : Failing cycle .ready false (1000 * cycle) (2 * cycle + 6) (run defaults moves))
    (early : cycle < 1024) :
    let later := run defaults (moves ++ outageCycle cycle)
    later.at? 0 = .died .overflowError ∨
      (cycle + 1 < 1024 ∧
        Failing (cycle + 1) .ready false (1000 * (cycle + 1 : ℕ)) (2 * (cycle + 1) + 6) later) := by
  intro later
  have past : 1000 * (cycle : ℚ) + 30 ≤ 1000 * (cycle + 1) := by linarith
  obtain ⟨arrived, messageId, visible⟩ := failing.send (by omega) (sampleEvent "a")
  obtain ⟨message, probing, live⟩ := arrived.probe visible (by linarith) past
  obtain ⟨index, writing⟩ := probing.beat live
  have failed := writing.fail past le_rfl
  have steps : later = run defaults (moves ++ [.send (sampleEvent "a")] ++
      [.turn 0 none (1000 * (cycle + 1)) (1000 * (cycle + 1)) (1000 * (cycle + 1))] ++
      [.heartbeat 0 (1000 * (cycle + 1))] ++
      [.raised 0 (1000 * (cycle + 1)) (1000 * (cycle + 1)) (1000 * (cycle + 1))]) := by
    simp only [later, outageCycle, List.append_assoc, List.cons_append, List.nil_append]
  rw [steps]
  rcases failed with died | ⟨more, again⟩
  · exact .inl died
  · refine .inr ⟨by omega, ?_⟩
    have drawn : 2 * cycle + 6 + 1 + 1 = 2 * (cycle + 1) + 6 := by omega
    rw [drawn] at again
    push_cast
    exact again

theorem stays_dead_run {setup : Setup} {moves : List Move} {consumer : ℕ} {exn : Exn}
    (dead : (run setup moves).at? consumer = .died exn) (more : List Move) :
    (run setup (moves ++ more)).at? consumer = .died exn := by
  induction more using List.reverseRecOn with
  | nil => simpa using dead
  | append_singleton more move ih =>
      rw [← List.append_assoc, run_snoc]
      exact (next_moved (driven_run setup (moves ++ more)).linked move).stays_dead ih

theorem outage_succ (cycles : ℕ) : outage (cycles + 1) = outage cycles ++ outageCycle cycles := by
  simp [outage, List.range_succ]

/-- The first consumer dies in some cycle, or it has failed one probe in each. -/
theorem outage_or_dead (cycles : ℕ) :
    (run defaults (outage cycles)).at? 0 = .died .overflowError ∨
      (cycles < 1024 ∧ Failing cycles .ready false (1000 * cycles) (2 * cycles + 6)
        (run defaults (outage cycles))) := by
  induction cycles with
  | zero =>
      refine .inr ⟨by omega, ?_⟩
      simpa [outage] using failing_opening
  | succ cycles ih =>
      rw [outage_succ]
      rcases ih with dead | ⟨early, failing⟩
      · exact .inl (stays_dead_run dead _)
      · exact failing.next_cycle early

/-- With every setting at its default, the 1025th pause of one outage kills the consumer that would
enter it. -/
theorem a_long_outage_kills_a_consumer :
    (run defaults (outage 1024)).at? 0 = .died .overflowError := by
  rcases outage_or_dead 1024 with dead | ⟨early, -⟩
  · exact dead
  · exact absurd early (lt_irrefl _)

end FeathrEvents.System
