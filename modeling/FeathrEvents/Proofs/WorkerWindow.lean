/-
Module: FeathrEvents.Proofs.WorkerWindow
Purpose: The processing window of a delivery belongs to its consumer from the heartbeat on, and a
  heartbeat that finds the handle stale touches nothing.
Trusted boundary: none
Main exports: heartbeat_opens, stale_heartbeat_stops, window_holds, window_excludes,
  exclusive_processing_window
-/
import FeathrEvents.Proofs.QueueLoans
import FeathrEvents.Proofs.WorkerTrail

namespace FeathrEvents.System

open InMemoryEventQueue

variable {setup : Setup} {before : List Move} {consumer : ℕ} {now : ℚ} {message : Message}
variable {rest : List Message}

/-- Either way the heartbeat is one call of the queue. -/
theorem heartbeat_calls (stands : (run setup before).at? consumer = .batch (message :: rest))
    (ordered : (run setup before).now ≤ now) :
    callsBy (run setup (before ++ [.heartbeat consumer now])).past =
      callsBy (run setup before).past ++ [(some consumer,
        .changeVisibility message.receiptHandle setup.worker.visibilityTimeout now)] := by
  rw [run_snoc]
  rcases next_heartbeat (driven_run setup before).linked stands ordered with
    ⟨-, shape⟩ | ⟨-, shape⟩
  · rw [shape]
    simp [made, put, tick, Happening.call?]
  · rw [shape]
    simp [made, begin, tick, Happening.call?]

theorem heartbeat_calls_later (stands : (run setup before).at? consumer = .batch (message :: rest))
    (ordered : (run setup before).now ≤ now) (after : List Move) :
    ∃ later, callsBy (run setup (before ++ .heartbeat consumer now :: after)).past =
      callsBy (run setup before).past ++ (some consumer,
        .changeVisibility message.receiptHandle setup.worker.visibilityTimeout now) :: later := by
  obtain ⟨later, grown⟩ := callsBy_grows setup (before ++ [.heartbeat consumer now]) after
  rw [heartbeat_calls stands ordered] at grown
  exact ⟨later, by simpa using grown⟩

/-- A heartbeat that finds its handle live holds the message for the whole window. -/
theorem heartbeat_opens (stands : (run setup before).at? consumer = .batch (message :: rest))
    (ordered : (run setup before).now ≤ now) {messageId : String}
    (live : (run setup before).queue.inflight.get? message.receiptHandle = some messageId) :
    ∃ count, place setup.host (reached setup.host setup.queue
      (calls (run setup (before ++ [.heartbeat consumer now])).past)) messageId =
        .held count message.receiptHandle (now + setup.worker.visibilityTimeout) := by
  have driven := driven_run setup before
  rw [calls, heartbeat_calls stands ordered, List.map_append, List.map_singleton, reached_snoc]
  rw [driven.queue] at live
  have linked := linked_reached setup.host setup.queue (calls (run setup before).past)
  obtain ⟨count, deadline, held⟩ := linked.inflight_iff.mp live
  rcases changeVisibility_effect setup.queue linked message.receiptHandle
    setup.worker.visibilityTimeout now messageId with ⟨other, _, _, -, moved⟩ | ⟨unheld, -⟩
  · exact ⟨other, moved⟩
  · exact absurd held (unheld _ _)

/-- Work on a delivery whose heartbeat found the handle stale is never recorded. -/
theorem stale_heartbeat_stops (stands : (run setup before).at? consumer = .batch (message :: rest))
    (ordered : (run setup before).now ≤ now)
    (stale : (run setup before).queue.inflight.get? message.receiptHandle = none)
    (after : List Move) :
    ∀ happening ∈ (run setup (before ++ .heartbeat consumer now :: after)).past, ∀ other worked,
      happening.work? = some (other, worked) → worked.receiptHandle ≠ message.receiptHandle := by
  intro happening member other worked works same
  have trailed := trailed_run setup (before ++ .heartbeat consumer now :: after)
  have owned := owned_run setup (before ++ .heartbeat consumer now :: after)
  obtain ⟨earlier, tail, seconds, time, split, live⟩ :=
    trailed.beaten other worked (trailed.begun happening member other worked works)
  obtain ⟨later, calledLater⟩ := heartbeat_calls_later stands ordered after
  rw [same] at split live
  rcases Machine.split_cases (split.symm.trans calledLater) with
    ⟨rfl, -, -⟩ | ⟨between, here, -⟩ | ⟨between, -, rfl⟩
  · -- the heartbeat that found it live is this one
    rw [(driven_run setup before).queue] at stale
    exact live stale
  · -- an earlier heartbeat, of a handle that no verb had been called with
    have unused := (owned_run setup before).untouched consumer message
      (by simp [stands, Consumer.untouched])
    rw [verbs, here] at unused
    simp [QueueCall.receiptHandle?] at unused
  · -- a second heartbeat
    obtain ⟨-, ends | ⟨failedAt, ends⟩⟩ := owned.after_heartbeat calledLater
      (some other, .changeVisibility message.receiptHandle seconds time) (by simp) rfl
    · cases ends
    · cases ends

/-- Unless the consumer ends its own delivery, nothing moves the message on before the window is
over. -/
theorem window_holds (stands : (run setup before).at? consumer = .batch (message :: rest))
    (ordered : (run setup before).now ≤ now) (after : List Move) {messageId : String}
    (live : (run setup before).queue.inflight.get? message.receiptHandle = some messageId)
    {between later : List (Option ℕ × QueueCall)} {caller : Option ℕ} {call : QueueCall} {sweptAt : ℚ}
    (split : callsBy (run setup (before ++ .heartbeat consumer now :: after)).past =
      callsBy (run setup (before ++ [.heartbeat consumer now])).past ++ between ++
        (caller, call) :: later)
    (kept : (some consumer, .delete message.receiptHandle) ∉ between)
    (unfailed : ∀ failedAt, (some consumer, .fail message.receiptHandle failedAt) ∉ between)
    (movesOn : MovesOn setup.host setup.queue (reached setup.host setup.queue
      ((callsBy (run setup (before ++ [.heartbeat consumer now])).past ++ between).map Prod.snd))
      messageId sweptAt call) : now + setup.worker.visibilityTimeout ≤ sweptAt := by
  have driven := driven_run setup (before ++ .heartbeat consumer now :: after)
  have owned := owned_run setup (before ++ .heartbeat consumer now :: after)
  obtain ⟨count, held⟩ := heartbeat_opens stands ordered live
  have all : calls (run setup (before ++ .heartbeat consumer now :: after)).past =
      calls (run setup (before ++ [.heartbeat consumer now])).past ++ between.map Prod.snd ++
        call :: later.map Prod.snd := by
    rw [calls, split]
    simp [calls]
  have quiet : ∀ used ∈ between.map Prod.snd, used.receiptHandle? ≠ some message.receiptHandle := by
    intro used member verb
    obtain ⟨⟨who, made⟩, listed, rfl⟩ := List.mem_map.mp member
    rw [heartbeat_calls stands ordered, List.append_assoc, List.append_assoc,
      List.singleton_append] at split
    obtain ⟨mine, ends⟩ := owned.after_heartbeat split (who, made)
      (List.mem_append_left _ listed) verb
    dsimp only at mine ends
    subst mine
    rcases ends with rfl | ⟨failedAt, rfl⟩
    · exact kept listed
    · exact unfailed failedAt listed
  have port := driven.port
  have inOrder := driven.ordered
  rw [all] at port inOrder
  refine moves_on_after_deadline held quiet (fun member => port ?_) inOrder ?_
  · simp [member]
  · rw [List.map_append] at movesOn
    exact movesOn

/-- A consumer that still works on a message has called no verb for it since its heartbeat. -/
theorem quiet_while_working (stands : (run setup before).at? consumer = .batch (message :: rest))
    (ordered : (run setup before).now ≤ now) {after : List Move}
    (working : ((run setup (before ++ .heartbeat consumer now :: after)).at? consumer).current? =
      some message) {more : List (Option ℕ × QueueCall)}
    (split : callsBy (run setup (before ++ .heartbeat consumer now :: after)).past =
      callsBy (run setup (before ++ [.heartbeat consumer now])).past ++ more) :
    ∀ used ∈ more.map Prod.snd, used.receiptHandle? ≠ some message.receiptHandle := by
  obtain ⟨time, only⟩ :=
    (owned_run setup (before ++ .heartbeat consumer now :: after)).current consumer message working
  intro used member
  obtain ⟨entry, listed, rfl⟩ := List.mem_map.mp member
  rw [verbs, split, heartbeat_calls stands ordered, List.append_assoc, List.filter_append,
    List.singleton_append, List.filter_cons_of_pos (by simp [QueueCall.receiptHandle?])] at only
  rcases List.append_eq_singleton_iff.mp only with ⟨-, tail⟩ | ⟨-, tail⟩
  · simpa using List.filter_eq_nil_iff.mp (List.cons.inj tail).2 entry listed
  · cases tail

/-- While the consumer still works on the message, another one's heartbeat for it comes no earlier than
the end of the window. -/
theorem window_excludes (stands : (run setup before).at? consumer = .batch (message :: rest))
    (ordered : (run setup before).now ≤ now) {after : List Move} {messageId : String}
    (live : (run setup before).queue.inflight.get? message.receiptHandle = some messageId)
    {other : ℕ} {otherMessage : Message} {otherRest : List Message} {otherNow : ℚ}
    (working : ((run setup (before ++ .heartbeat consumer now :: after)).at? consumer).current? =
      some message)
    (otherStands : (run setup (before ++ .heartbeat consumer now :: after)).at? other =
      .batch (otherMessage :: otherRest))
    (later : (run setup (before ++ .heartbeat consumer now :: after)).now ≤ otherNow)
    (otherLive : (run setup (before ++ .heartbeat consumer now :: after)).queue.inflight.get?
      otherMessage.receiptHandle = some messageId) :
    now + setup.worker.visibilityTimeout ≤ otherNow := by
  have driven := driven_run setup (before ++ .heartbeat consumer now :: after)
  have owned := owned_run setup (before ++ .heartbeat consumer now :: after)
  obtain ⟨count, held⟩ := heartbeat_opens stands ordered live
  obtain ⟨more, grown⟩ := callsBy_grows setup (before ++ [.heartbeat consumer now]) after
  have split : callsBy (run setup (before ++ .heartbeat consumer now :: after)).past =
      callsBy (run setup (before ++ [.heartbeat consumer now])).past ++ more := by
    simpa only [List.append_assoc, List.singleton_append] using grown
  have all : calls (run setup (before ++ .heartbeat consumer now :: after)).past =
      calls (run setup (before ++ [.heartbeat consumer now])).past ++ more.map Prod.snd := by
    rw [calls, split, List.map_append, calls]
  have different : consumer ≠ other := by
    rintro rfl
    rw [otherStands] at working
    cases working
  have apart : message.receiptHandle ≠ otherMessage.receiptHandle :=
    owned.apart consumer other different message (Consumer.current_held working) otherMessage
      (Consumer.untouched_held (by simp [otherStands, Consumer.untouched]))
  rcases loan_lasts held (quiet_while_working stands ordered working split)
    (fun member => driven.port (all ▸ List.mem_append_right _ member))
    with still | ⟨call, member, maxN, visibilityTimeout, sweptAt, time, rfl, past⟩
  · change place _ (reached _ _ (calls _ ++ _)) _ = _ at still
    rw [← all, ← driven.queue] at still
    have live := driven.linked.inflight_iff.mpr ⟨_, _, still⟩
    exact absurd (driven.linked.inflight_injective live otherLive) apart
  · have read := driven.read sweptAt (List.mem_flatMap.mpr ⟨_, by
      rw [all]
      exact List.mem_append_right _ member, List.mem_cons_self ..⟩)
    exact past.trans (read.trans later)

/-- The exclusive processing window, in every run of any number of consumers.  A heartbeat at `now` that
finds its handle live keeps the message for its consumer: unless that consumer calls `delete` or
`fail` first, the message is neither handed out nor dead-lettered before `now` plus the visibility;
and as long as that consumer still works on it, another one's heartbeat for the same message comes no
earlier.  A heartbeat that finds the handle stale leaves the circuit and the stores as they are, and
no work on the delivery is ever recorded. -/
theorem exclusive_processing_window (setup : Setup) (before after : List Move) (consumer : ℕ)
    (now : ℚ) (message : Message) (rest : List Message)
    (stands : (run setup before).at? consumer = .batch (message :: rest))
    (ordered : (run setup before).now ≤ now) :
    let handle := message.receiptHandle
    let window := setup.worker.visibilityTimeout
    let system := run setup before
    let beaten := run setup (before ++ [.heartbeat consumer now])
    let final := run setup (before ++ .heartbeat consumer now :: after)
    (∀ messageId, system.queue.inflight.get? handle = some messageId →
      (∀ between caller call later sweptAt,
        callsBy final.past = callsBy beaten.past ++ between ++ (caller, call) :: later →
        (some consumer, .delete handle) ∉ between →
        (∀ failedAt, (some consumer, .fail handle failedAt) ∉ between) →
        MovesOn setup.host setup.queue (reached setup.host setup.queue
          ((callsBy beaten.past ++ between).map Prod.snd)) messageId sweptAt call →
        now + window ≤ sweptAt) ∧
      ∀ other otherMessage otherRest otherNow,
        (final.at? consumer).current? = some message →
        final.at? other = .batch (otherMessage :: otherRest) → final.now ≤ otherNow →
        final.queue.inflight.get? otherMessage.receiptHandle = some messageId →
        now + window ≤ otherNow) ∧
    (system.queue.inflight.get? handle = none →
      (beaten.sink = system.sink ∧ beaten.writes = system.writes ∧ beaten.mongo = system.mongo ∧
        beaten.elastic = system.elastic) ∧
      ∀ happening ∈ final.past, ∀ other worked, happening.work? = some (other, worked) →
        worked.receiptHandle ≠ handle) := by
  intro handle window system beaten final
  refine ⟨fun messageId live => ⟨?_, ?_⟩, fun stale => ⟨?_, ?_⟩⟩
  · intro between caller call later sweptAt split kept unfailed movesOn
    exact window_holds stands ordered after live split kept unfailed movesOn
  · intro other otherMessage otherRest otherNow working otherStands later otherLive
    exact window_excludes stands ordered live working otherStands later otherLive
  · rcases next_heartbeat (driven_run setup before).linked stands ordered with
      ⟨-, shape⟩ | ⟨live, -⟩
    · have same : beaten = _ := (run_snoc ..).trans shape
      rw [same]
      exact ⟨rfl, rfl, rfl, rfl⟩
    · exact absurd stale live
  · exact stale_heartbeat_stops stands ordered stale after

/-- A consumer claims the window of its message at 1. -/
def begunAt1 : List Move :=
  [.send (sampleEvent "a"), .start, .turn 0 none 0 0 0, .heartbeat 0 1]

theorem a_heartbeat_at_1_keeps_until_31 :
    MovesOn (sampleSetup {} { concurrency := 2 }).host {}
      (reached (sampleSetup {} { concurrency := 2 }).host {}
        ((callsBy (run (sampleSetup {} { concurrency := 2 }) begunAt1).past ++ []).map Prod.snd))
      "1" 31 (.receive 10 none 31 31) ∧
    (1 : ℚ) + 30 ≤ 31 := by
  refine ⟨⟨10, none, 31, rfl, .inl (by decide +kernel)⟩, ?_⟩
  refine ((exclusive_processing_window (sampleSetup {} { concurrency := 2 })
    [.send (sampleEvent "a"), .start, .turn 0 none 0 0 0] [.turn 1 none 31 31 31] 0 1
    ⟨sampleEvent "a", "11", 1⟩ [] (by with_unfolding_all rfl) (by decide +kernel)).1 "1"
    (by decide +kernel)).1 [] (some 1) (.receive 10 none 31 31) [] 31
    (by with_unfolding_all rfl) (by simp) (by simp) ⟨10, none, 31, rfl, .inl (by decide +kernel)⟩

end FeathrEvents.System
