/-
Module: FeathrEvents.Proofs.ConsoleOutage
Purpose: What the simulation of an outage promises: as long as a store is down, each consumer acknowledges
  at most the message that it had in hand, and only what was already on its way is stored.
Trusted boundary: none
Main exports: Consumer.inHand, Consumer.owes, deletes, Console.UnderWay, Console.Unchanged, Console.Outage,
  Console.Settles, Console.outage_run, Console.an_outage_stores_nothing_new
-/
import FeathrEvents.Proofs.ConsoleReports

namespace FeathrEvents

/-- The consumer has called a store for a message that it has not tried to acknowledge.  Its first
write may have returned before the store went down, so that this one can still be completed. -/
def Consumer.inHand : Consumer → Bool
  | .writing .. | .acking .. => true
  | .ready | .batch _ | .stopped | .cancelled | .died _ => false

/-- The consumer can acknowledge its message although no write that the store begins from some
position on lands: nothing that it still has to write is among these.  An outage cannot hold this
one back. -/
def Consumer.owes (down : Sink) (before : ℕ) : Consumer → Bool
  | .writing .mongodb _ _ index => down = .mongodb ∧ index < before
  | .writing .elasticsearch _ _ index => down = .mongodb ∨ index < before
  | .acking .. => true
  | .ready | .batch _ | .stopped | .cancelled | .died _ => false

theorem Consumer.inHand_of_owes {down : Sink} {before : ℕ} {standing : Consumer}
    (owes : standing.owes down before = true) : standing.inHand = true := by
  cases standing <;> first | rfl | cases owes

@[simp] theorem Consumer.owes_resume (down : Sink) (before : ℕ) (rest : List Message) :
    (Consumer.resume rest).owes down before = false := by
  cases rest <;> rfl

/-- The handle that the consumer can still give to `delete`, if it owes an acknowledgement. -/
def Consumer.owed (down : Sink) (before : ℕ) (standing : Consumer) : List String :=
  if standing.owes down before then standing.current?.toList.map Message.receiptHandle else []

theorem Consumer.owed_sublist (down : Sink) (before : ℕ) (standing : Consumer) :
    (standing.owed down before).Sublist (standing.current?.toList.map Message.receiptHandle) := by
  unfold owed
  split
  · exact .refl _
  · exact List.nil_sublist _

/-- A consumer that moves on with its message, or lets go of it, owes no more than before. -/
theorem Consumer.owed_mono {down : Sink} {before : ℕ} {former standing : Consumer}
    (owes : standing.owes down before = true → former.owes down before = true)
    (same : standing.owes down before = true → standing.current? = former.current?) :
    (standing.owed down before).Sublist (former.owed down before) := by
  unfold owed
  split
  · rename_i holds
    rw [if_pos (owes holds), same holds]
  · exact List.nil_sublist _

theorem Sink.dependency_ne_worker (down : Sink) : down.dependency ≠ .worker := by
  cases down <;> decide

/-- The handle that a call gives to `delete`, where it is made by this consumer. -/
def deleteBy (consumer : ℕ) : Option ℕ × QueueCall → Option String
  | (some caller, .delete handle) => if caller = consumer then some handle else none
  | _ => none

/-- The handles that a consumer has given to `delete`, in order.  A message is acknowledged by nothing
else, so these are its acknowledgements and those that came too late. -/
def deletes (consumer : ℕ) (past : List Happening) : List String :=
  (callsBy past).filterMap (deleteBy consumer)

theorem deletes_called (consumer : ℕ) (past : List Happening) (caller : Option ℕ)
    (call : QueueCall) :
    deletes consumer (past ++ [.called caller call]) =
      deletes consumer past ++ (deleteBy consumer (caller, call)).toList := by
  rw [deletes, callsBy_append]
  exact Machine.filterMap_snoc ..

namespace System

variable {setup : Setup} {system later : System}

/-- What one task that moves does to a count of the tasks. -/
theorem countP_set (counted : Consumer → Bool) {consumer : ℕ}
    (stood : system.at? consumer ≠ .stopped) (standing : Consumer) :
    (system.tasks.set consumer standing).countP counted +
        (if counted (system.at? consumer) then 1 else 0) =
      system.tasks.countP counted + (if counted standing then 1 else 0) := by
  have inside := lt_of_at? stood
  have here : system.at? consumer = system.tasks[consumer] := by
    rw [at?, List.getElem?_eq_getElem inside]
    rfl
  have one : (if counted system.tasks[consumer] then 1 else 0) ≤ system.tasks.countP counted := by
    split
    · rename_i holds
      exact List.countP_pos_iff.mpr ⟨_, List.getElem_mem inside, holds⟩
    · exact Nat.zero_le _
  rw [List.countP_set inside, here]
  omega

end System

namespace Console

open FeathrEvents.System (Documents Moved)

/-- A document of the event is on its way to a store when the other one goes down: its write was called,
or will be when the write before it returns. -/
def UnderWay (down : Sink) (base : System) (sink : Sink) (event : Event) : Prop :=
  ⟨sink, event, false⟩ ∈ base.writes ∨
    (sink ≠ down ∧ ∃ consumer message rest index,
      base.at? consumer = .writing down message rest index ∧ message.event = event)

/-- A store has under an id what it had: the same document, or none.  An outage is to leave it so
for all but what was on its way. -/
def Unchanged (base later : System) (eventId : String) : Sink → Prop
  | .mongodb => later.mongo.get? eventId = base.mongo.get? eventId
  | .elasticsearch => later.elastic.get? eventId = base.elastic.get? eventId

/-- What holds as long as a store is down, with the system when it went down for comparison: writes
that were called then may still land, those called since do not, and neither does what would follow
them. -/
structure Outage (setup : Setup) (down : Sink) (base : System) (console : Console) : Prop where
  simulated : down.dependency.value ∈ console.faulted
  grown : base.writes.length ≤ console.system.writes.length
  older : ∀ index write, index < base.writes.length → console.system.writes[index]? = some write →
    write.landed = false → write ∈ base.writes
  refused : ∀ index write, base.writes.length ≤ index → console.system.writes[index]? = some write →
    write.sink = down → index ∈ console.refused ∧ write.landed = false
  newer : ∀ index write, base.writes.length ≤ index → console.system.writes[index]? = some write →
    write.sink ≠ down → down = .mongodb → UnderWay down base write.sink write.event
  standing : ∀ consumer message rest index, index < base.writes.length →
    console.system.at? consumer = .writing down message rest index →
    base.at? consumer = .writing down message rest index
  bounded : console.system.processed +
      console.system.tasks.countP (Consumer.owes down base.writes.length) ≤
    base.processed + base.tasks.countP (Consumer.owes down base.writes.length)
  stored : ∀ sink, sink = down ∨ down = .mongodb → ∀ eventId,
    Unchanged base console.system eventId sink ∨ ∃ event, UnderWay down base sink event ∧
      event.eventId = eventId ∧ Documents setup console.system eventId event sink

variable {setup : Setup} {down : Sink} {base later : System} {console : Console}

theorem outage_base (setup : Setup) (simulated : down.dependency.value ∈ console.faulted) :
    Outage setup down console.system console where
  simulated := simulated
  grown := Nat.le_refl _
  older index write _ called _ := List.mem_of_getElem? called
  refused index write late called _ := by
    rw [List.getElem?_eq_none late] at called
    cases called
  newer index write late called _ _ := by
    rw [List.getElem?_eq_none late] at called
    cases called
  standing consumer message rest index _ stands := stands
  bounded := Nat.le_refl _
  stored sink _ eventId := .inl (by cases sink <;> rfl)

/-- A move that calls no store and in which no write lands. -/
theorem Outage.keep (outage : Outage setup down base console) (refused : Finset ℕ)
    (writes : later.writes = console.system.writes)
    (stores : later.mongo = console.system.mongo ∧ later.elastic = console.system.elastic)
    (stands : ∀ other, later.at? other = console.system.at? other ∨ (later.at? other).awaits = none)
    (bounded : later.processed + later.tasks.countP (Consumer.owes down base.writes.length) ≤
      console.system.processed +
        console.system.tasks.countP (Consumer.owes down base.writes.length)) :
    Outage setup down base
      { console with system := later, refused := console.refused ∪ refused } where
  simulated := outage.simulated
  grown := writes ▸ outage.grown
  older := by
    simp only [writes]
    exact outage.older
  refused index write late called same := by
    rw [writes] at called
    obtain ⟨known, pending⟩ := outage.refused index write late called same
    exact ⟨Finset.mem_union_left _ known, pending⟩
  newer := by
    simp only [writes]
    exact outage.newer
  standing consumer message rest index early stood := by
    rcases stands consumer with same | idle
    · rw [same] at stood
      exact outage.standing consumer message rest index early stood
    · rw [stood] at idle
      cases idle
  bounded := bounded.trans outage.bounded
  stored sink covered eventId := by
    have former := outage.stored sink covered eventId
    cases sink <;> simpa only [Unchanged, Documents, stores] using former

theorem began_refused {before after : System} {faulted : Faults} {sink : Sink} {event : Event}
    (simulated : sink.dependency.value ∈ faulted)
    (writes : after.writes = before.writes ++ [⟨sink, event, false⟩]) :
    before.writes.length ∈ refusals faulted before after := by
  simp [refusals, writes, Faults.guard, simulated, Except.isOk, Except.toBool]

/-- A move that calls a store. -/
theorem Outage.began (outage : Outage setup down base console) {consumer : ℕ} {sink : Sink}
    {message : Message} {rest : List Message}
    (writes : later.writes = console.system.writes ++ [⟨sink, message.event, false⟩])
    (stores : later.mongo = console.system.mongo ∧ later.elastic = console.system.elastic)
    (stood : console.system.at? consumer ≠ .stopped)
    (tasks : later.tasks =
      console.system.tasks.set consumer (.writing sink message rest console.system.writes.length))
    (way : sink ≠ down → down = .mongodb → UnderWay down base sink message.event)
    (bounded : later.processed + later.tasks.countP (Consumer.owes down base.writes.length) ≤
      console.system.processed +
        console.system.tasks.countP (Consumer.owes down base.writes.length)) :
    Outage setup down base { console with
      system := later
      refused := console.refused ∪ refusals console.faulted console.system later } := by
  have split : ∀ {index : ℕ} {write : Write}, later.writes[index]? = some write →
      console.system.writes[index]? = some write ∨
        (index = console.system.writes.length ∧ write = ⟨sink, message.event, false⟩) := by
    intro index write called
    rw [writes] at called
    by_cases old : index < console.system.writes.length
    · rw [List.getElem?_append_left old] at called
      exact .inl called
    · rw [List.getElem?_append_right (not_lt.mp old), List.getElem?_singleton] at called
      split at called
      · rename_i last
        cases called
        exact .inr ⟨by omega, rfl⟩
      · cases called
  have grown := outage.grown
  refine ⟨outage.simulated, ?_, ?_, ?_, ?_, ?_, bounded.trans outage.bounded, ?_⟩
  · rw [writes, List.length_append]
    omega
  · intro index write early called pending
    rcases split called with old | ⟨rfl, -⟩
    · exact outage.older index write early old pending
    · omega
  · intro index write late called same
    rcases split called with old | ⟨rfl, rfl⟩
    · obtain ⟨known, pending⟩ := outage.refused index write late old same
      exact ⟨Finset.mem_union_left _ known, pending⟩
    · have simulated := outage.simulated
      rw [← same] at simulated
      exact ⟨Finset.mem_union_right _ (began_refused simulated writes), rfl⟩
  · intro index write late called other
    rcases split called with old | ⟨rfl, rfl⟩
    · exact outage.newer index write late old other
    · exact way other
  · intro other worked remaining index early stands
    rw [System.at?_of_tasks tasks stood] at stands
    split at stands
    · cases stands
      omega
    · exact outage.standing other worked remaining index early stands
  · intro other covered eventId
    have former := outage.stored other covered eventId
    cases other <;> simpa only [Unchanged, Documents, stores] using former

/-- A write that lands leaves the rest as it was. -/
theorem unchanged_land (setup : Setup) (system : System) (write : Write) {eventId : String}
    {sink : Sink}
    (apart : ¬ (eventId = write.event.eventId ∧ sink = write.sink)) :
    Unchanged system (system.land setup write) eventId sink := by
  obtain ⟨landing, event, landed⟩ := write
  by_cases same : eventId = event.eventId
  · cases landing <;> cases sink <;> simp_all [Unchanged, System.land]
  · cases landing <;> cases sink <;> simp [Unchanged, System.land, Event.toDocument, same]

theorem Unchanged.trans {later last : System} {eventId : String} {sink : Sink}
    (first : Unchanged base later eventId sink) (second : Unchanged later last eventId sink) :
    Unchanged base last eventId sink := by
  cases sink with
  | mongodb => exact Eq.trans second first
  | elasticsearch => exact Eq.trans second first

/-- A write lands that was not refused. -/
theorem Outage.landed (outage : Outage setup down base console) {index : ℕ} {write : Write}
    (called : console.system.writes[index]? = some write) (pending : write.landed = false)
    (may : index ∉ console.refused) (refused : Finset ℕ) :
    Outage setup down base { console with
      system := { console.system.land setup write with
        writes := console.system.writes.set index { write with landed := true } }
      refused := console.refused ∪ refused } := by
  have others : ∀ {position : ℕ} {found : Write},
      (console.system.writes.set index { write with landed := true })[position]? = some found →
      console.system.writes[position]? = some found ∨
        (position = index ∧ found = { write with landed := true }) := by
    intro position found here
    by_cases same : index = position
    · subst same
      rw [List.getElem?_set_self (List.getElem?_eq_some_iff.mp called).1] at here
      cases here
      exact .inr ⟨rfl, rfl⟩
    · rw [List.getElem?_set_ne same] at here
      exact .inl here
  have way : ∀ sink, sink = down ∨ down = .mongodb → write.sink = sink →
      UnderWay down base sink write.event := by
    rintro sink covered rfl
    rcases lt_or_ge index base.writes.length with early | late
    · have known := outage.older index write early called pending
      left
      rw [← pending]
      exact known
    · by_cases same : write.sink = down
      · exact absurd (outage.refused index write late called same).1 may
      · exact outage.newer index write late called same (covered.resolve_left same)
  have standing : ∀ other, (System.at? { console.system.land setup write with
      writes := console.system.writes.set index { write with landed := true } } other) =
      console.system.at? other := by
    intro other
    simp only [System.at?, System.land]
    split <;> rfl
  have counts : (console.system.land setup write).processed = console.system.processed ∧
      (console.system.land setup write).tasks = console.system.tasks := by
    rw [System.land]
    split <;> exact ⟨rfl, rfl⟩
  refine ⟨outage.simulated, ?_, ?_, ?_, ?_, ?_, ?_, ?_⟩
  · simpa only [List.length_set] using outage.grown
  · intro position found early here waits
    rcases others here with old | ⟨-, rfl⟩
    · exact outage.older position found early old waits
    · cases waits
  · intro position found late here same
    rcases others here with old | ⟨rfl, rfl⟩
    · obtain ⟨known, waits⟩ := outage.refused position found late old same
      exact ⟨Finset.mem_union_left _ known, waits⟩
    · exact absurd (outage.refused position write late called same).1 may
  · intro position found late here other
    rcases others here with old | ⟨rfl, rfl⟩
    · exact outage.newer position found late old other
    · exact outage.newer position write late called other
  · intro consumer message rest position early stands
    rw [standing] at stands
    exact outage.standing consumer message rest position early stands
  · dsimp only
    rw [counts.1, counts.2]
    exact outage.bounded
  · intro sink covered eventId
    obtain ⟨replaced, untouched⟩ := System.documents_land setup console.system write eventId
    by_cases mine : eventId = write.event.eventId ∧ sink = write.sink
    · obtain ⟨named, rfl⟩ := mine
      refine .inr ⟨write.event, way _ covered rfl, named.symm, ?_⟩
      have stored := replaced named
      generalize write.sink = sink at *
      cases sink <;> exact stored
    · rcases outage.stored sink covered eventId with same | ⟨event, way, named, stored⟩
      · left
        have kept := same.trans (unchanged_land setup console.system write mine)
        cases sink <;> exact kept
      · have kept := untouched event sink stored mine
        refine .inr ⟨event, way, named, ?_⟩
        cases sink <;> exact kept

/-! ### Every move -/

/-- What a move does to what the tasks owe: a task comes to owe nothing that it did not owe before, and
one that calls `delete` owes nothing afterwards. -/
inductive Settles (down : Sink) (before : ℕ) (system later : System) : Prop where
  | kept (tasks : later.tasks = system.tasks) (processed : later.processed = system.processed)
      (given : ∀ consumer, deletes consumer later.past = deletes consumer system.past)
  | started (count : ℕ) (tasks : later.tasks = system.tasks ++ List.replicate count .ready)
      (processed : later.processed = system.processed)
      (given : ∀ consumer, deletes consumer later.past = deletes consumer system.past)
  | went {mover : ℕ} {former standing : Consumer} (stands : system.at? mover = former)
      (stood : former ≠ .stopped) (tasks : later.tasks = system.tasks.set mover standing)
      (owes : standing.owes down before = true →
        former.owes down before = true ∧ standing.current? = former.current?)
      (processed : later.processed = system.processed)
      (given : ∀ consumer, deletes consumer later.past = deletes consumer system.past)
  | acknowledged {mover : ℕ} {message : Message} {rest : List Message}
      (stands : system.at? mover = .acking message rest)
      (tasks : later.tasks = system.tasks.set mover (.resume rest))
      (processed : later.processed ≤ system.processed + 1)
      (given : ∀ consumer, deletes consumer later.past = deletes consumer system.past ++
        (deleteBy consumer (some mover, .delete message.receiptHandle)).toList)

theorem settles_moved {system : System} {move : Move} {before : ℕ}
    (moved : Moved setup system move later)
    (grown : before ≤ system.writes.length)
    (early : ∀ consumer message rest index, system.at? consumer = .writing down message rest index →
      (system.writes[index]?).any Write.landed → index < before) :
    Settles down before system later := by
  cases moved with
  | idle | waited | faulted | stopCalled | drained => exact .kept rfl rfl fun _ => rfl
  | sent | found =>
      refine .kept rfl rfl fun consumer => ?_
      simp [deletes, System.made, System.withSink, System.tick, Happening.call?, deleteBy]
  | @landed _ write =>
      obtain ⟨sink, event, landed⟩ := write
      cases sink <;> exact .kept rfl rfl fun _ => rfl
  | started => exact .started _ rfl rfl fun _ => rfl
  | quit stands => exact .went stands (by simp) rfl (by simp [Consumer.owes]) rfl fun _ => rfl
  | fetched stands | overflowed stands | backoffOverflowed stands =>
      refine .went stands (by simp) rfl (by simp [Consumer.owes]) rfl fun consumer => ?_
      simp [deletes, System.made, System.withSink, System.tick, System.put, System.note,
        System.reported, Happening.call?, deleteBy]
  | stale stands | failed stands =>
      refine .went stands (by simp) rfl (by simp) rfl fun consumer => ?_
      simp [deletes, System.made, System.tick, System.put, System.reported, Happening.call?, deleteBy]
  | cancelled unfinished =>
      exact .went rfl (Consumer.ne_stopped unfinished) rfl (by simp [Consumer.owes]) rfl fun _ => rfl
  | beat stands =>
      -- the write that it calls is a new one, and owes nothing
      refine .went stands (by simp) rfl (fun owes => ?_) rfl fun consumer => ?_
      · exact absurd (of_decide_eq_true owes).2 (not_lt.mpr grown)
      · simp [deletes, System.made, System.begin, System.tick, Happening.call?, deleteBy]
  | @stored consumer message rest index stands landed =>
      refine .went stands (by simp) rfl (fun owes => ⟨?_, rfl⟩) rfl fun other => ?_
      · have stores : down = .mongodb := (of_decide_eq_true owes).resolve_right (not_lt.mpr grown)
        subst stores
        simpa [Consumer.owes] using early consumer message rest index stands landed
      · simp [deletes, System.begin, System.note, Happening.call?]
  | @indexed consumer message rest index stands landed =>
      refine .went stands (by simp) rfl (fun _ => ⟨?_, rfl⟩) rfl fun other => ?_
      · cases down with
        | mongodb => rfl
        | elasticsearch => simpa [Consumer.owes] using early consumer message rest index stands landed
      · simp [deletes, System.put, System.withSink, System.note, Happening.call?]
  | acked stands =>
      exact .acknowledged stands rfl (Nat.le_refl _) fun consumer => deletes_called ..
  | refused stands =>
      exact .acknowledged stands rfl (Nat.le_succ _) fun consumer => deletes_called ..

/-- What is acknowledged was owed: a move adds no more to the counter than it takes from what the tasks
owe. -/
theorem Settles.bounded {system : System} {before : ℕ}
    (settles : Settles down before system later) :
    later.processed + later.tasks.countP (Consumer.owes down before) ≤
      system.processed + system.tasks.countP (Consumer.owes down before) := by
  cases settles with
  | kept tasks processed => rw [tasks, processed]
  | started count tasks processed =>
      simp [tasks, processed, List.countP_append, List.countP_replicate, Consumer.owes]
  | @went mover former standing stands stood tasks owes processed =>
      subst stands
      have count := System.countP_set (Consumer.owes down before) stood standing
      rw [← tasks] at count
      split at count
      · split at count <;> omega
      · split at count
        · exact absurd (owes ‹_›).1 ‹_›
        · omega
  | @acknowledged mover message rest stands tasks processed =>
      have stood : system.at? mover ≠ .stopped := by simp [stands]
      have count := System.countP_set (Consumer.owes down before) stood (.resume rest)
      have owed : (system.at? mover).owes down before = true := by
        rw [stands]
        rfl
      rw [← tasks, owed, Consumer.owes_resume] at count
      simp only [if_true, Bool.false_eq_true, if_false] at count
      omega

/-- A consumer gives to `delete` what it owed, and owes no more than what is left of it. -/
theorem Settles.gives {system : System} {before : ℕ} (settles : Settles down before system later)
    (consumer : ℕ) :
    ∃ more, deletes consumer later.past = deletes consumer system.past ++ more ∧
      (more ++ (later.at? consumer).owed down before).Sublist
        ((system.at? consumer).owed down before) := by
  cases settles with
  | kept tasks _ given =>
      refine ⟨[], by rw [given, List.append_nil], ?_⟩
      rw [List.nil_append, System.at?, tasks, ← System.at?]
  | started count tasks _ given =>
      refine ⟨[], by rw [given, List.append_nil], ?_⟩
      rcases System.at?_of_started tasks consumer with same | ⟨-, ready⟩
      · rw [List.nil_append, same]
      · rw [ready]
        exact List.nil_sublist _
  | @went mover former standing stands stood tasks owes _ given =>
      subst stands
      refine ⟨[], by rw [given, List.append_nil], ?_⟩
      rw [List.nil_append, System.at?_of_tasks tasks stood]
      split
      · rename_i here
        rw [here]
        exact Consumer.owed_mono (fun holds => (owes holds).1) fun holds => (owes holds).2
      · exact .refl _
  | @acknowledged mover message rest stands tasks _ given =>
      refine ⟨_, given consumer, ?_⟩
      rw [System.at?_of_tasks tasks (by simp [stands])]
      by_cases mine : consumer = mover
      · subst mine
        -- it owed exactly this handle
        have settled : (Consumer.resume rest).owed down before = [] := by simp [Consumer.owed]
        have owing : (Consumer.acking message rest).owed down before = [message.receiptHandle] := rfl
        simp [deleteBy, stands, settled, owing]
      · have others : ¬ mover = consumer := fun same => mine same.symm
        simp [deleteBy, others, mine]

/-- A write to the store that is down returns only if it was called before. -/
theorem Outage.early (outage : Outage setup down base console)
    (stored : System.Stored setup console.system) (consumer : ℕ) (message : Message)
    (rest : List Message) (index : ℕ)
    (stands : console.system.at? consumer = .writing down message rest index)
    (landed : (console.system.writes[index]?).any Write.landed) : index < base.writes.length := by
  by_contra late
  obtain ⟨flag, called⟩ :=
    stored.awaited consumer index down message.event (by simp [stands, Consumer.awaits])
  have pending := (outage.refused index _ (not_lt.mp late) called rfl).2
  rw [called, Option.any_some, pending] at landed
  cases landed

theorem Outage.moved (outage : Outage setup down base console) {move : Move}
    (stored : System.Stored setup console.system) (moved : Moved setup console.system move later)
    (may : ∀ index ∈ console.refused, move ≠ .land index) :
    Outage setup down base { console with
      system := later
      refused := console.refused ∪ refusals console.faulted console.system later } := by
  have early := outage.early stored
  have bounded := (settles_moved moved outage.grown early).bounded
  have idle : ∀ {consumer : ℕ} {standing : Consumer}, console.system.at? consumer ≠ .stopped →
      later.tasks = console.system.tasks.set consumer standing → standing.awaits = none →
      later.writes = console.system.writes →
      later.mongo = console.system.mongo ∧ later.elastic = console.system.elastic →
      Outage setup down base { console with
        system := later
        refused := console.refused ∪ refusals console.faulted console.system later } := by
    intro consumer standing stood tasks waits writes stores
    exact outage.keep _ writes stores (System.idle_of_set stood tasks waits) bounded
  cases moved with
  | idle | sent | waited | faulted | found | stopCalled | drained =>
      exact outage.keep _ rfl ⟨rfl, rfl⟩ (fun _ => .inl rfl) bounded
  | quit stands | fetched stands | overflowed stands | backoffOverflowed stands | indexed stands =>
      exact idle (by simp [stands]) rfl rfl rfl ⟨rfl, rfl⟩
  | stale stands | failed stands | refused stands | acked stands =>
      exact idle (by simp [stands]) rfl (by simp) rfl ⟨rfl, rfl⟩
  | cancelled unfinished =>
      exact idle (Consumer.ne_stopped unfinished) rfl rfl rfl ⟨rfl, rfl⟩
  | started =>
      refine outage.keep _ rfl ⟨rfl, rfl⟩ (fun other => ?_) bounded
      refine (System.at?_of_started rfl other).imp_right fun ready => ?_
      rw [ready.2]
      rfl
  | landed called pending =>
      exact outage.landed called pending (fun known => may _ known rfl) _
  | @beat consumer now message rest stands =>
      exact outage.began rfl ⟨rfl, rfl⟩ (by simp [stands]) rfl (fun other same => absurd same.symm other)
        bounded
  | @stored consumer message rest index stands landed =>
      refine outage.began rfl ⟨rfl, rfl⟩ (by simp [stands]) rfl (fun other same => ?_) bounded
      subst same
      have here := early consumer message rest index stands landed
      exact .inr ⟨other, consumer, message, rest, index, outage.standing _ _ _ _ here stands, rfl⟩

theorem Outage.work (outage : Outage setup down base console)
    (stored : System.Stored setup console.system)
    (linked : InMemoryEventQueue.Linked setup.host console.system.queue) (move : Move) :
    Outage setup down base (console.work setup move) := by
  rcases work_cases setup move console with ⟨-, same⟩ | ⟨may, taken⟩
  · rw [same]
    exact outage
  · rw [taken]
    exact outage.moved stored (System.next_moved linked move) may

/-- A store that is down stays down as long as nobody asks for it to be up. -/
theorem Outage.next (outage : Outage setup down base console)
    (stored : System.Stored setup console.system)
    (linked : InMemoryEventQueue.Linked setup.host console.system.queue) {move : ConsoleMove}
    (lasting : move.fault? down.dependency ≠ some false) :
    Outage setup down base (console.next setup move) := by
  have asked : ∀ faulted : Faults, down.dependency.value ∈ faulted →
      Outage setup down base { console with faulted := faulted } := fun faulted simulated =>
    ⟨simulated, outage.grown, outage.older, outage.refused, outage.newer, outage.standing,
      outage.bounded, outage.stored⟩
  cases move with
  | work inner => exact outage.work stored linked inner
  | fault dependency flag =>
      simp only [Console.next, fault]
      split
      · exact outage.work stored linked _
      · split
        · exact asked _ (Finset.mem_insert_of_mem outage.simulated)
        · rename_i other up
          refine asked _ (Finset.mem_erase.mpr ⟨fun same => lasting ?_, outage.simulated⟩)
          simp [ConsoleMove.fault?, FaultTarget.value_injective same, up]

theorem stored_run (setup : Setup) (moves : List ConsoleMove) :
    System.Stored setup (run setup moves).system := by
  obtain ⟨taken, ran⟩ := ran_run setup moves
  rw [ran]
  exact System.stored_run setup taken

theorem outage_run (setup : Setup) (moves : List ConsoleMove) {more : List ConsoleMove}
    (simulated : down.dependency.value ∈ (run setup moves).faulted)
    (lasting : ∀ move ∈ more, move.fault? down.dependency ≠ some false) :
    Outage setup down (run setup moves).system (run setup (moves ++ more)) := by
  induction more using List.reverseRecOn with
  | nil =>
      rw [List.append_nil]
      exact outage_base setup simulated
  | append_singleton more move ih =>
      rw [← List.append_assoc, run_snoc]
      exact (ih fun earlier member => lasting earlier (List.mem_append_left _ member)).next
        (stored_run ..) (linked_run ..) (lasting move (by simp))

/-- As long as the store is down, what a consumer gives to `delete` is what it owed at the beginning. -/
theorem deletes_run (setup : Setup) (moves : List ConsoleMove) {more : List ConsoleMove}
    (simulated : down.dependency.value ∈ (run setup moves).faulted)
    (lasting : ∀ move ∈ more, move.fault? down.dependency ≠ some false) (consumer : ℕ) :
    let before := (run setup moves).system.writes.length
    ∃ given, deletes consumer (run setup (moves ++ more)).system.past =
        deletes consumer (run setup moves).system.past ++ given ∧
      (given ++ ((run setup (moves ++ more)).system.at? consumer).owed down before).Sublist
        (((run setup moves).system.at? consumer).owed down before) := by
  intro before
  induction more using List.reverseRecOn with
  | nil =>
      rw [List.append_nil]
      exact ⟨[], (List.append_nil _).symm, .refl _⟩
  | append_singleton more move ih =>
      have lastingSoFar : ∀ earlier ∈ more, earlier.fault? down.dependency ≠ some false :=
        fun earlier member => lasting earlier (List.mem_append_left _ member)
      obtain ⟨given, soFar, owed⟩ := ih lastingSoFar
      have outage := outage_run setup moves simulated lastingSoFar
      rw [← List.append_assoc, run_snoc]
      rcases next_system setup (run setup (moves ++ more)) move with same | ⟨inner, -, stepped⟩
      · rw [same]
        exact ⟨given, soFar, owed⟩
      · rw [stepped]
        have settles := settles_moved
          (System.next_moved (linked_run setup (moves ++ more)) inner) outage.grown
          (outage.early (stored_run setup (moves ++ more)))
        obtain ⟨now, added, rest⟩ := settles.gives consumer
        refine ⟨given ++ now, by rw [added, soFar, List.append_assoc], ?_⟩
        rw [List.append_assoc]
        exact (List.Sublist.append_left rest given).trans owed

/-- After every run that left a store simulated as down, as long as nobody asks for it to be up: each
consumer gives to `delete` at most the handle of the message that it had in hand, once, and so no more
messages are acknowledged than consumers had one in hand; and whatever that store, or the index behind
MongoDB, has under an id is what it had, or the document of an event that was already on its way. -/
theorem an_outage_stores_nothing_new (setup : Setup) (down : Sink) (moves more : List ConsoleMove)
    (simulated : lastFault moves down.dependency = some true)
    (lasting : ∀ move ∈ more, move.fault? down.dependency ≠ some false) :
    (∀ consumer, ∃ given, deletes consumer (run setup (moves ++ more)).system.past =
        deletes consumer (run setup moves).system.past ++ given ∧
      given.Sublist (((run setup moves).system.at? consumer).current?.toList.map
        Message.receiptHandle)) ∧
    (run setup (moves ++ more)).system.processed ≤
      (run setup moves).system.processed + (run setup moves).system.tasks.countP Consumer.inHand ∧
    ∀ sink, sink = down ∨ down = .mongodb → ∀ eventId,
      Unchanged (run setup moves).system (run setup (moves ++ more)).system eventId sink ∨
      ∃ event, UnderWay down (run setup moves).system sink event ∧ event.eventId = eventId ∧
        Documents setup (run setup (moves ++ more)).system eventId event sink := by
  have faulted : down.dependency.value ∈ (run setup moves).faulted :=
    (mem_faulted_run setup moves _).mpr ⟨_, Sink.dependency_ne_worker down, rfl, simulated⟩
  have outage := outage_run setup moves faulted lasting
  refine ⟨fun consumer => ?_, ?_, outage.stored⟩
  · obtain ⟨given, added, owed⟩ := deletes_run setup moves faulted lasting consumer
    have mine := (List.sublist_append_left given _).trans owed
    exact ⟨given, added, mine.trans (Consumer.owed_sublist ..)⟩
  have few : (run setup moves).system.tasks.countP
      (Consumer.owes down (run setup moves).system.writes.length) ≤
        (run setup moves).system.tasks.countP Consumer.inHand :=
    List.countP_mono_left fun _ _ => Consumer.inHand_of_owes
  have bounded := outage.bounded
  omega

/-- MongoDB goes down while a consumer waits for its write. -/
def caughtWriting : List ConsoleMove :=
  [.fault .worker false, .work (.send (sampleEvent "a")), .work (.send (sampleEvent "b")),
    .work (.turn 0 none 1 1 1), .work (.heartbeat 0 1), .fault .mongodb true]

/-- The write lands and its event goes through; that of the next message never lands. -/
def outageGoesOn : List ConsoleMove :=
  [.work (.land 0), .work (.returned 0), .work (.land 1), .work (.returned 0), .work (.ack 0),
    .work (.heartbeat 0 2), .work (.land 2)]

theorem the_message_in_hand_goes_through_alone :
    (deletes 0 (run lonelySetup (caughtWriting ++ outageGoesOn)).system.past).length ≤ 1 ∧
      (run lonelySetup (caughtWriting ++ outageGoesOn)).system.processed ≤ 1 ∧
      (run lonelySetup (caughtWriting ++ outageGoesOn)).system.mongo.get? "b" = none := by
  obtain ⟨each, few, stores⟩ := an_outage_stores_nothing_new lonelySetup .mongodb caughtWriting outageGoesOn
    rfl (fun move member => by
      simp only [outageGoesOn, List.mem_cons, List.not_mem_nil, or_false] at member
      rcases member with rfl | rfl | rfl | rfl | rfl | rfl | rfl <;> simp [ConsoleMove.fault?])
  obtain ⟨given, added, mine⟩ := each 0
  have nothing : deletes 0 (run lonelySetup caughtWriting).system.past = [] := rfl
  refine ⟨?_, few, ?_⟩
  · rw [added, nothing, List.nil_append]
    exact mine.length_le
  have called : (run lonelySetup caughtWriting).system.writes = [⟨.mongodb, sampleEvent "a", false⟩] :=
    rfl
  rcases stores .mongodb (.inl rfl) "b" with same | ⟨event, way, named, -⟩
  · exact same
  · rcases way with waits | ⟨other, -⟩
    · rw [called] at waits
      cases List.mem_singleton.mp waits
      exact absurd named (by decide)
    · exact absurd rfl other

end Console

end FeathrEvents
