/-
Module: FeathrEvents.Proofs.QueueDeadLetters
Purpose: What reaches the dead-letter queue and the log: exactly the events whose entries a `receive`
  removed, in the order of their loans, each with the line that carries the whole event.
Trusted boundary: none
Main exports: deadLettered, Accounts, mem_deadLettered_iff, dlq_after, log_after, LettersFrom,
  letters_after
-/
import FeathrEvents.Proofs.QueueRepresentation

namespace FeathrEvents.InMemoryEventQueue

open Collections (OrderedDict BoundedDeque)
open Lease (Place)

/-- The messages on loan before a `receive` that have no entry after it, in the order of
`_inflight`. -/
def deadLettered (host : Host) (settings : QueueSettings) (queue : InMemoryEventQueue)
    (call : QueueCall) : List (String × Entry) :=
  match call with
  | .receive .. => queue.inflight.items.filterMap fun (_, messageId) =>
      match queue.entries.get? messageId,
        (queue.after host settings call).entries.get? messageId with
      | some entry, none => some (messageId, entry)
      | _, _ => none
  | _ => []

/-- The dead-letter queue after the events of some messages arrived in it, one after the other.  It
is a `deque` with a `maxlen`, which drops the oldest one when it is full. -/
def dlqWith (dlq : BoundedDeque Event dlqMaxlen) (arrivals : List (String × Entry)) :
    BoundedDeque Event dlqMaxlen :=
  arrivals.foldl (fun dlq arrival => dlq.append arrival.2.event) dlq

variable {host : Host} {settings : QueueSettings} {queue : InMemoryEventQueue}

/-! ### The sweep -/

/-- The message of a loan that has no deliveries left. -/
def exhausted (settings : QueueSettings) (queue : InMemoryEventQueue) (handle : String) :
    Option (String × Entry) :=
  (queue.inflight.get? handle).bind fun messageId =>
    (queue.entries.get? messageId).bind fun entry =>
      if settings.maxReceives ≤ entry.receiveCount then some (messageId, entry) else none

/-- The lines that the sweep adds carry the events that it buries, each with its number of
deliveries. -/
structure Reports (host : Host) (before after : List QueueLine) (arrivals : List (String × Entry)) :
    Prop where
  kept : ∃ lines, after = before ++ lines
  named : ∀ arrival ∈ arrivals, ∀ payload, host.modelDumpJson arrival.2.event = some payload →
    .deadLettering arrival.2.event.eventId arrival.2.receiveCount payload ∈ after

theorem Reports.refl (log : List QueueLine) : Reports host log log [] where
  kept := ⟨[], by simp⟩
  named := by simp

theorem Reports.trans {first second third : List QueueLine} {one two : List (String × Entry)}
    (earlier : Reports host first second one) (later : Reports host second third two) :
    Reports host first third (one ++ two) := by
  obtain ⟨⟨lines, rfl⟩, named⟩ := earlier
  obtain ⟨⟨more, rfl⟩, namedLater⟩ := later
  refine ⟨⟨lines ++ more, by simp⟩, fun arrival member payload dumped => ?_⟩
  rcases List.mem_append.mp member with old | new
  · exact List.mem_append_left _ (named arrival old payload dumped)
  · exact namedLater arrival new payload dumped

theorem reportFull_log (entry : Entry) (queue : InMemoryEventQueue) :
    ∃ lines, (queue.reportFull entry).log = queue.log ++ lines := by
  unfold reportFull
  split
  · exact ⟨[], by simp⟩
  · split
    · exact ⟨_, rfl⟩
    · exact ⟨[], by simp⟩

theorem sweepOne_buries (settings : QueueSettings) (serialises : host.Serialises)
    {handle messageId : String} {entry : Entry}
    (lent : queue.inflight.get? handle = some messageId)
    (stored : queue.entries.get? messageId = some entry) :
    (queue.sweepOne host settings handle).1 = .ok () ∧
      (queue.sweepOne host settings handle).2.dlq =
        dlqWith queue.dlq (exhausted settings queue handle).toList ∧
      Reports host queue.log (queue.sweepOne host settings handle).2.log
        (exhausted settings queue handle).toList := by
  have spent : exhausted settings queue handle =
      if settings.maxReceives ≤ entry.receiveCount then some (messageId, entry) else none := by
    simp [exhausted, lent, stored]
  rcases sweepOne_cases host settings lent stored with
    ⟨below, shape⟩ | ⟨atLimit, payload, dumped, shape⟩ | ⟨-, raises, -⟩
  · rw [spent, if_neg (by omega), shape]
    exact ⟨rfl, rfl, .refl _⟩
  · rw [spent, if_pos atLimit, shape]
    refine ⟨rfl, by simp [bury, dlqWith, release], ?_⟩
    obtain ⟨lines, logged⟩ := reportFull_log entry (queue.release handle messageId)
    refine ⟨⟨lines ++ [.deadLettering entry.event.eventId entry.receiveCount payload], ?_⟩, ?_⟩
    · simp only [bury, logged, List.append_assoc]
      rfl
    · intro arrival member other dumpedAgain
      simp only [Option.toList_some, List.mem_singleton] at member
      subst member
      rw [dumped] at dumpedAgain
      cases dumpedAgain
      simp [bury]
  · simpa [raises] using serialises entry.event

/-- A relation between a queue, the messages that a sweep of it buries and the queue that comes out.
It follows the turns of the loop, and the lending after the loop does not break it. -/
structure Accounts (host : Host) (settings : QueueSettings)
    (relation : InMemoryEventQueue → List (String × Entry) → InMemoryEventQueue → Prop) : Prop where
  refl : ∀ queue, relation queue [] queue
  trans : ∀ {first second third one two}, relation first one second → relation second two third →
    relation first (one ++ two) third
  sweepOne : ∀ {queue handle messageId entry}, queue.inflight.get? handle = some messageId →
    queue.entries.get? messageId = some entry →
    relation queue (exhausted settings queue handle).toList (queue.sweepOne host settings handle).2
  lend : ∀ {queue swept arrivals} deadline maxN, relation queue arrivals swept →
    relation queue arrivals (swept.lend host deadline maxN swept.visible 0).2

variable {relation : InMemoryEventQueue → List (String × Entry) → InMemoryEventQueue → Prop}

/-- The sweep of a list of loans buries the exhausted ones among them, in their order. -/
theorem Accounts.sweepLoop (accounts : Accounts host settings relation)
    (serialises : host.Serialises) (linked : Linked host queue)
    {handles : List String} (nodup : handles.Nodup)
    (live : ∀ handle ∈ handles, ∃ messageId, queue.inflight.get? handle = some messageId) :
    (queue.sweepLoop host settings handles).1 = .ok () ∧
      relation queue (handles.filterMap (exhausted settings queue))
        (queue.sweepLoop host settings handles).2 := by
  induction handles generalizing queue with
  | nil => exact ⟨rfl, accounts.refl queue⟩
  | cons handle handles ih =>
      rw [List.nodup_cons] at nodup
      obtain ⟨messageId, lent⟩ := live handle (by simp)
      obtain ⟨entry, stored, -⟩ := linked.inflightEntry handle messageId lent
      have linkedOne := linked_sweepOne settings linked lent
      have returned := (sweepOne_buries settings serialises lent stored).1
      have one := accounts.sweepOne lent stored
      obtain ⟨inflight, -, entries⟩ :=
        sweepOne_frame host settings lent stored
      simp only [InMemoryEventQueue.sweepLoop]
      generalize queue.sweepOne host settings handle = turn at *
      obtain ⟨result, next⟩ := turn
      dsimp only at *
      subst returned
      have other : ∀ later ∈ handles, later ≠ handle :=
        fun later member same => nodup.1 (same ▸ member)
      have liveNext : ∀ later ∈ handles, ∃ target, next.inflight.get? later = some target := by
        intro later member
        simpa [inflight, other later member] using live later (by simp [member])
      have same : handles.filterMap (exhausted settings next) =
          handles.filterMap (exhausted settings queue) := by
        refine List.filterMap_congr fun later member => ?_
        obtain ⟨target, lentLater⟩ := live later (by simp [member])
        have different : target ≠ messageId := fun equal =>
          other later member (linked.inflight_injective (equal ▸ lentLater) lent)
        simp [exhausted, inflight, other later member, lentLater, entries target different]
      obtain ⟨returnedAll, all⟩ := ih linkedOne nodup.2 liveNext
      rw [same] at all
      have split : (handle :: handles).filterMap (exhausted settings queue) =
          (exhausted settings queue handle).toList ++
            handles.filterMap (exhausted settings queue) := by
        cases shape : exhausted settings queue handle <;> simp [shape]
      rw [split]
      exact ⟨returnedAll, accounts.trans one all⟩

theorem lend_dlq_log (host : Host) (deadline : ℚ) (maxN : ℤ) (waiting : List String) (taken : ℕ)
    (queue : InMemoryEventQueue) :
    (queue.lend host deadline maxN waiting taken).2.dlq = queue.dlq ∧
      (queue.lend host deadline maxN waiting taken).2.log = queue.log := by
  induction waiting generalizing queue taken with
  | nil => exact ⟨rfl, rfl⟩
  | cons messageId waiting ih =>
      simp only [lend]
      split
      · simp only [ih]
        simp only [lendOne]
        split <;> simp
      · exact ⟨rfl, rfl⟩

/-! ### One call -/

/-- Where every dump succeeds, a `receive` returns and buries the exhausted ones among the due loans. -/
theorem Accounts.receive (accounts : Accounts host settings relation)
    (serialises : host.Serialises) (linked : Linked host queue) (maxN : ℤ)
    (visibilityTimeout : Option ℚ) (sweptAt now : ℚ) :
    let call := QueueCall.receive maxN visibilityTimeout sweptAt now
    (∃ messages, (queue.perform host settings call).1 = .ok messages) ∧
      relation queue (((queue.inflight.items.filter (due sweptAt queue.entries)).map
        Prod.fst).filterMap (exhausted settings queue)) (queue.after host settings call) := by
  intro call
  obtain ⟨handles, scanned, nodup, members⟩ := expired_eq linked sweptAt
  have shape := expired_items linked sweptAt
  rw [scanned] at shape
  cases shape
  obtain ⟨returned, follows⟩ := accounts.sweepLoop serialises linked nodup
    fun handle member => by
      obtain ⟨messageId, -, lent, -⟩ := (members handle).mp member
      exact ⟨messageId, lent⟩
  have sweeps : queue.sweep host settings sweptAt = queue.sweepLoop host settings
      ((queue.inflight.items.filter (due sweptAt queue.entries)).map Prod.fst) := by
    simp only [sweep, scanned]
  rcases receive_cases settings linked maxN visibilityTimeout sweptAt now with
    ⟨eventId, raised, -⟩ | ⟨swept, done, result⟩
  · simp [sweeps, returned] at raised
  · rw [sweeps] at done
    rw [done] at follows
    refine ⟨⟨_, by simp only [call, perform, result]; rfl⟩, ?_⟩
    simp only [call, after, perform, result]
    exact accounts.lend _ maxN follows

theorem buries_accounts (settings : QueueSettings) (serialises : host.Serialises) :
    Accounts host settings fun queue arrivals later =>
      later.dlq = dlqWith queue.dlq arrivals ∧ Reports host queue.log later.log arrivals where
  refl queue := ⟨rfl, .refl _⟩
  trans one two := by
    refine ⟨?_, one.2.trans two.2⟩
    rw [two.1, one.1, dlqWith, dlqWith, dlqWith, List.foldl_append]
  sweepOne lent stored := (sweepOne_buries settings serialises lent stored).2
  lend deadline maxN buries := by
    rw [(lend_dlq_log ..).1, (lend_dlq_log ..).2]
    exact buries

/-- Where every dump succeeds, a `receive` returns, buries the exhausted ones among the due loans and
reports them. -/
theorem receive_buries (settings : QueueSettings) (serialises : host.Serialises)
    (linked : Linked host queue) (maxN : ℤ)
    (visibilityTimeout : Option ℚ) (sweptAt now : ℚ) :
    let call := QueueCall.receive maxN visibilityTimeout sweptAt now
    let arrivals := ((queue.inflight.items.filter (due sweptAt queue.entries)).map
      Prod.fst).filterMap (exhausted settings queue)
    (∃ messages, (queue.perform host settings call).1 = .ok messages) ∧
      (queue.after host settings call).dlq = dlqWith queue.dlq arrivals ∧
      Reports host queue.log (queue.after host settings call).log arrivals :=
  (buries_accounts settings serialises).receive serialises linked maxN visibilityTimeout sweptAt now

/-- Where every dump succeeds, a message is dead-lettered exactly when its loan is due and has no
deliveries left. -/
theorem receive_removes_iff (settings : QueueSettings) (serialises : host.Serialises)
    (linked : Linked host queue)
    {handle messageId : String} {entry : Entry}
    (lent : queue.inflight.get? handle = some messageId)
    (stored : queue.entries.get? messageId = some entry) (maxN : ℤ)
    (visibilityTimeout : Option ℚ) (sweptAt now : ℚ) :
    (queue.after host settings (.receive maxN visibilityTimeout sweptAt now)).entries.get?
        messageId = none ↔
      entry.deadline ≤ sweptAt ∧ settings.maxReceives ≤ entry.receiveCount := by
  have held := linked.held_of_lent lent stored
  rw [absent_iff host]
  obtain ⟨result, between, sweep, lending⟩ :=
    receive_effect settings linked maxN visibilityTimeout sweptAt now messageId
  obtain ⟨⟨messages, returned⟩, -⟩ :=
    receive_buries settings serialises linked maxN visibilityTimeout sweptAt now
  rcases lending with ⟨eventId, -, raised, -⟩ | ⟨rfl, -, lends⟩
  · rw [returned] at raised
    cases raised
  generalize place host (queue.after host settings
    (.receive maxN visibilityTimeout sweptAt now)) messageId = later at lends ⊢
  generalize deliveredTo host settings queue _ messageId = delivered at lends
  cases sweep with
  | kept spared =>
      -- a loan that is not due is not lent either
      have notDue := spared rfl _ _ _ held
      rw [held] at lends
      cases lends with
      | kept => simpa using fun early => absurd early (not_le.mpr notDue)
      | retired unborn => cases unborn
      | lent _ _ _ waits => cases waits
  | ended other former heldFormer storedFormer past loanEnd placed =>
      rw [stored] at storedFormer
      cases storedFormer
      cases loanEnd with
      | waiting below =>
          have notOver : ¬ settings.maxReceives ≤ (entry.receiveCount : ℤ) := by omega
          cases lends with
          | kept => simp [notOver]
          | retired unborn => cases unborn
          | lent => simp [notOver]
      | gone atLimit =>
          cases lends with
          | kept => simp [past, atLimit]
          | retired unborn => cases unborn
          | lent _ _ _ waits => cases waits
      | stranded => exact absurd rfl (placed rfl _)

/-- The observed dead letters of a `receive` are the exhausted ones among its due loans. -/
theorem deadLettered_receive (serialises : host.Serialises) (linked : Linked host queue) (maxN : ℤ)
    (visibilityTimeout : Option ℚ) (sweptAt now : ℚ) :
    deadLettered host settings queue (.receive maxN visibilityTimeout sweptAt now) =
      ((queue.inflight.items.filter (due sweptAt queue.entries)).map Prod.fst).filterMap
        (exhausted settings queue) := by
  rw [List.filterMap_map, List.filterMap_filter]
  apply List.filterMap_congr
  rintro ⟨handle, messageId⟩ member
  have lent := OrderedDict.get?_eq_some.mpr member
  obtain ⟨entry, stored, -⟩ := linked.inflightEntry handle messageId lent
  have removed := receive_removes_iff settings serialises linked lent stored maxN
    visibilityTimeout sweptAt now
  simp only [stored, Function.comp_apply, exhausted, lent, Option.bind_some, due, Option.any_some]
  cases shape : (queue.after host settings
      (.receive maxN visibilityTimeout sweptAt now)).entries.get? messageId with
  | none => simp [removed.mp shape]
  | some later =>
      have kept : ¬ (entry.deadline ≤ sweptAt ∧ settings.maxReceives ≤ entry.receiveCount) := by
        rw [← removed, shape]
        simp
      by_cases past : entry.deadline ≤ sweptAt
      · have below : ¬ settings.maxReceives ≤ (entry.receiveCount : ℤ) := fun atLimit =>
          kept ⟨past, atLimit⟩
        simp [past, below]
      · simp [past]

theorem mem_deadLettered_iff (serialises : host.Serialises) (linked : Linked host queue)
    {messageId : String} {entry : Entry} {maxN : ℤ} {visibilityTimeout : Option ℚ}
    {sweptAt now : ℚ} :
    (messageId, entry) ∈
        deadLettered host settings queue (.receive maxN visibilityTimeout sweptAt now) ↔
      ∃ handle, queue.inflight.get? handle = some messageId ∧
        queue.entries.get? messageId = some entry ∧ entry.deadline ≤ sweptAt ∧
        settings.maxReceives ≤ entry.receiveCount := by
  rw [deadLettered_receive serialises linked]
  simp only [List.mem_filterMap, List.mem_map, List.mem_filter, due, Option.any_eq_true,
    decide_eq_true_eq, exhausted, Option.bind_eq_some_iff, Prod.exists, ← OrderedDict.get?_eq_some]
  constructor
  · rintro ⟨handle, ⟨_, owner, ⟨lent, former, stored, past⟩, rfl⟩, target, found, current, kept, atLimit⟩
    rw [lent] at found
    cases found
    rw [stored] at kept
    cases kept
    split at atLimit
    · cases atLimit
      exact ⟨_, lent, stored, past, ‹_›⟩
    · cases atLimit
  · rintro ⟨handle, lent, stored, past, atLimit⟩
    exact ⟨handle, ⟨handle, messageId, ⟨lent, entry, stored, past⟩, rfl⟩, messageId, lent, entry,
      stored, if_pos atLimit⟩

/-- Short of `clear`, only a `receive` touches the dead-letter queue. -/
theorem dlq_kept (host : Host) (settings : QueueSettings) (queue : InMemoryEventQueue)
    {call : QueueCall}
    (quiet : ∀ maxN visibilityTimeout sweptAt now, call ≠ .receive maxN visibilityTimeout sweptAt now)
    (port : call ≠ .clear) : (queue.after host settings call).dlq = queue.dlq := by
  cases call with
  | receive maxN visibilityTimeout sweptAt now => exact absurd rfl (quiet _ _ _ _)
  | clear => exact absurd rfl port
  | send event =>
      simp only [after, perform, send]
      split <;> rfl
  | delete handle =>
      simp only [after, perform, delete]
      split <;> rfl
  | changeVisibility handle seconds now =>
      simp only [after, perform, changeVisibility, setDeadline]
      repeat' split
      all_goals rfl
  | fail handle now =>
      simp only [after, perform, fail, setDeadline]
      repeat' split
      all_goals rfl

/-- A `receive` adds to the dead-letter queue the events that it removed from `_entries`; short of
`clear`, no other call changes it. -/
theorem dlq_after (serialises : host.Serialises) (linked : Linked host queue) (call : QueueCall)
    (port : call ≠ .clear) :
    (queue.after host settings call).dlq =
      dlqWith queue.dlq (deadLettered host settings queue call) := by
  cases call with
  | receive maxN visibilityTimeout sweptAt now =>
      rw [deadLettered_receive serialises linked]
      exact (receive_buries _ serialises linked maxN visibilityTimeout sweptAt now).2.1
  | _ => exact dlq_kept host settings queue (by simp) port

/-- The log only grows, and it has a line with the whole event for every dead letter. -/
theorem log_after (serialises : host.Serialises) (linked : Linked host queue) (call : QueueCall) :
    Reports host queue.log (queue.after host settings call).log
      (deadLettered host settings queue call) := by
  have quiet : ∀ other : List QueueLine, other = queue.log →
      Reports host queue.log other [] := by
    rintro _ rfl
    exact .refl _
  cases call with
  | receive maxN visibilityTimeout sweptAt now =>
      rw [deadLettered_receive serialises linked]
      exact (receive_buries _ serialises linked maxN visibilityTimeout sweptAt now).2.2
  | send event =>
      apply quiet _
      simp only [after, perform, send]
      split <;> rfl
  | delete handle =>
      apply quiet _
      simp only [after, perform, delete]
      split <;> rfl
  | changeVisibility handle seconds now =>
      apply quiet _
      rcases changeVisibility_cases linked handle seconds now with
        ⟨-, shape⟩ | ⟨messageId, entry, -, stored, -, shape⟩
      · simp [after, perform, shape]
      · simp [after, perform, shape, setDeadline, stored]
  | fail handle now =>
      apply quiet _
      rcases fail_cases settings linked handle now with
        ⟨-, shape⟩ | ⟨messageId, entry, -, stored, -, ⟨backoff, -, shape⟩ | ⟨-, shape⟩⟩
      · simp [after, perform, shape]
      · simp [after, perform, shape, setDeadline, stored]
      · simp [after, perform, shape]
  | clear => exact quiet _ rfl

/-! ### Dead letters were entries -/

/-- Every dead letter of `later` was one of `queue` already, or is the event of an entry of `queue`.
This holds across every call, also where a dump raises in the middle of a sweep. -/
def LettersFrom (queue later : InMemoryEventQueue) : Prop :=
  ∀ event ∈ later.dlq.items, event ∈ queue.dlq.items ∨
    ∃ messageId entry, queue.entries.get? messageId = some entry ∧ entry.event = event

theorem lettersFrom_of_eq {later : InMemoryEventQueue} (same : later.dlq = queue.dlq) :
    LettersFrom queue later :=
  fun _ listed => .inl (same ▸ listed)

theorem LettersFrom.trans {first second third : InMemoryEventQueue}
    (one : LettersFrom first second) (events : EventsFrom first second)
    (two : LettersFrom second third) : LettersFrom first third := by
  intro event listed
  rcases two event listed with older | ⟨messageId, entry, stored, rfl⟩
  · exact one event older
  · obtain ⟨former, found, same⟩ := events messageId entry stored
    exact .inr ⟨messageId, former, found, same⟩

theorem lettersFrom_sweepOne (host : Host) (settings : QueueSettings) (queue : InMemoryEventQueue)
    (handle : String) : LettersFrom queue (queue.sweepOne host settings handle).2 := by
  cases lent : queue.inflight.get? handle with
  | none =>
      simp only [sweepOne, lent]
      exact lettersFrom_of_eq rfl
  | some messageId =>
      cases stored : queue.entries.get? messageId with
      | none =>
          simp only [sweepOne, lent, stored]
          exact lettersFrom_of_eq rfl
      | some entry =>
          rcases sweepOne_cases host settings lent stored with
            ⟨-, shape⟩ | ⟨-, payload, -, shape⟩ | ⟨-, -, shape⟩
          · rw [shape]
            exact lettersFrom_of_eq rfl
          · rw [shape]
            intro event listed
            simp only [bury, reportFull_containers, BoundedDeque.items_append] at listed
            rcases List.mem_append.mp (List.mem_of_mem_drop listed) with older | new
            · exact .inl older
            · exact .inr ⟨messageId, entry, stored, (List.mem_singleton.mp new).symm⟩
          · rw [shape]
            exact lettersFrom_of_eq (by simp [release])

theorem lettersFrom_sweepLoop (host : Host) (settings : QueueSettings) (handles : List String)
    (queue : InMemoryEventQueue) : LettersFrom queue (queue.sweepLoop host settings handles).2 := by
  induction handles generalizing queue with
  | nil => exact lettersFrom_of_eq rfl
  | cons handle handles ih =>
      have one := lettersFrom_sweepOne host settings queue handle
      have events : EventsFrom queue (queue.sweepOne host settings handle).2 :=
        eventsFrom_sweepOne queue handle
      simp only [sweepLoop]
      generalize queue.sweepOne host settings handle = turn at *
      obtain ⟨result, next⟩ := turn
      cases result with
      | ok _ => exact one.trans events (ih next)
      | error exn => exact one

/-- What a call leaves in the dead-letter queue was there before, or lay in `_entries`. -/
theorem letters_after (linked : Linked host queue) (call : QueueCall) :
    LettersFrom queue (queue.after host settings call) := by
  cases call with
  | receive maxN visibilityTimeout sweptAt now =>
      have swept : LettersFrom queue (queue.sweep host settings sweptAt).2 := by
        simp only [sweep]
        split
        · exact lettersFrom_of_eq rfl
        · exact lettersFrom_sweepLoop host settings _ queue
      rcases receive_cases settings linked maxN visibilityTimeout sweptAt now with
        ⟨eventId, -, shape⟩ | ⟨next, returned, shape⟩
      · simpa only [after, perform, shape] using swept
      · simp only [after, perform, shape]
        rw [returned] at swept
        intro event listed
        rw [(lend_dlq_log ..).1] at listed
        exact swept event listed
  | clear =>
      intro event listed
      cases listed
  | _ => exact lettersFrom_of_eq (dlq_kept host settings queue (by simp) (by simp))

end FeathrEvents.InMemoryEventQueue
