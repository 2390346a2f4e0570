/-
Module: FeathrEvents.Proofs.QueueRepresentation
Purpose: The representation invariant of the queue, and the one thing that can break it: a sweep that
  raises half way, because the event it is about to dead-letter cannot be serialised.
Trusted boundary: none
Main exports: RepresentationInvariant, representation_of_run, Placed, placed_iff_dumps
-/
import FeathrEvents.Proofs.QueueRuns

namespace FeathrEvents.InMemoryEventQueue

open Collections (OrderedDict BoundedDeque)
open Lease (Place)

/-- Every entry is visible or on loan, and never both.  The three collections of the queue are kept
in step by every call, and a receipt handle names the loan that the entry itself knows of. -/
structure RepresentationInvariant (settings : QueueSettings)
    (queue : InMemoryEventQueue) : Prop where
  visibleNodup : queue.visible.Nodup
  keysCovered : ∀ messageId, messageId ∈ queue.entries.keys ↔
    messageId ∈ queue.visible ∨ messageId ∈ queue.inflight.values
  disjoint : ∀ messageId ∈ queue.visible, messageId ∉ queue.inflight.values
  inflightNodup : queue.inflight.values.Nodup
  liveHandle : ∀ handle messageId, queue.inflight.get? handle = some messageId ↔
    ∃ entry, queue.entries.get? messageId = some entry ∧ entry.handle = some handle
  visibleHandle : ∀ messageId ∈ queue.visible,
    ∃ entry, queue.entries.get? messageId = some entry ∧ entry.handle = none
  bounded : queue.entries.size ≤ settings.maxsize

/-- Every id in `_entries` is in `_visible` or is the value of a live handle, so that some later
`receive` can get to it. -/
def Placed (queue : InMemoryEventQueue) : Prop :=
  ∀ messageId ∈ queue.entries.keys,
    messageId ∈ queue.visible ∨ messageId ∈ queue.inflight.values

variable {host : Host} {settings : QueueSettings} {queue : InMemoryEventQueue}

theorem placed_iff (linked : Linked host queue) :
    Placed queue ↔ ∀ messageId count, place host queue messageId ≠ .stranded count := by
  constructor
  · intro placed messageId count strand
    obtain ⟨entry, stored, idle, -, hidden⟩ := place_eq_stranded.mp strand
    rcases placed messageId (OrderedDict.mem_keys.mpr ⟨entry, stored⟩) with visible | lent
    · exact hidden visible
    · obtain ⟨handle, lent⟩ := OrderedDict.mem_values.mp lent
      obtain ⟨other, found, live, -⟩ := linked.inflightEntry handle messageId lent
      rw [stored] at found
      cases found
      simp [idle] at live
  · intro free messageId member
    obtain ⟨entry, stored⟩ := OrderedDict.mem_keys.mp member
    cases live : entry.handle with
    | some handle =>
        exact .inr (OrderedDict.mem_values.mpr
          ⟨handle, linked.liveHandle messageId entry handle stored live⟩)
    | none =>
        left
        by_contra hidden
        exact free messageId _ (place_eq_stranded.mpr ⟨entry, stored, live, rfl, hidden⟩)

/-! ### The bound -/

theorem size_sweepOne_le (queue : InMemoryEventQueue) (handle : String) :
    (queue.sweepOne host settings handle).2.entries.size ≤ queue.entries.size := by
  unfold sweepOne
  split
  · exact Nat.le_refl _
  · split
    · exact Nat.le_refl _
    · split
      · split
        · simp [release]
        · simpa [bury, release] using OrderedDict.size_erase_le (queue.entries.modify _ _) _
      · simp [release]

theorem size_sweep_le (queue : InMemoryEventQueue) (now : ℚ) :
    (queue.sweep host settings now).2.entries.size ≤ queue.entries.size := by
  have loop : ∀ (handles : List String) (queue : InMemoryEventQueue),
      (queue.sweepLoop host settings handles).2.entries.size ≤ queue.entries.size := by
    intro handles
    induction handles with
    | nil => exact fun queue => Nat.le_refl _
    | cons handle handles ih =>
        intro queue
        have one : (queue.sweepOne host settings handle).2.entries.size ≤ queue.entries.size :=
          size_sweepOne_le queue handle
        simp only [sweepLoop]
        generalize queue.sweepOne host settings handle = turn at *
        obtain ⟨result, next⟩ := turn
        cases result with
        | ok _ => exact (ih next).trans one
        | error exn => exact one
  simp only [sweep]
  split
  · exact Nat.le_refl _
  · exact loop _ queue

theorem size_lend (deadline : ℚ) (maxN : ℤ) (waiting : List String) (taken : ℕ)
    (queue : InMemoryEventQueue) :
    (queue.lend host deadline maxN waiting taken).2.entries.size = queue.entries.size := by
  induction waiting generalizing queue taken with
  | nil => rfl
  | cons messageId waiting ih =>
      simp only [lend]
      split
      · rw [ih]
        simp only [lendOne]
        split <;> simp
      · rfl

theorem size_setDeadline (messageId : String) (deadline : ℚ) :
    (queue.setDeadline messageId deadline).2.entries.size = queue.entries.size := by
  unfold setDeadline
  split <;> simp

/-- No call takes the number of entries past the bound. -/
theorem size_after (linked : Linked host queue) (bounded : queue.entries.size ≤ settings.maxsize)
    (call : QueueCall) : (queue.after host settings call).entries.size ≤ settings.maxsize := by
  cases call with
  | send event =>
      rcases send_cases host settings queue event with
        ⟨-, same, -⟩ | ⟨room, shape⟩
      · simpa [after, perform, same] using bounded
      · have added := OrderedDict.items_set_of_get?_eq_none { event := event }
          (linked.entries_fresh (Nat.le_refl queue.minted))
        simpa [after, perform, shape, OrderedDict.size, added] using Nat.succ_le_of_lt room
  | receive maxN visibilityTimeout sweptAt now =>
      have swept : (queue.sweep host settings sweptAt).2.entries.size ≤ settings.maxsize :=
        (size_sweep_le queue sweptAt).trans bounded
      rcases receive_cases settings linked maxN visibilityTimeout sweptAt now with
        ⟨eventId, -, shape⟩ | ⟨next, returned, shape⟩
      · simpa [after, perform, shape] using swept
      · rw [returned] at swept
        simpa [after, perform, shape, size_lend] using swept
  | delete handle =>
      simp only [after, perform, delete]
      split
      · exact bounded
      · exact (OrderedDict.size_erase_le _ _).trans bounded
  | changeVisibility handle seconds now =>
      rcases changeVisibility_cases linked handle seconds now with
        ⟨-, shape⟩ | ⟨messageId, entry, -, -, -, shape⟩
      · simpa [after, perform, shape] using bounded
      · simpa [after, perform, shape, size_setDeadline] using bounded
  | fail handle now =>
      rcases fail_cases settings linked handle now with
        ⟨-, shape⟩ | ⟨messageId, entry, -, -, -, ⟨backoff, -, shape⟩ | ⟨-, shape⟩⟩
      · simpa [after, perform, shape] using bounded
      · simpa [after, perform, shape, size_setDeadline] using bounded
      · simpa [after, perform, shape] using bounded
  | clear => simp [after, perform, clear, OrderedDict.size, OrderedDict.empty]

theorem size_reached (calls : List QueueCall) :
    (reached host settings calls).entries.size ≤ settings.maxsize := by
  have initial : (create : InMemoryEventQueue).entries.size ≤ settings.maxsize := Nat.zero_le _
  have both := Machine.run_invariant (after host settings)
    (fun queue => Linked host queue ∧ queue.entries.size ≤ settings.maxsize) (fun _ => True)
    ⟨linked_create, initial⟩
    (fun _ call _ ⟨linked, bounded⟩ => ⟨linked_after linked call, size_after linked bounded call⟩)
    calls fun _ _ => trivial
  exact both.2

/-! ### Stranding -/

/-- The loans that a `receive` would dead-letter now all have an event that can be serialised.  The
ERROR line is written in the middle of the sweep, so an event that cannot be is left in neither
place. -/
def DumpsSucceed (host : Host) (settings : QueueSettings) (queue : InMemoryEventQueue)
    (sweptAt : ℚ) : Prop :=
  ∀ handle messageId entry, queue.inflight.get? handle = some messageId →
    queue.entries.get? messageId = some entry → entry.deadline ≤ sweptAt →
    settings.maxReceives ≤ entry.receiveCount → (host.modelDumpJson entry.event).isSome

theorem dumpsSucceed_of_serialises (serialises : host.Serialises) (sweptAt : ℚ) :
    DumpsSucceed host settings queue sweptAt :=
  fun _ _ entry _ _ _ _ => serialises entry.event

/-- A sweep that raises has stranded the message it was about to dead-letter. -/
theorem sweepLoop_raised (linked : Linked host queue) {handles : List String} {exn : Exn}
    (live : ∀ handle ∈ handles, ∃ messageId, queue.inflight.get? handle = some messageId)
    (nodup : handles.Nodup) (raised : (queue.sweepLoop host settings handles).1 = .error exn) :
    ∃ messageId count,
      place host (queue.sweepLoop host settings handles).2 messageId = .stranded count := by
  induction handles generalizing queue with
  | nil => cases raised
  | cons handle handles ih =>
      rw [List.nodup_cons] at nodup
      obtain ⟨messageId, lent⟩ := live handle (by simp)
      obtain ⟨entry, stored, -⟩ := linked.inflightEntry handle messageId lent
      have linkedOne := linked_sweepOne settings linked lent
      obtain ⟨here, -⟩ := sweepOne_place settings linked lent stored
      obtain ⟨inflight, -⟩ := sweepOne_frame host settings lent stored
      have outcome := sweepOne_cases host settings lent stored
      simp only [sweepLoop] at raised ⊢
      generalize queue.sweepOne host settings handle = turn at *
      obtain ⟨result, next⟩ := turn
      dsimp only at *
      cases result with
      | ok _ =>
          refine ih linkedOne (fun other member => ?_) nodup.2 raised
          have different : other ≠ handle := fun same => nodup.1 (same ▸ member)
          simpa [inflight, different] using live other (by simp [member])
      | error exn =>
          refine ⟨messageId, entry.receiveCount, ?_⟩
          rcases outcome with ⟨-, equal⟩ | ⟨-, payload, -, equal⟩ | ⟨exhausted, raises, -⟩
          · simp at equal
          · simp at equal
          · generalize place host next messageId = later at here ⊢
            cases here with
            | waiting below => omega
            | gone _ dumps => simp [raises] at dumps
            | stranded => rfl

/-- A `receive` strands a message exactly when one of the loans it has to dead-letter cannot be
serialised. -/
theorem receive_strands_iff (linked : Linked host queue)
    (free : ∀ messageId count, place host queue messageId ≠ .stranded count) (maxN : ℤ)
    (visibilityTimeout : Option ℚ) (sweptAt now : ℚ) :
    (∀ messageId count, place host
        (queue.after host settings (.receive maxN visibilityTimeout sweptAt now)) messageId ≠
          .stranded count) ↔
      DumpsSucceed host settings queue sweptAt := by
  constructor
  · intro unstranded handle messageId entry lent stored due exhausted
    have held := linked.held_of_lent lent stored
    rcases receive_cases settings linked maxN visibilityTimeout sweptAt now with
      ⟨eventId, raised, shape⟩ | ⟨swept, returned, -⟩
    · -- the sweep stopped at some stranded message, and nothing was lent afterwards
      obtain ⟨handles, scanned, nodup, members⟩ := expired_eq linked sweptAt
      simp only [sweep, scanned] at raised
      obtain ⟨lost, count, strand⟩ := sweepLoop_raised linked (fun other member => by
        obtain ⟨target, -, found, -⟩ := (members other).mp member
        exact ⟨target, found⟩) nodup raised
      exact absurd (by simpa [after, perform, shape, sweep, scanned] using strand)
        (unstranded lost count)
    · have fate := sweptTo settings linked sweptAt messageId
      rw [returned] at fate
      generalize place host (Except.ok (), swept).2 messageId = between at fate
      cases fate with
      | kept spared => exact absurd due (not_le.mpr (spared rfl _ _ _ held))
      | ended other former heldFormer storedFormer _ loanEnd placed =>
          rw [stored] at storedFormer
          cases storedFormer
          cases loanEnd with
          | waiting below => omega
          | gone _ dumps => exact dumps
          | stranded => exact absurd rfl (placed rfl _)
  · intro dumps messageId count strand
    obtain ⟨result, between, sweep, lending⟩ :=
      receive_effect settings linked maxN visibilityTimeout sweptAt now messageId
    have notStranded : ∀ count, between ≠ .stranded count := by
      intro count
      cases sweep with
      | kept => exact free messageId count
      | ended handle entry held stored due loanEnd =>
          cases loanEnd with
          | waiting | gone => simp
          | stranded exhausted raises =>
              have lent := linked.inflight_iff.mpr ⟨_, _, held⟩
              simpa [raises] using dumps handle messageId entry lent stored due exhausted
    rcases lending with ⟨-, -, -, same, -⟩ | ⟨-, -, lends⟩
    · exact notStranded count (same ▸ strand)
    · rw [strand] at lends
      generalize deliveredTo host settings queue _ messageId = messages at lends
      cases lends
      exact notStranded count rfl

/-- No other call strands a message. -/
theorem after_unstranded (linked : Linked host queue)
    (free : ∀ messageId count, place host queue messageId ≠ .stranded count) (call : QueueCall)
    (dumps : ∀ maxN visibilityTimeout sweptAt now,
      call = .receive maxN visibilityTimeout sweptAt now → DumpsSucceed host settings queue sweptAt)
    (messageId : String) (count : ℕ) :
    place host (queue.after host settings call) messageId ≠ .stranded count := by
  intro strand
  cases call with
  | receive maxN visibilityTimeout sweptAt now =>
      exact (receive_strands_iff linked free maxN visibilityTimeout sweptAt now).mpr
        (dumps _ _ _ _ rfl) messageId count strand
  | send event =>
      rcases send_effect settings linked event messageId with
        ⟨-, -, -, waits⟩ | same
      · simp [waits] at strand
      · exact free messageId count (same ▸ strand)
  | delete handle =>
      rcases delete_effect settings linked handle messageId with
        ⟨-, -, -, -, gone⟩ | ⟨-, same⟩
      · simp [gone] at strand
      · exact free messageId count (same ▸ strand)
  | changeVisibility handle seconds now =>
      rcases changeVisibility_effect settings linked handle seconds now messageId with
        ⟨_, _, _, _, moved⟩ | ⟨-, same⟩
      · simp [moved] at strand
      · exact free messageId count (same ▸ strand)
  | fail handle now =>
      rcases fail_effect settings linked handle now messageId with
        ⟨_, _, _, _, _, _, moved⟩ | ⟨-, -, -, -, -, same⟩ | ⟨-, same⟩
      · simp [moved] at strand
      · exact free messageId count (same ▸ strand)
      · exact free messageId count (same ▸ strand)
  | clear =>
      rcases clear_place linked messageId with ⟨-, unborn⟩ | ⟨-, gone⟩
      · simp [after, perform, unborn] at strand
      · simp [after, perform, gone] at strand

/-! ### Whole runs -/

/-- A run in which every dump of every sweep succeeds strands nothing. -/
theorem unstranded_of_dumps (calls : List QueueCall)
    (dumps : ∀ queue maxN visibilityTimeout sweptAt now,
      (queue, .receive maxN visibilityTimeout sweptAt now) ∈ history host settings calls →
        DumpsSucceed host settings queue sweptAt) (messageId : String) (count : ℕ) :
    place host (reached host settings calls) messageId ≠ .stranded count := by
  induction calls using List.reverseRecOn generalizing messageId count with
  | nil => simp [place_create]
  | append_singleton calls call ih =>
      simp only [history_snoc, List.mem_append, List.mem_singleton, Prod.mk.injEq] at dumps
      rw [reached_snoc]
      refine after_unstranded (linked_reached _ _ calls) (ih fun _ _ _ _ _ member => ?_) call ?_
        messageId count
      · exact dumps _ _ _ _ _ (.inl member)
      · rintro maxN visibilityTimeout sweptAt now rfl
        exact dumps _ _ _ _ _ (.inr ⟨rfl, rfl⟩)

/-- When events can be serialised, every entry is visible or on loan in every state reached, so
every accepted event can still be received or is settled. -/
theorem placed_reached (serialises : host.Serialises) (calls : List QueueCall) :
    Placed (reached host settings calls) := by
  apply (placed_iff (linked_reached host settings calls)).mpr
  apply unstranded_of_dumps
  intro _ _ _ _ _ _
  exact dumpsSucceed_of_serialises serialises _

/-- Every `receive` of a run leaves every entry visible or on loan if and only if no `receive` of it
comes to dead-letter an event that cannot be serialised. -/
theorem placed_iff_dumps (host : Host) (settings : QueueSettings) (calls : List QueueCall) :
    (∀ queue maxN visibilityTimeout sweptAt now,
      (queue, .receive maxN visibilityTimeout sweptAt now) ∈ history host settings calls →
        Placed (queue.after host settings (.receive maxN visibilityTimeout sweptAt now))) ↔
    ∀ queue maxN visibilityTimeout sweptAt now,
      (queue, .receive maxN visibilityTimeout sweptAt now) ∈ history host settings calls →
        DumpsSucceed host settings queue sweptAt := by
  have step : ∀ (before : List QueueCall) (maxN : ℤ) (visibilityTimeout : Option ℚ)
      (sweptAt now : ℚ),
      (∀ queue maxN visibilityTimeout sweptAt now,
        (queue, .receive maxN visibilityTimeout sweptAt now) ∈ history host settings before →
          DumpsSucceed host settings queue sweptAt) →
      (Placed ((reached host settings before).after host settings
          (.receive maxN visibilityTimeout sweptAt now)) ↔
        DumpsSucceed host settings (reached host settings before) sweptAt) := by
    intro before maxN visibilityTimeout sweptAt now dumps
    rw [placed_iff (linked_after (linked_reached _ _ before) _)]
    exact receive_strands_iff (linked_reached _ _ before) (unstranded_of_dumps before dumps) ..
  induction calls using List.reverseRecOn with
  | nil => simp
  | append_singleton calls call ih =>
      simp only [history_snoc, List.mem_append, List.mem_singleton, Prod.mk.injEq]
      constructor
      · intro placed
        have earlier := ih.mp fun _ _ _ _ _ member => placed _ _ _ _ _ (.inl member)
        rintro queue maxN visibilityTimeout sweptAt now (member | ⟨rfl, rfl⟩)
        · exact earlier _ _ _ _ _ member
        · exact (step calls _ visibilityTimeout _ now earlier).mp (placed _ _ _ _ _ (.inr ⟨rfl, rfl⟩))
      · intro dumps
        have earlier : ∀ queue maxN visibilityTimeout sweptAt now,
            (queue, .receive maxN visibilityTimeout sweptAt now) ∈ history host settings calls →
              DumpsSucceed host settings queue sweptAt :=
          fun _ _ _ _ _ member => dumps _ _ _ _ _ (.inl member)
        rintro queue maxN visibilityTimeout sweptAt now (member | ⟨rfl, rfl⟩)
        · exact ih.mpr earlier _ _ _ _ _ member
        · exact (step calls _ _ _ _ earlier).mpr (dumps _ _ _ _ _ (.inr ⟨rfl, rfl⟩))

/-- One loan of an event that cannot be dumped, swept at its deadline with no deliveries left, ends
up in neither place. -/
theorem placed_fails_when_the_dump_raises :
    ¬ ∀ (host : Host) (settings : QueueSettings) (calls : List QueueCall) (maxN : ℤ)
      (visibilityTimeout : Option ℚ) (sweptAt now : ℚ),
      Placed ((reached host settings calls).after host settings
        (.receive maxN visibilityTimeout sweptAt now)) := by
  intro always
  have lost := always (countingHost fun _ => none) { maxReceives := 1 }
    [.send (sampleEvent "deep"), .receive 1 none 0 0] 1 none 30 30 "1" (by decide +kernel)
  revert lost
  decide +kernel

/-- No lookup of `_entries` raises `KeyError`, under any call on any queue that keeps the links. -/
theorem perform_ne_keyError (linked : Linked host queue) (call : QueueCall) (key : String) :
    (queue.perform host settings call).1 ≠ .error (.keyError key) := by
  intro raised
  cases call with
  | send event =>
      rcases send_cases host settings queue event with
        ⟨-, -, text, shape⟩ | ⟨-, shape⟩ <;> simp [perform, shape, Except.map] at raised
  | receive maxN visibilityTimeout sweptAt now =>
      rcases receive_cases settings linked maxN visibilityTimeout sweptAt now with
        ⟨eventId, -, shape⟩ | ⟨swept, -, shape⟩ <;> simp [perform, shape] at raised
  | delete handle =>
      simp only [perform, delete] at raised
      split at raised <;> simp [Except.map, invalidHandle] at raised
  | changeVisibility handle seconds now =>
      rcases changeVisibility_cases linked handle seconds now with
        ⟨-, shape⟩ | ⟨messageId, entry, -, stored, -, shape⟩
      · simp [perform, shape, Except.map, invalidHandle] at raised
      · simp [perform, shape, setDeadline, stored, Except.map] at raised
  | fail handle now =>
      rcases fail_cases settings linked handle now with
        ⟨-, shape⟩ | ⟨messageId, entry, -, stored, -, ⟨backoff, -, shape⟩ | ⟨-, shape⟩⟩
      · simp [perform, shape, Except.map, invalidHandle] at raised
      · simp [perform, shape, setDeadline, stored, Except.map] at raised
      · simp [perform, shape, Except.map] at raised
  | clear => simp [perform] at raised

theorem representation_of_links (linked : Linked host queue) (placed : Placed queue)
    (bounded : queue.entries.size ≤ settings.maxsize) :
    RepresentationInvariant settings queue where
  visibleNodup := linked.visibleNodup
  keysCovered messageId := by
    refine ⟨placed messageId, ?_⟩
    rintro (visible | lent)
    · obtain ⟨entry, stored, -⟩ := linked.visibleEntry messageId visible
      exact OrderedDict.mem_keys.mpr ⟨entry, stored⟩
    · obtain ⟨handle, lent⟩ := OrderedDict.mem_values.mp lent
      obtain ⟨entry, stored, -⟩ := linked.inflightEntry handle messageId lent
      exact OrderedDict.mem_keys.mpr ⟨entry, stored⟩
  disjoint messageId visible lent := by
    obtain ⟨handle, lent⟩ := OrderedDict.mem_values.mp lent
    exact linked.not_visible lent visible
  inflightNodup := OrderedDict.values_nodup fun _ _ _ one two => linked.inflight_injective one two
  liveHandle handle messageId := by
    constructor
    · intro lent
      obtain ⟨entry, stored, live, -⟩ := linked.inflightEntry handle messageId lent
      exact ⟨entry, stored, live⟩
    · rintro ⟨entry, stored, live⟩
      exact linked.liveHandle messageId entry handle stored live
  visibleHandle := linked.visibleEntry
  bounded := bounded

/-- The representation invariant holds after every run, whatever the arguments and the clock; the
lookups of `_entries` never fail and no id is found deleted while queued. -/
theorem representation_of_run (host : Host) (settings : QueueSettings)
    (serialises : host.Serialises) (calls : List QueueCall) :
    RepresentationInvariant settings (reached host settings calls) ∧
      (∀ call key,
        ((reached host settings calls).perform host settings call).1 ≠ .error (.keyError key)) ∧
      ∀ sweptAt swept, (reached host settings calls).sweep host settings sweptAt = (.ok (), swept) →
        ∀ deadline maxN, ∀ turn ∈ (swept.lend host deadline maxN swept.visible 0).1,
          ∃ messageId message, turn = .lent messageId message := by
  have linked := linked_reached host settings calls
  refine ⟨representation_of_links linked (placed_reached serialises calls) (size_reached calls),
    perform_ne_keyError linked, ?_⟩
  intro sweptAt swept returned deadline maxN turn member
  have sweptLinks := (sweep_place settings linked sweptAt).1
  rw [returned] at sweptLinks
  obtain ⟨-, -, -, listed, -⟩ := lend_place sweptLinks deadline maxN rfl 0
  obtain ⟨messageId, message, shape, -⟩ := listed turn member
  exact ⟨messageId, message, shape⟩

theorem representation_of_a_redelivery :
    RepresentationInvariant {} (reached (countingHost fun event => some event.eventId) {}
      [.send (sampleEvent "a"), .send (sampleEvent "b"), .receive 1 none 0 0, .delete "stale",
        .receive 2 none 30 30]) :=
  (representation_of_run _ {} (fun _ => rfl) _).1

end FeathrEvents.InMemoryEventQueue
