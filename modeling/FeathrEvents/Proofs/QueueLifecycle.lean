/-
Module: FeathrEvents.Proofs.QueueLifecycle
Purpose: The queue seen from one message: where the message is, and what one sweep and one round of
  lending do to that place.
Trusted boundary: none
Main exports: place, place_eq_held, Linked.inflight_iff, LoanEnd, sweep_place, Lent, lend_place
-/
import FeathrEvents.Lib.Lease
import FeathrEvents.Proofs.QueueLinks

namespace FeathrEvents.InMemoryEventQueue

open Collections (OrderedDict BoundedDeque)
open Lease (Place)

/-- The name is one that `uuid4` has already returned. -/
def Drawn (host : Host) (queue : InMemoryEventQueue) (name : String) : Prop :=
  ∃ index < queue.minted, host.uuid4 index = name

instance (host : Host) (queue : InMemoryEventQueue) (name : String) :
    Decidable (Drawn host queue name) :=
  inferInstanceAs (Decidable (∃ index < queue.minted, host.uuid4 index = name))

/-- Where a message is, read off the containers.  A name that uuid4 has already returned and that
is no entry will never be one. -/
def place (host : Host) (queue : InMemoryEventQueue) (messageId : String) : Place String ℚ :=
  match queue.entries.get? messageId with
  | some entry =>
      match entry.handle with
      | some handle => .held entry.receiveCount handle entry.deadline
      | none =>
          if messageId ∈ queue.visible then .waiting entry.receiveCount
          else .stranded entry.receiveCount
  | none =>
      if Drawn host queue messageId then .gone else .unborn

variable {host : Host} {settings : QueueSettings} {queue : InMemoryEventQueue}

theorem place_congr {other : InMemoryEventQueue} {messageId : String}
    (entries : other.entries.get? messageId = queue.entries.get? messageId)
    (visible : messageId ∈ other.visible ↔ messageId ∈ queue.visible)
    (drawn : Drawn host other messageId ↔ Drawn host queue messageId) :
    place host other messageId = place host queue messageId := by
  simp only [place, entries, visible, drawn]

/-- Drawing one more value adds its name to the drawn ones. -/
theorem drawn_next (queue : InMemoryEventQueue) {other : InMemoryEventQueue}
    (minted : other.minted = queue.minted + 1) (name : String) :
    Drawn host other name ↔ Drawn host queue name ∨ name = host.uuid4 queue.minted := by
  constructor
  · rintro ⟨index, drawn, named⟩
    rw [minted] at drawn
    rcases Nat.lt_succ_iff_lt_or_eq.mp drawn with earlier | rfl
    · exact .inl ⟨index, earlier, named⟩
    · exact .inr named.symm
  · rintro (⟨index, drawn, named⟩ | rfl)
    · exact ⟨index, by omega, named⟩
    · exact ⟨queue.minted, by omega, rfl⟩

theorem not_drawn (index : ℕ) (later : queue.minted ≤ index) :
    ¬ Drawn host queue (host.uuid4 index) := by
  rintro ⟨earlier, drawn, same⟩
  have := host.fresh same
  omega

theorem place_create (messageId : String) : place host create messageId = .unborn := by
  simp [place, create, Drawn]

/-- A message is held exactly when a live handle is written in its entry. -/
theorem place_eq_held {messageId handle : String} {count : ℕ} {deadline : ℚ} :
    place host queue messageId = .held count handle deadline ↔
      ∃ entry, queue.entries.get? messageId = some entry ∧ entry.handle = some handle ∧
        entry.receiveCount = count ∧ entry.deadline = deadline := by
  unfold place
  constructor <;> grind

theorem place_eq_waiting {messageId : String} {count : ℕ} :
    place host queue messageId = .waiting count ↔
      ∃ entry, queue.entries.get? messageId = some entry ∧ entry.handle = none ∧
        entry.receiveCount = count ∧ messageId ∈ queue.visible := by
  unfold place
  constructor <;> grind

theorem place_eq_stranded {messageId : String} {count : ℕ} :
    place host queue messageId = .stranded count ↔
      ∃ entry, queue.entries.get? messageId = some entry ∧ entry.handle = none ∧
        entry.receiveCount = count ∧ messageId ∉ queue.visible := by
  unfold place
  constructor <;> grind

theorem place_eq_gone {messageId : String} :
    place host queue messageId = .gone ↔
      queue.entries.get? messageId = none ∧ Drawn host queue messageId := by
  unfold place
  constructor <;> grind

theorem place_eq_unborn {messageId : String} :
    place host queue messageId = .unborn ↔
      queue.entries.get? messageId = none ∧ ¬ Drawn host queue messageId := by
  unfold place
  constructor <;> grind

/-- Under the links, a live handle and a held place are the same thing. -/
theorem Linked.inflight_iff (linked : Linked host queue) {handle messageId : String} :
    queue.inflight.get? handle = some messageId ↔
      ∃ count deadline, place host queue messageId = .held count handle deadline := by
  constructor
  · intro lent
    obtain ⟨entry, stored, live, -⟩ := linked.inflightEntry handle messageId lent
    exact ⟨_, _, place_eq_held.mpr ⟨entry, stored, live, rfl, rfl⟩⟩
  · rintro ⟨count, deadline, held⟩
    obtain ⟨entry, stored, live, -⟩ := place_eq_held.mp held
    exact linked.liveHandle messageId entry handle stored live

/-- The message under a live handle is held under it, as its entry says. -/
theorem Linked.held_of_lent (linked : Linked host queue) {handle messageId : String} {entry : Entry}
    (lent : queue.inflight.get? handle = some messageId)
    (stored : queue.entries.get? messageId = some entry) :
    place host queue messageId = .held entry.receiveCount handle entry.deadline := by
  obtain ⟨current, found, live, -⟩ := linked.inflightEntry handle messageId lent
  rw [stored] at found
  cases found
  exact place_eq_held.mpr ⟨entry, stored, live, rfl, rfl⟩

/-! ### One turn of the sweep -/

/-- The three ways in which one turn of the sweep loop ends. -/
theorem sweepOne_cases (host : Host) (settings : QueueSettings) {handle messageId : String}
    {entry : Entry}
    (lent : queue.inflight.get? handle = some messageId)
    (stored : queue.entries.get? messageId = some entry) :
    ((entry.receiveCount : ℤ) < settings.maxReceives ∧
      queue.sweepOne host settings handle =
        (.ok (), { queue.release handle messageId with
          visible := queue.visible ++ [messageId] })) ∨
    (settings.maxReceives ≤ entry.receiveCount ∧ ∃ payload,
      host.modelDumpJson entry.event = some payload ∧
      queue.sweepOne host settings handle =
        (.ok (), ((queue.release handle messageId).reportFull entry).bury
          messageId entry payload)) ∨
    (settings.maxReceives ≤ entry.receiveCount ∧ host.modelDumpJson entry.event = none ∧
      queue.sweepOne host settings handle =
        (.error (.serializationError entry.event.eventId),
          (queue.release handle messageId).reportFull entry)) := by
  simp only [sweepOne, lent, stored]
  by_cases exhausted : settings.maxReceives ≤ entry.receiveCount
  · right
    cases dumped : host.modelDumpJson entry.event with
    | none => simp [exhausted]
    | some payload => simp [exhausted]
  · left
    exact ⟨by omega, by simp [exhausted, release]⟩

/-- How the sweep leaves the message of an expired loan. -/
inductive LoanEnd (host : Host) (settings : QueueSettings) (entry : Entry) :
    Place String ℚ → Prop where
  | waiting (below : (entry.receiveCount : ℤ) < settings.maxReceives) :
      LoanEnd host settings entry (.waiting entry.receiveCount)
  | gone (exhausted : settings.maxReceives ≤ entry.receiveCount)
      (dumps : (host.modelDumpJson entry.event).isSome) : LoanEnd host settings entry .gone
  | stranded (exhausted : settings.maxReceives ≤ entry.receiveCount)
      (raises : host.modelDumpJson entry.event = none) :
      LoanEnd host settings entry (.stranded entry.receiveCount)

/-- One turn of the sweep ends the loan of its message and leaves every other message alone. -/
theorem sweepOne_place (settings : QueueSettings) (linked : Linked host queue)
    {handle messageId : String} {entry : Entry}
    (lent : queue.inflight.get? handle = some messageId)
    (stored : queue.entries.get? messageId = some entry) :
    LoanEnd host settings entry
        (place host (queue.sweepOne host settings handle).2 messageId) ∧
      ∀ other, other ≠ messageId →
        place host (queue.sweepOne host settings handle).2 other = place host queue other := by
  obtain ⟨released, unplaced⟩ := linked_release linked lent
  have hidden := linked.not_visible lent
  rcases sweepOne_cases host settings lent stored with
    ⟨below, shape⟩ | ⟨exhausted, payload, dumped, shape⟩ | ⟨exhausted, raises, shape⟩
  · rw [shape]
    constructor
    · have waits : place host { queue.release handle messageId with
          visible := queue.visible ++ [messageId] } messageId = .waiting entry.receiveCount :=
        place_eq_waiting.mpr ⟨{ entry with handle := none }, by simp [release, stored]⟩
      exact waits ▸ .waiting below
    · intro other different
      exact place_congr (by simp [release, different]) (by simp [different]) Iff.rfl
  · rw [shape]
    constructor
    · have drawn := linked.idMinted messageId entry stored
      have gone : place host (((queue.release handle messageId).reportFull entry).bury
          messageId entry payload) messageId = .gone :=
        place_eq_gone.mpr ⟨by simp [bury], by simpa [Drawn, bury, release] using drawn⟩
      exact gone ▸ .gone exhausted (by simp [dumped])
    · intro other different
      exact place_congr (by simp [bury, different, release]) (by simp [bury, release])
        (by simp [Drawn, bury, release])
  · rw [shape]
    constructor
    · have strands : place host ((queue.release handle messageId).reportFull entry) messageId =
          .stranded entry.receiveCount :=
        place_eq_stranded.mpr ⟨{ entry with handle := none },
          by simp [release, stored, hidden]⟩
      exact strands ▸ .stranded exhausted raises
    · intro other different
      exact place_congr (by simp [release, different]) (by simp [release])
        (by simp [Drawn, release])

theorem sweepOne_frame (host : Host) (settings : QueueSettings) {handle messageId : String}
    {entry : Entry}
    (lent : queue.inflight.get? handle = some messageId)
    (stored : queue.entries.get? messageId = some entry) :
    (queue.sweepOne host settings handle).2.inflight = queue.inflight.erase handle ∧
      (queue.sweepOne host settings handle).2.minted = queue.minted ∧
      ∀ other, other ≠ messageId →
        (queue.sweepOne host settings handle).2.entries.get? other =
          queue.entries.get? other := by
  rcases sweepOne_cases host settings lent stored with
    ⟨below, shape⟩ | ⟨exhausted, payload, dumped, shape⟩ | ⟨exhausted, raises, shape⟩ <;>
  · rw [shape]
    refine ⟨by simp [release, bury], by simp [release, bury], ?_⟩
    intro other different
    simp [release, bury, different]

/-! ### The whole sweep -/

/-- What a sweep does to one message: either nothing, or it ends the loan of that message.  A sweep
that returns has ended every loan on its list. -/
inductive Swept (host : Host) (settings : QueueSettings) (queue : InMemoryEventQueue)
    (handles : List String) (result : Except Exn Unit) (messageId : String) :
    Place String ℚ → Prop where
  | kept (spared : result = .ok () → ∀ handle ∈ handles,
        queue.inflight.get? handle ≠ some messageId) :
      Swept host settings queue handles result messageId (place host queue messageId)
  | ended {later : Place String ℚ} (handle : String) (entry : Entry) (listed : handle ∈ handles)
      (lent : queue.inflight.get? handle = some messageId)
      (stored : queue.entries.get? messageId = some entry)
      (loanEnd : LoanEnd host settings entry later)
      (returned : result = .ok () → ∀ count, later ≠ .stranded count) :
      Swept host settings queue handles result messageId later

/-- The only exception a sweep can raise is pydantic's. -/
def SweepResult (result : Except Exn Unit) : Prop :=
  result = .ok () ∨ ∃ eventId, result = .error (.serializationError eventId)

/-- What the rest of a sweep does to a message, after a turn that ended the loan under `handle`, is what
the sweep does to it. -/
theorem Swept.next (linked : Linked host queue) {handle messageId other : String}
    {handles : List String} {entry : Entry} {next : InMemoryEventQueue} {result : Except Exn Unit}
    {later : Place String ℚ} (unlisted : handle ∉ handles)
    (lent : queue.inflight.get? handle = some messageId)
    (stored : queue.entries.get? messageId = some entry)
    (inflight : next.inflight = queue.inflight.erase handle)
    (entries : ∀ other, other ≠ messageId → next.entries.get? other = queue.entries.get? other)
    (here : LoanEnd host settings entry (place host next messageId))
    (placed : ∀ count, place host next messageId ≠ .stranded count)
    (elsewhere : ∀ other, other ≠ messageId → place host next other = place host queue other)
    (fate : Swept host settings next handles result other later) :
    Swept host settings queue (handle :: handles) result other later := by
  by_cases same : other = messageId
  · subst same
    cases fate with
    | kept => exact .ended handle entry (by simp) lent stored here fun _ => placed
    | ended again _ _ lentAgain =>
        -- the loan of this message ended a turn ago
        rw [inflight, OrderedDict.get?_erase] at lentAgain
        split at lentAgain
        · cases lentAgain
        · rename_i different
          exact absurd (linked.inflight_injective lentAgain lent) different
  · cases fate with
    | kept spared =>
        rw [elsewhere other same]
        refine .kept fun returned listed member => ?_
        rcases List.mem_cons.mp member with rfl | member
        · rw [lent]
          exact fun equal => same (Option.some.inj equal).symm
        · have different : listed ≠ handle := fun equal => unlisted (equal ▸ member)
          simpa [inflight, different] using spared returned listed member
    | ended listed current member lentNext storedNext loanEnd returned =>
        have different : listed ≠ handle := fun equal => unlisted (equal ▸ member)
        rw [entries other same] at storedNext
        rw [inflight, OrderedDict.get?_erase, if_neg different] at lentNext
        exact .ended listed current (by simp [member]) lentNext storedNext loanEnd returned

theorem sweepLoop_place (settings : QueueSettings) (linked : Linked host queue)
    {handles : List String}
    (nodup : handles.Nodup)
    (live : ∀ handle ∈ handles, ∃ messageId, queue.inflight.get? handle = some messageId) :
    Linked host (queue.sweepLoop host settings handles).2 ∧
      (queue.sweepLoop host settings handles).2.minted = queue.minted ∧
      SweepResult (queue.sweepLoop host settings handles).1 ∧
      ∀ messageId, Swept host settings queue handles (queue.sweepLoop host settings handles).1
        messageId (place host (queue.sweepLoop host settings handles).2 messageId) := by
  induction handles generalizing queue with
  | nil => exact ⟨linked, rfl, .inl rfl, fun _ => .kept (by simp)⟩
  | cons handle handles ih =>
      rw [List.nodup_cons] at nodup
      obtain ⟨messageId, lent⟩ := live handle (by simp)
      obtain ⟨entry, stored, -⟩ := linked.inflightEntry handle messageId lent
      have linkedOne := linked_sweepOne settings linked lent
      have ⟨here, elsewhere⟩ := sweepOne_place settings linked lent stored
      have ⟨inflight, minted, entries⟩ :=
        sweepOne_frame host settings lent stored
      have outcome := sweepOne_cases host settings lent stored
      simp only [sweepLoop]
      generalize shape : queue.sweepOne host settings handle = turn at *
      obtain ⟨result, next⟩ := turn
      dsimp only at *
      cases result with
      | error exn =>
          refine ⟨linkedOne, minted, ?_, ?_⟩
          · rcases outcome with ⟨-, equal⟩ | ⟨-, payload, -, equal⟩ | ⟨-, -, equal⟩
            · simp at equal
            · simp at equal
            · exact .inr ⟨entry.event.eventId, by simpa using congrArg Prod.fst equal⟩
          · intro other
            by_cases same : other = messageId
            · subst same
              exact .ended handle entry (by simp) lent stored here (by simp)
            · rw [elsewhere other same]
              exact .kept (by simp)
      | ok _ =>
          have notStranded : ∀ count, place host next messageId ≠ .stranded count := by
            intro count strand
            rw [strand] at here
            cases here with
            | stranded exhausted raises =>
                rcases outcome with ⟨below, -⟩ | ⟨-, payload, dumped, -⟩ | ⟨-, -, equal⟩
                · omega
                · simp [raises] at dumped
                · simp at equal
          have liveNext : ∀ other ∈ handles, ∃ target, next.inflight.get? other = some target := by
            intro other member
            have different : other ≠ handle := fun same => nodup.1 (same ▸ member)
            simpa [inflight, different] using live other (by simp [member])
          obtain ⟨linkedAll, mintedAll, resultAll, fates⟩ := ih linkedOne nodup.2 liveNext
          refine ⟨linkedAll, mintedAll.trans minted, resultAll, fun other => ?_⟩
          exact (fates other).next linked nodup.1 lent stored inflight entries here notStranded
            elsewhere

/-- The loan under `item` has a deadline at or before `now`. -/
def due (now : ℚ) (entries : OrderedDict String Entry) (item : String × String) : Bool :=
  (entries.get? item.2).any fun entry => entry.deadline ≤ now

private theorem expired_scan (now : ℚ) (entries : OrderedDict String Entry)
    (items : List (String × String))
    (known : ∀ item ∈ items, ∃ entry, entries.get? item.2 = some entry) :
    expired now entries items = .ok ((items.filter (due now entries)).map Prod.fst) := by
  induction items with
  | nil => rfl
  | cons item items ih =>
      obtain ⟨handle, messageId⟩ := item
      have scanned := ih fun other member => known other (by simp [member])
      obtain ⟨entry, stored⟩ := known (handle, messageId) (by simp)
      dsimp only at stored
      simp only [expired, stored, scanned, bind, Except.bind, List.filter_cons, due, Option.any_some,
        decide_eq_true_eq]
      split <;> rfl

/-- The list that the sweep works through. -/
theorem expired_items (linked : Linked host queue) (now : ℚ) :
    expired now queue.entries queue.inflight.items =
      .ok ((queue.inflight.items.filter (due now queue.entries)).map Prod.fst) := by
  apply expired_scan now queue.entries queue.inflight.items
  rintro ⟨handle, messageId⟩ member
  obtain ⟨entry, stored, -⟩ :=
    linked.inflightEntry handle messageId (OrderedDict.get?_eq_some.mpr member)
  exact ⟨entry, stored⟩

/-- The expired loans are the live handles whose entry has a deadline at or before the reading. -/
theorem expired_eq (linked : Linked host queue) (now : ℚ) :
    ∃ handles, expired now queue.entries queue.inflight.items = .ok handles ∧ handles.Nodup ∧
      ∀ handle, handle ∈ handles ↔ ∃ messageId entry,
        queue.inflight.get? handle = some messageId ∧
        queue.entries.get? messageId = some entry ∧ entry.deadline ≤ now := by
  refine ⟨_, expired_items linked now, ?_, fun handle => ?_⟩
  · exact queue.inflight.distinct.sublist (List.filter_sublist.map Prod.fst)
  · simp only [List.mem_map, List.mem_filter, due, Option.any_eq_true, decide_eq_true_eq,
      Prod.exists, OrderedDict.get?_eq_some]
    grind

/-- A sweep at `now` either leaves a message where it is, which a sweep that returns does only when
no loan of it is due, or it ends its loan, which must be due. -/
theorem sweep_place (settings : QueueSettings) (linked : Linked host queue) (now : ℚ) :
    Linked host (queue.sweep host settings now).2 ∧
      (queue.sweep host settings now).2.minted = queue.minted ∧
      SweepResult (queue.sweep host settings now).1 ∧
      ∀ messageId,
        (place host (queue.sweep host settings now).2 messageId = place host queue messageId ∧
          ((queue.sweep host settings now).1 = .ok () → ∀ count handle deadline,
            place host queue messageId = .held count handle deadline → now < deadline)) ∨
        ∃ handle entry, queue.inflight.get? handle = some messageId ∧
          queue.entries.get? messageId = some entry ∧ entry.deadline ≤ now ∧
          LoanEnd host settings entry
            (place host (queue.sweep host settings now).2 messageId) ∧
          ((queue.sweep host settings now).1 = .ok () → ∀ count,
            place host (queue.sweep host settings now).2 messageId ≠ .stranded count) := by
  obtain ⟨handles, scanned, nodup, due⟩ := expired_eq linked now
  have live : ∀ handle ∈ handles, ∃ messageId, queue.inflight.get? handle = some messageId := by
    intro handle member
    obtain ⟨messageId, -, lent, -⟩ := (due handle).mp member
    exact ⟨messageId, lent⟩
  simp only [sweep, scanned]
  obtain ⟨linkedAll, minted, result, fates⟩ :=
    sweepLoop_place settings linked nodup live
  refine ⟨linkedAll, minted, result, fun messageId => ?_⟩
  have fate := fates messageId
  generalize place host (sweepLoop host settings handles queue).2 messageId = later at fate ⊢
  cases fate with
  | kept spared =>
      refine .inl ⟨rfl, fun returned count handle deadline held => ?_⟩
      by_contra notLater
      obtain ⟨entry, stored, live, -, rfl⟩ := place_eq_held.mp held
      have lent := linked.liveHandle messageId entry handle stored live
      have listed := (due handle).mpr ⟨messageId, entry, lent, stored, not_lt.mp notLater⟩
      exact spared returned handle listed lent
  | ended handle entry listed lent stored loanEnd returned =>
      obtain ⟨target, current, lentTarget, storedTarget, past⟩ := (due handle).mp listed
      rw [lent] at lentTarget
      cases lentTarget
      rw [stored] at storedTarget
      cases storedTarget
      exact .inr ⟨handle, entry, lent, stored, past, loanEnd, returned⟩

/-! ### Lending -/

theorem lendOne_place (linked : Linked host queue) {messageId : String} {waiting : List String}
    (shape : queue.visible = messageId :: waiting) (deadline : ℚ) :
    ∃ entry, queue.entries.get? messageId = some entry ∧ entry.handle = none ∧
      (lendOne host deadline messageId { queue with visible := waiting }).1 =
        .lent messageId ⟨entry.event, host.uuid4 queue.minted, entry.receiveCount + 1⟩ ∧
      place host (lendOne host deadline messageId { queue with visible := waiting }).2 messageId =
        .held (entry.receiveCount + 1) (host.uuid4 queue.minted) deadline ∧
      ∀ other, other ≠ messageId →
        place host (lendOne host deadline messageId { queue with visible := waiting }).2 other =
            place host queue other ∨
          (place host queue other = .unborn ∧
            place host (lendOne host deadline messageId { queue with visible := waiting }).2
              other = .gone) := by
  obtain ⟨entry, stored, idle⟩ := linked.visibleEntry messageId (by simp [shape])
  refine ⟨entry, stored, idle, by simp [lendOne, stored], ?_, ?_⟩
  · exact place_eq_held.mpr ⟨_, by simp [lendOne, stored]; rfl, by simp⟩
  · intro other different
    by_cases new : other = host.uuid4 queue.minted
    · right
      have absent := linked.entries_fresh (Nat.le_refl queue.minted)
      subst new
      constructor
      · exact place_eq_unborn.mpr ⟨absent, not_drawn _ (Nat.le_refl _)⟩
      · refine place_eq_gone.mpr ⟨by simp [lendOne, stored, different, absent], ?_⟩
        exact (drawn_next queue (by simp [lendOne, stored]) _).mpr (.inr rfl)
    · left
      refine place_congr (by simp [lendOne, stored, different])
        (by simp [lendOne, stored, shape, different]) ?_
      rw [drawn_next queue (by simp [lendOne, stored]), or_iff_left new]

/-- What the lending loop does to one message: it lends it, and the message is in the list, or it
leaves it alone, except that a name may be drawn for a handle. -/
inductive Lent (host : Host) (queue : InMemoryEventQueue) (deadline : ℚ) (popped : List Popped)
    (messageId : String) : Place String ℚ → Prop where
  | kept (unlent : ∀ message, Popped.lent messageId message ∉ popped) :
      Lent host queue deadline popped messageId (place host queue messageId)
  | retired (unlent : ∀ message, Popped.lent messageId message ∉ popped)
      (unborn : place host queue messageId = .unborn) :
      Lent host queue deadline popped messageId .gone
  | lent (entry : Entry) (handle : String)
      (stored : queue.entries.get? messageId = some entry)
      (waits : place host queue messageId = .waiting entry.receiveCount)
      (fresh : ¬ Drawn host queue handle)
      (listed : Popped.lent messageId ⟨entry.event, handle, entry.receiveCount + 1⟩ ∈ popped) :
      Lent host queue deadline popped messageId (.held (entry.receiveCount + 1) handle deadline)

/-- What the rest of the loop does to another message, after a turn that lent `messageId`, is what the
loop does to it. -/
theorem Lent.next {messageId other : String} {deadline : ℚ} {later : List Popped}
    {message : Message} {next : InMemoryEventQueue} {last : Place String ℚ}
    (same : other ≠ messageId) (minted : queue.minted ≤ next.minted)
    (entries : next.entries.get? other = queue.entries.get? other)
    (elsewhere : place host next other = place host queue other ∨
      (place host queue other = .unborn ∧ place host next other = .gone))
    (fate : Lent host next deadline later other last) :
    Lent host queue deadline (.lent messageId message :: later) other last := by
  have notHead : ∀ lent, Popped.lent other lent ≠ .lent messageId message := by
    intro lent equal
    exact same (Popped.lent.inj equal).1
  cases fate with
  | kept unlent =>
      rcases elsewhere with kept | ⟨unborn, gone⟩
      · rw [kept]
        exact .kept (by simpa [notHead] using unlent)
      · rw [gone]
        exact .retired (by simpa [notHead] using unlent) unborn
  | retired unlent unborn =>
      rcases elsewhere with kept | ⟨-, gone⟩
      · exact .retired (by simpa [notHead] using unlent) (kept ▸ unborn)
      · simp [gone] at unborn
  | lent current handle storedNext waits fresh listed =>
      rcases elsewhere with kept | ⟨-, gone⟩
      · rw [entries] at storedNext
        have unused : ¬ Drawn host queue handle := fun ⟨index, drawn, named⟩ =>
          fresh ⟨index, by omega, named⟩
        exact .lent current handle storedNext (kept ▸ waits) unused (by simp [listed])
      · simp [gone] at waits

theorem lend_place (linked : Linked host queue) (deadline : ℚ) (maxN : ℤ) {waiting : List String}
    (shape : queue.visible = waiting) (taken : ℕ) :
    Linked host (queue.lend host deadline maxN waiting taken).2 ∧
      queue.minted ≤ (queue.lend host deadline maxN waiting taken).2.minted ∧
      ((queue.lend host deadline maxN waiting taken).1.map Popped.messageId).Sublist waiting ∧
      (∀ popped ∈ (queue.lend host deadline maxN waiting taken).1,
        ∃ messageId message, popped = .lent messageId message ∧
          place host (queue.lend host deadline maxN waiting taken).2 messageId =
            .held message.receiveCount message.receiptHandle deadline) ∧
      ∀ messageId, Lent host queue deadline (queue.lend host deadline maxN waiting taken).1
        messageId (place host (queue.lend host deadline maxN waiting taken).2 messageId) := by
  induction waiting generalizing queue taken with
  | nil =>
      refine ⟨linked, Nat.le_refl _, by simp [lend], by simp [lend], fun messageId => ?_⟩
      exact .kept (by simp [lend])
  | cons messageId waiting ih =>
      simp only [lend]
      split
      · have nodup := linked.visibleNodup
        rw [shape, List.nodup_cons] at nodup
        have linkedOne := linked_lendOne linked shape deadline
        obtain ⟨entry, stored, idle, lentOne, here, elsewhere⟩ :=
          lendOne_place linked shape deadline
        have visibleOne : (lendOne host deadline messageId
            { queue with visible := waiting }).2.visible = waiting := by simp [lendOne, stored]
        have mintedOne : (lendOne host deadline messageId
            { queue with visible := waiting }).2.minted = queue.minted + 1 := by
          simp [lendOne, stored]
        have entriesOne : ∀ other, other ≠ messageId → (lendOne host deadline messageId
            { queue with visible := waiting }).2.entries.get? other =
              queue.entries.get? other := by
          intro other different
          simp [lendOne, stored, different]
        generalize lendOne host deadline messageId { queue with visible := waiting } = turn at *
        obtain ⟨popped, next⟩ := turn
        dsimp only at *
        subst lentOne
        obtain ⟨linkedAll, minted, sublist, listed, fates⟩ :=
          ih linkedOne visibleOne (taken + 1)
        simp only [Popped.message?, Option.toList_some, List.length_cons, List.length_nil,
          Nat.zero_add]
        have once : ∀ message, Popped.lent messageId message ∉
            (lend host deadline maxN waiting (taken + 1) next).1 := fun message member =>
          nodup.1 (sublist.subset (List.mem_map_of_mem (f := Popped.messageId) member))
        generalize lend host deadline maxN waiting (taken + 1) next = rest at *
        obtain ⟨later, final⟩ := rest
        dsimp only at *
        have settled : place host final messageId =
            .held (entry.receiveCount + 1) (host.uuid4 queue.minted) deadline := by
          have fate := fates messageId
          generalize place host final messageId = last at fate ⊢
          cases fate with
          | kept => exact here
          | retired _ unborn => simp [here] at unborn
          | lent other handle stored waits fresh listed => exact absurd listed (once _)
        refine ⟨linkedAll, by omega, ?_, ?_, ?_⟩
        · simpa [Popped.messageId] using sublist.cons_cons messageId
        · intro popped member
          rcases List.mem_cons.mp member with rfl | member
          · exact ⟨messageId, _, rfl, settled⟩
          · exact listed popped member
        · intro other
          by_cases same : other = messageId
          · subst same
            rw [settled]
            refine .lent entry _ stored (place_eq_waiting.mpr ⟨entry, stored, idle, rfl, ?_⟩)
              (not_drawn _ (Nat.le_refl _)) (by simp)
            simp [shape]
          · exact (fates other).next same (by omega) (entriesOne other same) (elsewhere other same)
      · refine ⟨linked, Nat.le_refl _, by simp, by simp, fun other => ?_⟩
        exact .kept (by simp)

end FeathrEvents.InMemoryEventQueue
