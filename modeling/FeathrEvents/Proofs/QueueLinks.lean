/-
Module: FeathrEvents.Proofs.QueueLinks
Purpose: The links between the four containers of the queue that every call keeps, even one that
  raises half way through a sweep.
Trusted boundary: none
Main exports: Linked, linked_create, linked_send, linked_sweepOne, linked_lendOne, linked_delete,
  linked_setDeadline, linked_clear
-/
import FeathrEvents.App.Queue

namespace FeathrEvents.InMemoryEventQueue

open Collections (OrderedDict BoundedDeque)

/-- What ties `_entries`, `_visible` and `_inflight` together in every state of every run, also in
those after a sweep that raised, where an entry may be in neither place. -/
structure Linked (host : Host) (queue : InMemoryEventQueue) : Prop where
  visibleNodup : queue.visible.Nodup
  visibleEntry : ∀ messageId ∈ queue.visible,
    ∃ entry, queue.entries.get? messageId = some entry ∧ entry.handle = none
  inflightEntry : ∀ handle messageId, queue.inflight.get? handle = some messageId →
    ∃ entry, queue.entries.get? messageId = some entry ∧ entry.handle = some handle ∧
      1 ≤ entry.receiveCount
  liveHandle : ∀ messageId entry handle, queue.entries.get? messageId = some entry →
    entry.handle = some handle → queue.inflight.get? handle = some messageId
  idMinted : ∀ messageId entry, queue.entries.get? messageId = some entry →
    ∃ index < queue.minted, host.uuid4 index = messageId
  handleMinted : ∀ handle messageId, queue.inflight.get? handle = some messageId →
    ∃ index < queue.minted, host.uuid4 index = handle

variable {host : Host} {settings : QueueSettings} {queue : InMemoryEventQueue}

theorem linked_create : Linked host create where
  visibleNodup := List.nodup_nil
  visibleEntry := by simp [create]
  inflightEntry := by simp [create]
  liveHandle := by simp [create]
  idMinted := by simp [create]
  handleMinted := by simp [create]

/-- A uuid4 value that is still to be drawn names no entry. -/
theorem Linked.entries_fresh (linked : Linked host queue) {index : ℕ}
    (later : queue.minted ≤ index) : queue.entries.get? (host.uuid4 index) = none := by
  by_contra present
  obtain ⟨entry, found⟩ := Option.ne_none_iff_exists'.mp present
  obtain ⟨earlier, drawn, same⟩ := linked.idMinted _ _ found
  have := host.fresh same
  omega

/-- A uuid4 value that is still to be drawn is no live handle. -/
theorem Linked.inflight_fresh (linked : Linked host queue) {index : ℕ}
    (later : queue.minted ≤ index) : queue.inflight.get? (host.uuid4 index) = none := by
  by_contra present
  obtain ⟨messageId, found⟩ := Option.ne_none_iff_exists'.mp present
  obtain ⟨earlier, drawn, same⟩ := linked.handleMinted _ _ found
  have := host.fresh same
  omega

/-- Two live handles never share a message. -/
theorem Linked.inflight_injective (linked : Linked host queue) {first second messageId : String}
    (one : queue.inflight.get? first = some messageId)
    (two : queue.inflight.get? second = some messageId) : first = second := by
  obtain ⟨entry, found, live, -⟩ := linked.inflightEntry _ _ one
  obtain ⟨other, alsoFound, alsoLive, -⟩ := linked.inflightEntry _ _ two
  rw [found] at alsoFound
  cases alsoFound
  rw [live] at alsoLive
  exact Option.some.inj alsoLive

/-- A message on loan is not visible. -/
theorem Linked.not_visible (linked : Linked host queue) {handle messageId : String}
    (lent : queue.inflight.get? handle = some messageId) : messageId ∉ queue.visible := by
  intro member
  obtain ⟨entry, found, live, -⟩ := linked.inflightEntry _ _ lent
  obtain ⟨other, alsoFound, idle⟩ := linked.visibleEntry _ member
  rw [found] at alsoFound
  cases alsoFound
  rw [live] at idle
  cases idle

theorem linked_send (linked : Linked host queue) (event : Event) :
    Linked host (queue.send host settings event).2 := by
  unfold send
  split
  · exact linked
  have absent := linked.entries_fresh (Nat.le_refl _)
  have unused : host.uuid4 queue.minted ∉ queue.visible := by
    intro member
    obtain ⟨entry, found, -⟩ := linked.visibleEntry _ member
    simp [absent] at found
  refine ⟨?_, ?_, ?_, ?_, ?_, ?_⟩
  · simpa only [List.concat_eq_append] using List.Nodup.concat unused linked.visibleNodup
  · intro messageId member
    by_cases same : messageId = host.uuid4 queue.minted
    · simp [same]
    · simpa [same] using linked.visibleEntry messageId (by simpa [same] using member)
  · intro handle messageId lent
    obtain ⟨entry, found, rest⟩ := linked.inflightEntry handle messageId lent
    have other : messageId ≠ host.uuid4 queue.minted := by
      rintro rfl
      simp [absent] at found
    exact ⟨entry, by simp [other, found], rest⟩
  · intro messageId entry handle found live
    by_cases same : messageId = host.uuid4 queue.minted
    · simp only [same, OrderedDict.get?_set, if_true, Option.some.injEq] at found
      subst found
      cases live
    · exact linked.liveHandle messageId entry handle (by simpa [same] using found) live
  · intro messageId entry found
    by_cases same : messageId = host.uuid4 queue.minted
    · exact ⟨queue.minted, Nat.lt_succ_self _, same.symm⟩
    · obtain ⟨index, drawn, named⟩ := linked.idMinted messageId entry (by simpa [same] using found)
      exact ⟨index, Nat.lt_succ_of_lt drawn, named⟩
  · intro handle messageId lent
    obtain ⟨index, drawn, named⟩ := linked.handleMinted handle messageId lent
    exact ⟨index, Nat.lt_succ_of_lt drawn, named⟩

/-- A message that no loan points to and that is not visible either: the state of a message while
the sweep handles it. -/
structure Unplaced (messageId : String) (queue : InMemoryEventQueue) : Prop where
  hidden : messageId ∉ queue.visible
  unlent : ∀ handle, queue.inflight.get? handle ≠ some messageId

/-- Ending a loan leaves the other links as they are, and the message without a place. -/
theorem linked_release (linked : Linked host queue) {handle messageId : String}
    (lent : queue.inflight.get? handle = some messageId) :
    Linked host (queue.release handle messageId) ∧
      Unplaced messageId (queue.release handle messageId) := by
  have others : ∀ other target, other ≠ handle → queue.inflight.get? other = some target →
      target ≠ messageId := by
    rintro other target different found rfl
    exact different (linked.inflight_injective found lent)
  refine ⟨⟨linked.visibleNodup, ?_, ?_, ?_, ?_, ?_⟩, linked.not_visible lent, ?_⟩
  · intro target member
    obtain ⟨entry, found, idle⟩ := linked.visibleEntry target member
    by_cases same : target = messageId
    · simp [release, same, same ▸ found]
    · simp [release, same, found, idle]
  · intro other target found
    simp only [release, OrderedDict.get?_erase] at found
    split at found
    · cases found
    · rename_i different
      obtain ⟨entry, stored, rest⟩ := linked.inflightEntry other target found
      exact ⟨entry, by simp [release, others other target different found, stored], rest⟩
  · intro target entry other found live
    by_cases same : target = messageId
    · simp only [release, same, OrderedDict.get?_modify, if_true, Option.map_eq_some_iff] at found
      obtain ⟨old, -, rfl⟩ := found
      cases live
    · have stored : queue.entries.get? target = some entry := by simpa [release, same] using found
      have present := linked.liveHandle target entry other stored live
      have different : other ≠ handle := by
        rintro rfl
        rw [present] at lent
        exact same (Option.some.inj lent)
      simp [release, different, present]
  · intro target entry found
    by_cases same : target = messageId
    · obtain ⟨old, stored, -⟩ := linked.inflightEntry handle messageId lent
      exact linked.idMinted target old (same ▸ stored)
    · exact linked.idMinted target entry (by simpa [release, same] using found)
  · intro other target found
    simp only [release, OrderedDict.get?_erase] at found
    split at found
    · cases found
    · exact linked.handleMinted other target found
  · intro other found
    simp only [release, OrderedDict.get?_erase] at found
    split at found
    · cases found
    · rename_i different
      exact others other messageId different found rfl

/-- A message without a place may be made visible. -/
theorem linked_putBack (linked : Linked host queue) {messageId : String} {entry : Entry}
    (unplaced : Unplaced messageId queue) (stored : queue.entries.get? messageId = some entry)
    (idle : entry.handle = none) :
    Linked host { queue with visible := queue.visible ++ [messageId] } := by
  refine { linked with visibleNodup := ?_, visibleEntry := ?_ }
  · simpa only [List.concat_eq_append] using List.Nodup.concat unplaced.hidden linked.visibleNodup
  · intro target member
    rcases List.mem_append.mp member with old | new
    · exact linked.visibleEntry target old
    · rw [List.mem_singleton] at new
      exact ⟨entry, new ▸ stored, idle⟩

/-- The entry of a message without a place may be removed. -/
theorem linked_eraseEntry (linked : Linked host queue) {messageId : String}
    (unplaced : Unplaced messageId queue) :
    Linked host { queue with entries := queue.entries.erase messageId } := by
  refine { linked with
    visibleEntry := ?_, inflightEntry := ?_, liveHandle := ?_, idMinted := ?_ }
  · intro target member
    have other : target ≠ messageId := fun same => unplaced.hidden (same ▸ member)
    simpa [other] using linked.visibleEntry target member
  · intro handle target lent
    have other : target ≠ messageId := fun same => unplaced.unlent handle (same ▸ lent)
    simpa [other] using linked.inflightEntry handle target lent
  · intro target entry handle found
    simp only [OrderedDict.get?_erase] at found
    split at found
    · cases found
    · exact linked.liveHandle target entry handle found
  · intro target entry found
    simp only [OrderedDict.get?_erase] at found
    split at found
    · cases found
    · exact linked.idMinted target entry found

@[simp] theorem reportFull_containers (entry : Entry) (queue : InMemoryEventQueue) :
    (queue.reportFull entry).entries = queue.entries ∧
      (queue.reportFull entry).visible = queue.visible ∧
      (queue.reportFull entry).inflight = queue.inflight ∧
      (queue.reportFull entry).dlq = queue.dlq ∧
      (queue.reportFull entry).minted = queue.minted := by
  unfold reportFull
  split
  · simp
  · split <;> simp

/-- The links do not depend on the dead-letter queue or on the log. -/
theorem Linked.congr (linked : Linked host queue) {other : InMemoryEventQueue}
    (entries : other.entries = queue.entries) (visible : other.visible = queue.visible)
    (inflight : other.inflight = queue.inflight) (minted : other.minted = queue.minted) :
    Linked host other := by
  obtain ⟨nodup, visibleEntry, inflightEntry, liveHandle, idMinted, handleMinted⟩ := linked
  constructor <;> simpa [entries, visible, inflight, minted]

theorem linked_sweepOne (settings : QueueSettings) (linked : Linked host queue)
    {handle messageId : String}
    (lent : queue.inflight.get? handle = some messageId) :
    Linked host (queue.sweepOne host settings handle).2 := by
  obtain ⟨entry, stored, live, count⟩ := linked.inflightEntry handle messageId lent
  obtain ⟨released, unplaced⟩ := linked_release linked lent
  simp only [sweepOne, lent, stored]
  split
  · obtain ⟨entries, visible, inflight, dlq, minted⟩ :=
      reportFull_containers entry (queue.release handle messageId)
    split
    · exact released.congr entries visible inflight minted
    · refine (linked_eraseEntry released unplaced).congr ?_ visible inflight minted
      simp [bury]
  · have kept : (queue.release handle messageId).entries.get? messageId =
        some { entry with handle := none } := by simp [release, stored]
    exact linked_putBack released unplaced kept rfl

theorem linked_lendOne (linked : Linked host queue) {messageId : String} {waiting : List String}
    (shape : queue.visible = messageId :: waiting) (deadline : ℚ) :
    Linked host
      (lendOne host deadline messageId { queue with visible := waiting }).2 := by
  have nodup := linked.visibleNodup
  rw [shape, List.nodup_cons] at nodup
  obtain ⟨entry, stored, idle⟩ := linked.visibleEntry messageId (by simp [shape])
  have freshHandle := linked.inflight_fresh (Nat.le_refl _)
  have unlent : ∀ handle, queue.inflight.get? handle ≠ some messageId := by
    intro handle lent
    exact linked.not_visible lent (by simp [shape])
  simp only [lendOne, stored]
  refine ⟨nodup.2, ?_, ?_, ?_, ?_, ?_⟩
  · intro target member
    have other : target ≠ messageId := fun same => nodup.1 (same ▸ member)
    simpa [other] using linked.visibleEntry target (by simp [shape, member])
  · intro handle target lent
    simp only [OrderedDict.get?_set] at lent
    split at lent
    · rename_i new
      cases lent
      simp [stored, new]
    · have other : target ≠ messageId := fun same => unlent handle (same ▸ lent)
      simpa [other] using linked.inflightEntry handle target lent
  · intro target current handle found live
    by_cases same : target = messageId
    · simp only [same, OrderedDict.get?_modify, if_true, stored, Option.map_some,
        Option.some.injEq] at found
      subst found
      cases live
      simp [same]
    · have present := linked.liveHandle target current handle (by simpa [same] using found) live
      have other : handle ≠ host.uuid4 queue.minted := by
        rintro rfl
        rw [freshHandle] at present
        cases present
      simp [other, present]
  · intro target current found
    by_cases same : target = messageId
    · obtain ⟨index, drawn, named⟩ := linked.idMinted messageId entry stored
      exact ⟨index, Nat.lt_succ_of_lt drawn, same ▸ named⟩
    · obtain ⟨index, drawn, named⟩ :=
        linked.idMinted target current (by simpa [same] using found)
      exact ⟨index, Nat.lt_succ_of_lt drawn, named⟩
  · intro handle target lent
    simp only [OrderedDict.get?_set] at lent
    split at lent
    · rename_i new
      exact ⟨queue.minted, Nat.lt_succ_self _, new.symm⟩
    · obtain ⟨index, drawn, named⟩ := linked.handleMinted handle target lent
      exact ⟨index, Nat.lt_succ_of_lt drawn, named⟩

theorem linked_delete (linked : Linked host queue) (handle : String) :
    Linked host (queue.delete handle).2 := by
  unfold delete
  split
  · exact linked
  · rename_i messageId lent
    obtain ⟨released, unplaced⟩ := linked_release linked lent
    refine (linked_eraseEntry released unplaced).congr ?_ rfl rfl rfl
    exact (OrderedDict.erase_modify _ _ _).symm

theorem linked_setDeadline (linked : Linked host queue) (messageId : String) (deadline : ℚ) :
    Linked host (queue.setDeadline messageId deadline).2 := by
  unfold setDeadline
  split
  · exact linked
  refine { linked with
    visibleEntry := ?_, inflightEntry := ?_, liveHandle := ?_, idMinted := ?_ }
  · intro target member
    obtain ⟨entry, found, idle⟩ := linked.visibleEntry target member
    by_cases same : target = messageId
    · simp [same, same ▸ found, idle]
    · simp [same, found, idle]
  · intro handle target lent
    obtain ⟨entry, found, live, count⟩ := linked.inflightEntry handle target lent
    by_cases same : target = messageId
    · simp [same, same ▸ found, live, count]
    · simp [same, found, live, count]
  · intro target entry handle found live
    by_cases same : target = messageId
    · simp only [same, OrderedDict.get?_modify, if_true, Option.map_eq_some_iff] at found
      obtain ⟨old, stored, rfl⟩ := found
      exact linked.liveHandle target old handle (same ▸ stored) live
    · exact linked.liveHandle target entry handle (by simpa [same] using found) live
  · intro target entry found
    by_cases same : target = messageId
    · simp only [same, OrderedDict.get?_modify, if_true, Option.map_eq_some_iff] at found
      obtain ⟨old, stored, -⟩ := found
      exact linked.idMinted target old (same ▸ stored)
    · exact linked.idMinted target entry (by simpa [same] using found)

theorem linked_clear : Linked host queue.clear where
  visibleNodup := List.nodup_nil
  visibleEntry := by simp [clear]
  inflightEntry := by simp [clear]
  liveHandle := by simp [clear]
  idMinted := by simp [clear]
  handleMinted := by simp [clear]

end FeathrEvents.InMemoryEventQueue
