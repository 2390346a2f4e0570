/-
Module: FeathrEvents.Proofs.BurstReadouts
Purpose: What a burst shows once its calls have ended: how many events it really was, how deep the queue was
  seen, and what is written and what can be found.
Trusted boundary: none
Main exports: UseIngest.Shown, UseIngest.shown, UseIngest.peakOf_deepest, UseIngest.ids_accepted,
  UseIngest.drained_of_written, UseIngest.a_burst_tells_what_became_of_it
-/
import Mathlib.Data.Finset.Card
import FeathrEvents.App.BurstReadout
import FeathrEvents.Proofs.ApiHealth

namespace FeathrEvents

namespace UseIngest

open InMemoryEventQueue (DeadLetteredInLog)

/-! ### What the client shows -/

variable {toFixed : ℚ → String} {burst : Burst} {clock : Clock}
  {drains : List (Polling.Pass ℚ Unit QueueStats)} {searches : List (Polling.Pass ℚ Unit ℕ)}
  {shows : Readout}

/-- Everything that can be on the screen. -/
inductive Shown (toFixed : ℚ → String) (burst : Burst) (clock : Clock)
    (drains : List (Polling.Pass ℚ Unit QueueStats)) (searches : List (Polling.Pass ℚ Unit ℕ)) :
    Readout → Prop where
  | writing (goes : drained clock drains = none) :
      Shown toFixed burst clock drains searches
        ⟨[acceptedStep burst.accepted (clock.elapsed clock.accepted)], [], true⟩
  | written {drainMs : Option ℤ} (ended : drained clock drains = some drainMs) (busy : Bool) :
      Shown toFixed burst clock drains searches
        ⟨[acceptedStep burst.accepted (clock.elapsed clock.accepted), peakStep (peakOf clock drains),
          mongoStep toFixed burst.accepted drainMs],
          [loggedRun burst (clock.elapsed clock.accepted) drainMs], busy⟩
  | searched {drainMs : ℤ} {searchableMs : Option ℤ} (ended : drained clock drains = some (some drainMs))
      (found : searchable clock burst.accepted searches = some searchableMs) :
      Shown toFixed burst clock drains searches
        ⟨[acceptedStep burst.accepted (clock.elapsed clock.accepted), peakStep (peakOf clock drains),
          mongoStep toFixed burst.accepted (some drainMs), searchStep burst.accepted searchableMs],
          [loggedRun burst (clock.elapsed clock.accepted) (some drainMs)], false⟩

theorem shown (toFixed : ℚ → String) (burst : Burst) (clock : Clock)
    (drains : List (Polling.Pass ℚ Unit QueueStats)) (searches : List (Polling.Pass ℚ Unit ℕ)) :
    Shown toFixed burst clock drains searches (readout toFixed burst clock drains searches) := by
  unfold readout
  cases ended : drained clock drains with
  | none => exact .writing ended
  | some drainMs =>
      dsimp only
      split
      · exact .written ended false
      · rename_i goesOn
        cases drainMs with
        | none => exact absurd (.inl rfl) goesOn
        | some drainMs =>
            cases found : searchable clock burst.accepted searches with
            | none => exact .written ended true
            | some searchableMs => exact .searched ended found

@[simp] theorem label_mongoStep (accepted : ℕ) (ms : Option ℤ) :
    (mongoStep toFixed accepted ms).label = "In MongoDB" := by
  cases ms <;> rfl

@[simp] theorem label_searchStep (accepted : ℕ) (ms : Option ℤ) :
    (searchStep accepted ms).label = "Searchable" := by
  cases ms <;> rfl

/-- A step that says that all is written is shown only when the first loop was hit then. -/
theorem Shown.drained_of_mongo (shown : Shown toFixed burst clock drains searches shows) {ms : ℤ}
    (member : mongoStep toFixed burst.accepted (some ms) ∈ shows.steps) :
    drained clock drains = some (some ms) := by
  have here : mongoStep toFixed burst.accepted (some ms) ∈
      shows.steps.filter fun step => step.label = "In MongoDB" :=
    List.mem_filter.mpr ⟨member, by simp⟩
  cases shown with
  | writing => simp [acceptedStep] at here
  | @written drainMs ended =>
      have same : mongoStep toFixed burst.accepted (some ms) =
          mongoStep toFixed burst.accepted drainMs := by
        simpa [acceptedStep, peakStep] using here
      cases drainMs with
      | none => simp [mongoStep] at same
      | some drainMs =>
          have sameMs : ms = drainMs := congrArg TraceStep.atMs same
          exact sameMs ▸ ended
  | @searched drainMs searchableMs ended =>
      have same : mongoStep toFixed burst.accepted (some ms) =
          mongoStep toFixed burst.accepted (some drainMs) := by
        simpa [acceptedStep, peakStep] using here
      have sameMs : ms = drainMs := congrArg TraceStep.atMs same
      exact sameMs ▸ ended

/-- A step that says that all can be found is shown only when the second loop was hit. -/
theorem Shown.searchable_of_search (shown : Shown toFixed burst clock drains searches shows)
    {ms : ℤ}
    (member : searchStep burst.accepted (some ms) ∈ shows.steps) :
    ∃ found, searchable clock burst.accepted searches = some (some found) := by
  have here : searchStep burst.accepted (some ms) ∈
      shows.steps.filter fun step => step.label = "Searchable" :=
    List.mem_filter.mpr ⟨member, by simp⟩
  cases shown with
  | writing => simp [acceptedStep] at here
  | written => simp [acceptedStep, peakStep] at here
  | @searched drainMs searchableMs ended found =>
      have same : searchStep burst.accepted (some ms) = searchStep burst.accepted searchableMs := by
        simpa [acceptedStep, peakStep] using here
      cases searchableMs with
      | none => simp [searchStep] at same
      | some searchableMs => exact ⟨searchableMs, found⟩

/-! ### The deepest depth -/

/-- The answers that the first loop read, and when: the depth of the queue and the time since the
burst started.  A poll that failed leaves no sample. -/
def sampled (clock : Clock) (polls : List (Polling.Pass ℚ Unit QueueStats)) : List (ℕ × ℤ) :=
  (Polling.made (clock.drainFrom + drainTimeoutMs) empties polls).filterMap fun poll =>
    (poll.answer? (clock.drainFrom + drainTimeoutMs)).map fun stats =>
      (depth stats, clock.elapsed poll.repliedAt)

/-- No sample is deeper than the peak, which is the first of its depth, or nothing was seen waiting:
then the peak is the start, with a depth of zero. -/
structure Deepest (start : ℤ) (samples : List (ℕ × ℤ)) (peak : ℕ × ℤ) : Prop where
  above : ∀ sample ∈ samples, sample.1 ≤ peak.1
  first : peak = (0, start) ∨
    ∃ before after, samples = before ++ peak :: after ∧ ∀ sample ∈ before, sample.1 < peak.1

/-- One more sample. -/
theorem Deepest.more {start : ℤ} {samples : List (ℕ × ℤ)} {peak : ℕ × ℤ}
    (deepest : Deepest start samples peak) (sample : ℕ × ℤ) :
    Deepest start (samples ++ [sample]) (if peak.1 < sample.1 then sample else peak) := by
  split
  · rename_i deeper
    refine ⟨fun other member => ?_, .inr ⟨samples, [], rfl, fun other member => ?_⟩⟩
    · rcases List.mem_append.mp member with old | new
      · exact (deepest.above other old).trans deeper.le
      · rw [List.mem_singleton.mp new]
    · exact (deepest.above other member).trans_lt deeper
  · rename_i shallower
    refine ⟨fun other member => ?_, deepest.first.imp_right fun found => ?_⟩
    · rcases List.mem_append.mp member with old | new
      · exact deepest.above other old
      · rw [List.mem_singleton.mp new]
        exact not_lt.mp shallower
    · obtain ⟨before, after, split, smaller⟩ := found
      exact ⟨before, after ++ [sample], by rw [split, List.append_assoc, List.cons_append], smaller⟩

theorem peakOf_deepest (clock : Clock) (polls : List (Polling.Pass ℚ Unit QueueStats)) :
    Deepest (clock.elapsed clock.accepted) (sampled clock polls) (peakOf clock polls) := by
  unfold peakOf sampled
  induction Polling.made (clock.drainFrom + drainTimeoutMs) empties polls using List.reverseRecOn with
  | nil => exact ⟨by simp, .inl rfl⟩
  | append_singleton passes poll ih =>
      rw [List.foldl_append, Machine.filterMap_snoc, List.foldl_cons, List.foldl_nil]
      unfold deepen at ih ⊢
      cases poll.answer? (clock.drainFrom + drainTimeoutMs) with
      | none => simpa using ih
      | some stats => exact ih.more (depth stats, clock.elapsed poll.repliedAt)

/-! ### The events of the burst -/

variable {surround : Surround} {limiter : RateLimiter} {bursting : Bursting surround limiter}

theorem issued_posted
    (bursting : Bursting surround limiter) : Api.Issued surround bursting.posted :=
  Api.issued_run surround limiter bursting.posting

theorem issued_written
    (bursting : Bursting surround limiter) : Api.Issued surround bursting.written :=
  (issued_posted bursting).goes_on _

/-- Two requests that report the same are one, where nothing is reported twice. -/
theorem eq_of_reported {α β : Type*} {report : α → Option β} {list : List α}
    (once : (list.filterMap report).Nodup) {first second : ℕ} {one two : α} {value : β}
    (here : list[first]? = some one) (there : list[second]? = some two)
    (told : report one = some value) (same : report two = some value) : first = second := by
  have apart := List.pairwise_iff_getElem.mp (List.pairwise_filterMap.mp once)
  obtain ⟨inside, rfl⟩ := List.getElem?_eq_some_iff.mp here
  obtain ⟨within, rfl⟩ := List.getElem?_eq_some_iff.mp there
  rcases Nat.lt_trichotomy first second with before | equal | after
  · exact absurd rfl (apart first second inside within before value told value same)
  · exact equal
  · exact absurd rfl (apart second first within inside after value same value told)

/-- What a call that was accepted is known by. -/
theorem idOf (bursting : Bursting surround limiter) {index : ℕ} (member : index ∈ bursting.mine) :
    ∃ post eventId, bursting.posted.posts[index]? = some post ∧ post.answer = some (.accepted eventId) ∧
      (bursting.posted.posts[index]?).bind (fun post => post.answer.bind IngestAnswer.eventId?) =
        some eventId := by
  obtain ⟨post, eventId, found, answer⟩ := bursting.resolved index member
  have here : bursting.posted.posts[index]? = some post := found
  refine ⟨post, eventId, here, answer, ?_⟩
  rw [here, Option.bind_some, answer]
  rfl

/-- The number that is shown is that of the different events behind the calls. -/
theorem ids_accepted (bursting : Bursting surround limiter) :
    bursting.ids.Nodup ∧ bursting.ids.length = bursting.burst.accepted := by
  constructor
  · apply List.pairwise_filterMap.mpr
    refine List.Pairwise.imp_of_mem (fun {first second} one two apart eventId told value same => ?_)
      bursting.distinct
    rintro rfl
    apply apart
    obtain ⟨post, named, here, answer, shown⟩ := idOf bursting one
    obtain ⟨other, known, there, given, seen⟩ := idOf bursting two
    cases shown.symm.trans told
    cases seen.symm.trans same
    apply eq_of_reported ((issued_posted bursting).receipts.nodup_iff.mpr
      (issued_posted bursting).accepted_nodup) here there
    · rw [answer]
      rfl
    · rw [given]
      rfl
  · rw [bursting.counted, Bursting.ids]
    have all : ∀ index ∈ bursting.mine, ((bursting.posted.posts[index]?).bind fun post =>
        post.answer.bind IngestAnswer.eventId?).isSome := by
      intro index member
      obtain ⟨post, eventId, -, -, shown⟩ := idOf bursting member
      rw [shown]
      rfl
    exact List.filterMap_length_eq_length.mpr all

/-- The event of the burst with this id, however the API went on. -/
theorem event_of_id (bursting : Bursting surround limiter) (moves : List ApiMove) {eventId : String}
    (known : eventId ∈ bursting.ids) :
    ∃ event, event ∈ acceptedEvents surround.setup
        (Machine.run (Api.next surround) bursting.posted moves).system.past ∧
      event.eventId = eventId ∧
      eventId ∈ (Machine.run (Api.next surround) bursting.posted moves).receipts := by
  obtain ⟨index, member, told⟩ := List.mem_filterMap.mp known
  obtain ⟨post, named, here, answer, shown⟩ := idOf bursting member
  rw [shown] at told
  cases told
  have member := List.mem_of_getElem? (Api.answered_stays surround moves here answer)
  obtain ⟨event, listed, named, -⟩ :=
    ((issued_posted bursting).goes_on moves).answered post member eventId answer
  refine ⟨event, listed, named, List.mem_filterMap.mpr ⟨post, member, ?_⟩⟩
  rw [answer]
  rfl

/-! ### Against the API -/

/-- A loop that was hit found what it wanted. -/
theorem found_of_hit {β : Type} {verdict : Option (Polling.Verdict ℚ Unit β)} {ms : ℤ}
    (hit : verdict.map (hitMs clock) = some (some ms)) :
    ∃ value foundAt, verdict = some (.found value foundAt) ∧ ms = clock.elapsed foundAt := by
  obtain ⟨ended, rfl, same⟩ := Option.map_eq_some_iff.mp hit
  cases ended with
  | found value foundAt => exact ⟨value, foundAt, rfl, (Option.some.inj same).symm⟩
  | raised | timedOut => cases same

/-- When the first loop was hit, the process held no message. -/
theorem drained_of_written (serialises : surround.setup.host.Serialises) {ms : ℤ}
    (hit : drained bursting.clock bursting.drainPolls = some (some ms)) :
    ∃ earlier question later, bursting.drains = earlier ++ question :: later ∧
      ms = bursting.clock.elapsed question.repliedAt ∧
      (Machine.run (Api.next surround) bursting.posted
        (Polling.moves earlier ++ question.before)).system.queue.pendingEvents = [] := by
  obtain ⟨value, foundAt, found, rfl⟩ := found_of_hit hit
  obtain ⟨earlier, question, later, -, split, -, rfl, empty⟩ := Polling.poll_found found
  refine ⟨earlier, question, later, split, rfl, List.length_eq_zero_iff.mp ?_⟩
  have issued := (issued_posted bursting).goes_on (Polling.moves earlier ++ question.before)
  rw [← (issued.depth serialises).1]
  unfold empties at empty
  split at empty
  · rename_i zero
    exact Nat.add_eq_zero_iff.mpr zero
  · cases empty

/-- Where the process holds no message, the events of the burst are in both stores or were dead-lettered. -/
theorem fates_of_drained (serialises : surround.setup.host.Serialises)
    (bursting : Bursting surround limiter)
    (moves : List ApiMove) (drained : (Machine.run (Api.next surround) bursting.posted
      moves).system.queue.pendingEvents = []) {eventId : String} (known : eventId ∈ bursting.ids) :
    ∃ event, event.eventId = eventId ∧
      (DeadLetteredInLog surround.setup.host
          (Machine.run (Api.next surround) bursting.posted moves).system.queue event ∨
        ∀ sink, System.Documents surround.setup
          (Machine.run (Api.next surround) bursting.posted moves).system eventId event sink) := by
  obtain ⟨event, listed, named, -⟩ := event_of_id bursting moves known
  refine ⟨event, named, ?_⟩
  have kept := ((issued_posted bursting).goes_on moves).kept serialises listed
  rw [Api.Kept, drained, named] at kept
  exact kept.resolve_left List.not_mem_nil

/-- Where the process holds no message, no more events of the burst are missing from a store than lie in the
dead-letter queue. -/
theorem missing_of_drained (serialises : surround.setup.host.Serialises)
    (bursting : Bursting surround limiter) (moves : List ApiMove)
    (drained : (Machine.run (Api.next surround) bursting.posted moves).system.queue.pendingEvents = [])
    (room : (Machine.run (Api.next surround) bursting.posted moves).system.queue.dlq.items.length <
      dlqMaxlen) :
    (bursting.ids.filter fun eventId =>
        eventId ∈ (Machine.run (Api.next surround) bursting.posted moves).missing).length ≤
      (Machine.run (Api.next surround) bursting.posted moves).system.queue.dlq.items.length := by
  have issued := (issued_posted bursting).goes_on moves
  have once := (ids_accepted bursting).1.filter fun eventId =>
    decide (eventId ∈ (Machine.run (Api.next surround) bursting.posted moves).missing)
  have few := once.length_le_of_subset fun eventId member =>
    issued.missing_held serialises room (of_decide_eq_true (List.mem_filter.mp member).2)
  rw [drained, List.nil_append, List.length_map] at few
  exact few

/-- Where a search that finds only events of the burst finds as many as were accepted, it finds them all. -/
theorem all_indexed {visible : Finset String} {api : Api} (bursting : Bursting surround limiter)
    (only : ∀ eventId ∈ visible, eventId ∈ bursting.ids)
    (enough : bursting.burst.accepted ≤ Bursting.total visible api) {eventId : String}
    (known : eventId ∈ bursting.ids) : eventId ∈ api.system.ids .elasticsearch := by
  have within : (visible.filter fun eventId => eventId ∈ api.system.elastic.keys) ⊆
      bursting.ids.toFinset := by
    intro other member
    exact List.mem_toFinset.mpr (only other (Finset.mem_filter.mp member).1)
  have many : bursting.ids.toFinset.card ≤
      (visible.filter fun eventId => eventId ∈ api.system.elastic.keys).card := by
    rw [List.toFinset_card_of_nodup (ids_accepted bursting).1, (ids_accepted bursting).2]
    exact enough
  have whole := Finset.eq_of_subset_of_card_le within many
  have here := List.mem_toFinset.mpr known
  rw [← whole] at here
  exact (Finset.mem_filter.mp here).2

/-- What a burst shows once its calls have ended, however the API goes on meanwhile, when events can be
serialised.  The number of accepted events is that of different events; the peak is the first of the deepest
samples.  When it says that all are written, the process held no message at that moment: each event was in
both stores or dead-lettered, and no more were missing than lay in the dead-letter queue, until that is full.
When it says that all can be found, and the search finds no others, all are in both stores. -/
theorem a_burst_tells_what_became_of_it (surround : Surround)
    (serialises : surround.setup.host.Serialises) (limiter : RateLimiter)
    (bursting : Bursting surround limiter) (toFixed : ℚ → String) :
    let shows := bursting.readout toFixed
    (bursting.ids.Nodup ∧ bursting.ids.length = bursting.burst.accepted) ∧
    Deepest (bursting.clock.elapsed bursting.clock.accepted) (sampled bursting.clock bursting.drainPolls)
      (peakOf bursting.clock bursting.drainPolls) ∧
    (∀ ms, mongoStep toFixed bursting.burst.accepted (some ms) ∈ shows.steps →
      ∃ earlier question later, bursting.drains = earlier ++ question :: later ∧
        ms = bursting.clock.elapsed question.repliedAt ∧
        let api := Machine.run (Api.next surround) bursting.posted
          (Polling.moves earlier ++ question.before)
        (∀ eventId ∈ bursting.ids, ∃ event, event.eventId = eventId ∧
          (DeadLetteredInLog surround.setup.host api.system.queue event ∨
            ∀ sink, System.Documents surround.setup api.system eventId event sink)) ∧
        (api.system.queue.dlq.items.length < dlqMaxlen →
          (bursting.ids.filter fun eventId => eventId ∈ api.missing).length ≤
            api.system.queue.dlq.items.length)) ∧
    ∀ ms, searchStep bursting.burst.accepted (some ms) ∈ shows.steps →
      (∀ question ∈ bursting.searches, ∀ visible, question.asked = .ok visible →
        ∀ eventId ∈ visible, eventId ∈ bursting.ids) →
      ∀ eventId ∈ bursting.ids, ∀ sink, eventId ∈ bursting.last.system.ids sink := by
  intro shows
  have told : Shown toFixed bursting.burst bursting.clock bursting.drainPolls bursting.searchPolls shows :=
    shown ..
  refine ⟨ids_accepted bursting, peakOf_deepest .., fun ms member => ?_, fun ms member only => ?_⟩
  · obtain ⟨earlier, question, later, split, same, drained⟩ :=
      drained_of_written serialises (told.drained_of_mongo member)
    exact ⟨earlier, question, later, split, same,
      fun eventId known => fates_of_drained serialises bursting _ drained known,
      missing_of_drained serialises bursting _ drained⟩
  · intro eventId known
    obtain ⟨foundMs, hit⟩ := told.searchable_of_search member
    obtain ⟨value, foundAt, found, -⟩ := found_of_hit hit
    obtain ⟨earlier, question, later, visible, split, asked, -, enough⟩ := Polling.poll_found found
    have issued := (issued_written bursting).goes_on (Polling.moves earlier ++ question.before)
    have counted : bursting.burst.accepted ≤ Bursting.total visible (Machine.run (Api.next surround)
        bursting.written (Polling.moves earlier ++ question.before)) := by
      by_contra few
      rw [if_neg few] at enough
      cases enough
    have indexed := all_indexed bursting (only question (by simp [split]) visible asked) counted known
    intro sink
    apply Api.ids_after_question (issued_written bursting) split sink
    cases sink with
    | mongodb => exact issued.stored_of_indexed indexed
    | elasticsearch => exact indexed

/-- One process with one consumer that dead-letters whatever fails once. -/
def failsOnce : Surround := sampleSurround (sampleSetup { maxReceives := 1 } { concurrency := 1 })

/-- A burst of one event, whose write fails. -/
def buried : Bursting failsOnce (.create 100 100 10) where
  burst := { n := 1, accepted := 1, next := 1, senders := [.finished], calls := [0] }
  posting := [.post "c" (some ⟨"click", "u1", "https://a.io/", none, []⟩) 0 0, .handle 0 0 0]
  mine := [0]
  distinct := by decide
  resolved index member := by
    rw [List.mem_singleton.mp member]
    exact ⟨⟨"c", some ⟨"click", "u1", "https://a.io/", none, []⟩, some (.accepted "1")⟩, "1",
      by with_unfolding_all rfl, rfl⟩
  counted := rfl
  clock := ⟨0, 2, 3, 90⟩
  drains := [⟨[.worker .start, .worker (.turn 0 none 0 0 0), .worker (.heartbeat 0 0),
      .worker (.raised 0 1 1 1)], 3, .ok (), 4⟩,
    ⟨[.worker (.turn 0 none 700 700 700)], 84, .ok (), 85⟩]
  searches := []

/-- All is said to be written where the only event was dead-lettered. -/
theorem a_dead_letter_is_called_written :
    mongoStep (fun _ => "85.0") 1 (some 85) ∈ (buried.readout fun _ => "85.0").steps ∧
      buried.last.system.mongo.keys = [] ∧ ∃ event, event.eventId = "1" ∧
        DeadLetteredInLog failsOnce.setup.host buried.last.system.queue event := by
  have shows : mongoStep (fun _ => "85.0") 1 (some 85) ∈ (buried.readout fun _ => "85.0").steps := by
    with_unfolding_all decide
  have empty : buried.last.system.mongo.keys = [] := by with_unfolding_all rfl
  refine ⟨shows, empty, ?_⟩
  obtain ⟨-, -, written, -⟩ := a_burst_tells_what_became_of_it failsOnce (fun _ => rfl)
    (.create 100 100 10) buried fun _ => "85.0"
  obtain ⟨earlier, question, later, split, same, fates, -⟩ := written 85 shows
  have known : "1" ∈ buried.ids := by with_unfolding_all exact List.mem_cons_self ..
  obtain ⟨event, named, fate⟩ := fates "1" known
  refine ⟨event, named, ?_⟩
  cases earlier with
  | nil =>
      -- the first answer came after 4 milliseconds
      obtain ⟨rfl, -⟩ := List.cons.inj split
      exact absurd same (by with_unfolding_all decide)
  | cons first earlier =>
      obtain ⟨rfl, rest⟩ := List.cons.inj split
      cases earlier with
      | nil =>
          obtain ⟨rfl, -⟩ := List.cons.inj rest
          rcases fate with logged | both
          · exact logged
          · have stored : buried.last.system.mongo.get? "1" = some event.toDocument := both .mongodb
            have listed := Collections.OrderedDict.mem_keys.mpr ⟨_, stored⟩
            rw [empty] at listed
            cases listed
      | cons second earlier =>
          obtain ⟨-, none⟩ := List.cons.inj rest
          exact absurd none.symm (by simp)

end UseIngest

end FeathrEvents
