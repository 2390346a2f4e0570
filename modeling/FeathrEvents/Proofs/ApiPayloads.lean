/-
Module: FeathrEvents.Proofs.ApiPayloads
Purpose: What the validation of a body lets through holds of every event in every place, so that the
  memory that metadata takes is bounded, and what was posted is found by the texts that it was posted with.
Trusted boundary: none
Main exports: EventIn.Accepts, EventIn.validate_ok_iff, Event.Valid, Event.ValidatedIn, Api.dumpedIn,
  Api.metadata_in_memory_is_bounded, Api.stored_events_are_valid, Api.AsksFor,
  Api.posted_events_are_listed
-/
import Mathlib.Algebra.Order.BigOperators.Group.List
import FeathrEvents.App.Listing
import FeathrEvents.Lib.Traversal
import FeathrEvents.Proofs.ApiReceipts
import FeathrEvents.Proofs.DocumentReads
import FeathrEvents.Proofs.QueueRepresentation
import FeathrEvents.Proofs.TimestampBounds

namespace FeathrEvents

open Collections (OrderedDict)

namespace EventIn

/-! ### One body -/

/-- The body passes the checks of all fields, and the fields are what the checks make of them. -/
structure Accepts (pydantic : Pydantic) (reading : ℤ) (body : Payload) (data : EventIn) : Prop where
  typeLength : 1 ≤ body.eventType.length ∧ body.eventType.length ≤ 64
  eventType : data.eventType = pydantic.normaliser.stripLower body.eventType
  typed : data.eventType ≠ ""
  userLength : 1 ≤ body.userId.length ∧ body.userId.length ≤ 128
  userId : data.userId = body.userId
  sourceUrl : pydantic.normaliser.httpUrl body.sourceUrl = some data.sourceUrl
  timestamp : boundTheFuture reading body.timestamp = .ok data.timestamp
  metadata : data.metadata = body.metadata
  small : ∃ size, pydantic.dumpedSize body.metadata = some size ∧ size ≤ maxMetadataBytes

theorem bounded_ok_iff {least most : ℕ} {v w : String} :
    bounded least most v = .ok w ↔ w = v ∧ least ≤ v.length ∧ v.length ≤ most := by
  unfold bounded
  by_cases short : v.length < least
  · simp [short, Nat.not_le.mpr short]
  · by_cases long : most < v.length
    · simp [short, long, Nat.not_le.mpr long]
    · simp [short, long, Nat.not_lt.mp short, Nat.not_lt.mp long, eq_comm]

theorem normaliseType_ok_iff {normaliser : Normaliser} {v w : String} :
    normaliseType normaliser v = .ok w ↔ w = normaliser.stripLower v ∧ w ≠ "" := by
  unfold normaliseType
  by_cases empty : normaliser.stripLower v = ""
  · simp only [empty, if_true, reduceCtorEq, false_iff, not_and, not_not]
    exact id
  · simp only [empty, if_false, Except.ok.injEq]
    constructor
    · rintro rfl
      exact ⟨rfl, empty⟩
    · exact fun same => same.1.symm

theorem checkedUrl_ok_iff {normaliser : Normaliser} {v w : String} :
    checkedUrl normaliser v = .ok w ↔ normaliser.httpUrl v = some w := by
  unfold checkedUrl
  split <;> simp_all

theorem checkedTimestamp_ok_iff {reading : ℤ} {v w : Option DateTime} :
    checkedTimestamp reading v = .ok (.ok w) ↔ boundTheFuture reading v = .ok w := by
  unfold checkedTimestamp
  split <;> simp_all

theorem boundTheMetadata_ok_iff {pydantic : Pydantic} {v w : List (String × Json)} :
    boundTheMetadata pydantic v = .ok (.ok w) ↔
      w = v ∧ ∃ size, pydantic.dumpedSize v = some size ∧ size ≤ maxMetadataBytes := by
  unfold boundTheMetadata
  cases pydantic.dumpedSize v with
  | none => simp
  | some size =>
      by_cases large : maxMetadataBytes < size
      · simp [large, Nat.not_le.mpr large]
      · simp [large, Nat.not_lt.mp large, eq_comm]

/-- A body is accepted exactly when each field passes its own checks. -/
theorem validate_ok_iff {pydantic : Pydantic} {reading : ℤ} {body : Payload} {data : EventIn} :
    validate pydantic reading body = .ok (.ok data) ↔ Accepts pydantic reading body data := by
  constructor
  · intro valid
    obtain ⟨timestamp, checked, valid⟩ := Traversal.bind_eq_ok.mp valid
    obtain ⟨metadata, dumped, valid⟩ := Traversal.bind_eq_ok.mp valid
    split at valid
    · rename_i eventType userId sourceUrl timestamp metadata typed used located _
      cases valid
      obtain ⟨raw, within, normal⟩ := Traversal.bind_eq_ok.mp typed
      obtain ⟨rfl, typeLength⟩ := bounded_ok_iff.mp within
      obtain ⟨named, nonempty⟩ := normaliseType_ok_iff.mp normal
      obtain ⟨sameUser, userLength⟩ := bounded_ok_iff.mp used
      obtain ⟨sameMetadata, small⟩ := boundTheMetadata_ok_iff.mp dumped
      exact ⟨typeLength, named, nonempty, userLength, sameUser, checkedUrl_ok_iff.mp located,
        checkedTimestamp_ok_iff.mp checked, sameMetadata, small⟩
    · cases valid
  · intro accepts
    obtain ⟨eventType, userId, sourceUrl, timestamp, metadata⟩ := data
    obtain ⟨typeLength, rfl, typed, userLength, rfl, located, stamped, rfl, small⟩ := accepts
    have within := bounded_ok_iff.mpr ⟨rfl, typeLength⟩
    have normal := normaliseType_ok_iff.mpr ⟨rfl, typed⟩
    have used := bounded_ok_iff.mpr ⟨rfl, userLength⟩
    simp only [validate, within, normal, used, checkedUrl_ok_iff.mpr located,
      checkedTimestamp_ok_iff.mpr stamped, boundTheMetadata_ok_iff.mpr ⟨rfl, small⟩, Except.bind]
    rfl

end EventIn

/-! ### One event -/

/-- What every event looks like that was validated at one reading of the clock, given its id, and stamped
at another.  The queue, the consumers and the stores rely on it and check none of it again. -/
structure Event.Valid (pydantic : Pydantic) (validatedAt stampedAt : ℤ) (event : Event) : Prop where
  eventType : event.eventType ≠ "" ∧ ∃ raw : String, 1 ≤ raw.length ∧ raw.length ≤ 64 ∧
    event.eventType = pydantic.normaliser.stripLower raw
  userId : 1 ≤ event.userId.length ∧ event.userId.length ≤ 128
  sourceUrl : ∃ raw, pydantic.normaliser.httpUrl raw = some event.sourceUrl
  timestamp : event.timestamp.offset = some 0
  future : event.timestamp = event.receivedAt ∨ event.timestamp.instant ≤ latest validatedAt
  receivedAt : event.receivedAt = .now stampedAt
  metadata : ∃ size, pydantic.dumpedSize event.metadata = some size ∧ size ≤ maxMetadataBytes

/-- The event is valid, and the readings are those that a move of the run took: a bound on the clock of
the process bounds every timestamp that a client chose. -/
def Event.ValidatedIn (pydantic : Pydantic) (moves : List ApiMove) (event : Event) : Prop :=
  ∃ post validatedAt stampedAt, .handle post validatedAt stampedAt ∈ moves ∧
    event.Valid pydantic validatedAt stampedAt

/-- A timestamp that is accepted is not later than the clock and the skew that it is allowed. -/
theorem EventIn.boundTheFuture_le {reading : ℤ} {time : DateTime} {stamped : Option DateTime}
    (accepted : EventIn.boundTheFuture reading (some time) = .ok stamped) :
    time.instant ≤ latest reading := by
  obtain ⟨v, converted, accepted⟩ := Traversal.bind_eq_ok.mp accepted
  obtain ⟨bound, allowed, accepted⟩ := Traversal.bind_eq_ok.mp accepted
  rw [DateTime.toUtc_ok converted, DateTime.utc_ok allowed] at accepted
  split at accepted
  · cases accepted
  · rename_i early
    simpa [DateTime.instant, latest] using early

/-- The timestamp of an event is the one that was sent, within its bound, or the moment of its receipt. -/
theorem EventIn.Accepts.stamped {pydantic : Pydantic} {reading : ℤ} {body : Payload}
    {data : EventIn}
    (accepts : EventIn.Accepts pydantic reading body data) (eventId : String) (stampedAt : ℤ) :
    (Event.fromInput eventId stampedAt data).timestamp = .now stampedAt ∨
      ∃ instant ≤ latest reading,
        (Event.fromInput eventId stampedAt data).timestamp = ⟨instant, some 0⟩ := by
  have stamped := accepts.timestamp
  cases sent : body.timestamp with
  | none =>
      rw [sent] at stamped
      have absent : data.timestamp = none := (Except.ok.inj stamped).symm
      left
      rw [Event.fromInput, absent, Option.getD_none]
  | some time =>
      rw [sent] at stamped
      right
      refine ⟨time.instant, EventIn.boundTheFuture_le stamped, ?_⟩
      rw [Event.fromInput, EventIn.boundTheFuture_ok stamped, Option.getD_some]

theorem EventIn.Accepts.valid {pydantic : Pydantic} {reading : ℤ} {body : Payload} {data : EventIn}
    (accepts : EventIn.Accepts pydantic reading body data) (eventId : String) (stampedAt : ℤ) :
    (Event.fromInput eventId stampedAt data).Valid pydantic reading stampedAt where
  eventType := ⟨accepts.typed, body.eventType, accepts.typeLength.1, accepts.typeLength.2,
    accepts.eventType⟩
  userId := by
    rw [Event.fromInput, accepts.userId]
    exact accepts.userLength
  sourceUrl := ⟨body.sourceUrl, accepts.sourceUrl⟩
  timestamp := by
    rcases accepts.stamped eventId stampedAt with own | ⟨instant, -, sent⟩
    · rw [own]
      rfl
    · rw [sent]
  future := by
    rcases accepts.stamped eventId stampedAt with own | ⟨instant, early, sent⟩
    · exact .inl own
    · right
      rw [sent]
      simpa [DateTime.instant] using early
  receivedAt := rfl
  metadata := by
    rw [Event.fromInput, accepts.metadata]
    exact accepts.small

theorem MadeAt.valid {surround : Surround} {body : Option Payload} {validatedAt stampedAt : ℤ}
    {event : Event} (made : MadeAt surround body validatedAt stampedAt event) :
    event.Valid surround.pydantic validatedAt stampedAt := by
  obtain ⟨payload, data, -, validated, shape⟩ := made
  rw [shape]
  exact (EventIn.validate_ok_iff.mp validated).valid event.eventId stampedAt

namespace Api

/-! ### Every event in every place -/

/-- Whatever the queue accepted was validated in a move of the run. -/
theorem validated_of_accepted {surround : Surround} {limiter : RateLimiter} {moves : List ApiMove}
    {event : Event}
    (listed : event ∈ acceptedEvents surround.setup (run surround limiter moves).system.past) :
    event.ValidatedIn surround.pydantic moves := by
  obtain ⟨post, validatedAt, stampedAt, body, handled, made⟩ :=
    made_of_accepted surround limiter moves listed
  exact ⟨post, validatedAt, stampedAt, handled, made.valid⟩

/-- What the process holds in memory was accepted, so it is valid. -/
theorem valid_in_memory (surround : Surround) (limiter : RateLimiter) (moves : List ApiMove)
    {event : Event}
    (here : event ∈ (run surround limiter moves).system.queue.pendingEvents ∨
      event ∈ (run surround limiter moves).system.queue.dlq.items) :
    event.ValidatedIn surround.pydantic moves := by
  have issued := issued_run surround limiter moves
  apply validated_of_accepted
  rcases here with waits | dead
  · exact issued.pending waits
  · exact issued.dead dead

/-- Every event that waits, was dead-lettered or is in MongoDB is one that the validation let through,
in every state that requests and moves of the worker lead to.  The bound on a timestamp is measured by
the clock reading of the move that validated it. -/
theorem stored_events_are_valid (surround : Surround) (limiter : RateLimiter)
    (moves : List ApiMove) :
    let api := run surround limiter moves
    (∀ event : Event, event ∈ api.system.queue.pendingEvents ∨ event ∈ api.system.queue.dlq.items →
      event.ValidatedIn surround.pydantic moves) ∧
    ∀ eventId document, api.system.mongo.get? eventId = some document →
      ∃ event : Event, event.ValidatedIn surround.pydantic moves ∧ event.eventId = eventId ∧
        document = event.toDocument := by
  intro api
  have issued : Issued surround api := issued_run surround limiter moves
  constructor
  · intro event here
    exact valid_in_memory surround limiter moves here
  · intro eventId document found
    have listed : eventId ∈ api.system.ids .mongodb := OrderedDict.mem_keys.mpr ⟨document, found⟩
    obtain ⟨event, accepted, named, documents⟩ := issued.documented listed
    exact ⟨event, validated_of_accepted accepted, named,
      Option.some.inj (found.symm.trans documents)⟩

theorem the_posted_event_is_valid :
    ∃ event : Event, event.ValidatedIn oneConsumer.pydantic onePosted ∧ event.eventId = "1" := by
  have stored : "1" ∈ (run oneConsumer (.create 100 100 10) onePosted).system.mongo.keys := by
    with_unfolding_all exact List.mem_cons_self ..
  obtain ⟨document, found⟩ := OrderedDict.mem_keys.mp stored
  obtain ⟨event, valid, named, -⟩ :=
    (stored_events_are_valid oneConsumer (.create 100 100 10) onePosted).2 "1" document found
  exact ⟨event, valid, named⟩

/-- The bytes of metadata in these events, as `json.dumps` writes it: what a client can make an event
weigh beyond its few short texts. -/
def dumpedIn (pydantic : Pydantic) (events : List Event) : ℕ :=
  (events.map fun event => (pydantic.dumpedSize event.metadata).getD 0).sum

theorem dumpedIn_le {pydantic : Pydantic} {moves : List ApiMove} {events : List Event}
    (valid : ∀ event ∈ events, event.ValidatedIn pydantic moves) :
    dumpedIn pydantic events ≤ events.length * maxMetadataBytes := by
  have each : ∀ bytes ∈ events.map fun event => (pydantic.dumpedSize event.metadata).getD 0,
      bytes ≤ maxMetadataBytes := by
    intro bytes member
    obtain ⟨event, listed, rfl⟩ := List.mem_map.mp member
    obtain ⟨_, _, _, -, checked⟩ := valid event listed
    obtain ⟨size, dumped, small⟩ := checked.metadata
    rwa [dumped]
  simpa [dumpedIn] using List.sum_le_card_nsmul _ _ each

/-- The queue counts messages, and each has a bounded size: the metadata in the memory of the process
takes no more than the bounds of the queue and of the dead-letter queue times the bound of one event. -/
theorem metadata_in_memory_is_bounded (surround : Surround) (limiter : RateLimiter)
    (moves : List ApiMove) :
    let queue := (run surround limiter moves).system.queue
    dumpedIn surround.pydantic queue.pendingEvents ≤
        surround.setup.queue.maxsize * maxMetadataBytes ∧
      dumpedIn surround.pydantic queue.dlq.items ≤
        dlqMaxlen * maxMetadataBytes := by
  intro queue
  have issued := issued_run surround limiter moves
  constructor
  · apply (dumpedIn_le fun event member =>
      valid_in_memory surround limiter moves (.inl member)).trans
    apply Nat.mul_le_mul_right
    obtain ⟨worked, ran⟩ := issued.ran
    have driven := System.driven_run surround.setup worked
    have bounded : (InMemoryEventQueue.reached surround.setup.host surround.setup.queue
        (calls (System.run surround.setup worked).past)).entries.size ≤ surround.setup.queue.maxsize :=
      InMemoryEventQueue.size_reached _
    rw [← driven.queue, ← ran] at bounded
    simpa [queue, InMemoryEventQueue.pendingEvents, OrderedDict.values, OrderedDict.size] using bounded
  · apply (dumpedIn_le fun event member =>
      valid_in_memory surround limiter moves (.inr member)).trans
    exact Nat.mul_le_mul_right _ queue.dlq.bounded

theorem one_event_takes_little_memory :
    dumpedIn oneConsumer.pydantic
        (run oneConsumer (.create 100 100 10) onePosted).system.queue.pendingEvents ≤ 327680000 :=
  (metadata_in_memory_is_bounded oneConsumer (.create 100 100 10) onePosted).1

/-! ### What is found -/

/-- A question whose filters match what was posted, however they are spelled: a type and a URL are
compared as the code normalises them, a user as it is, and the range has the moment.  An empty text is no
filter. -/
structure AsksFor (normaliser : Normaliser) (query : ListQuery) (body : Payload) (moment : ℤ) :
    Prop where
  eventType : ∀ text ∈ given query.eventType,
    normaliser.stripLower text = normaliser.stripLower body.eventType
  userId : ∀ text ∈ given query.userId, text = body.userId
  sourceUrl : ∀ text ∈ given query.sourceUrl,
    normaliser.normaliseUrl text = normaliser.normaliseUrl body.sourceUrl
  since : ∀ since ∈ query.since, since.instant ≤ moment
  last : ∀ last ∈ query.last, moment ≤ last.instant

/-- BSON rounds the question and the answer the same way. -/
theorem readBack_le {first second : DateTime} (before : first.instant ≤ second.instant) :
    first.readBack.instant ≤ second.readBack.instant := by
  simp only [DateTime.readBack, DateTime.instant, Option.getD_none] at before ⊢
  omega

/-- The document of an accepted body matches every question for what was posted: the texts of the question
are normalised as those of the body were. -/
theorem matches_of_asks {pydantic : Pydantic} {reading : ℤ} {body : Payload} {data : EventIn}
    (accepts : EventIn.Accepts pydantic reading body data) (eventId : String) (stampedAt : ℤ)
    {query : ListQuery}
    (asks : AsksFor pydantic.normaliser query body
      (Event.fromInput eventId stampedAt data).timestamp.instant) :
    (query.filter pydantic.normaliser).readBack.Matches
      (Event.fromInput eventId stampedAt data).toDocument.readBack := by
  refine ⟨?_, ?_, ?_, ?_, ?_⟩
  · intro eventType asked
    obtain ⟨text, there, rfl⟩ := Option.mem_map.mp asked
    rw [asks.eventType text there]
    exact accepts.eventType
  · intro userId asked
    rw [asks.userId userId asked]
    exact accepts.userId
  · intro sourceUrl asked
    obtain ⟨text, there, rfl⟩ := Option.mem_map.mp asked
    rw [asks.sourceUrl text there, Normaliser.normaliseUrl, accepts.sourceUrl]
    rfl
  · intro since asked
    obtain ⟨time, there, rfl⟩ := Option.mem_map.mp asked
    exact readBack_le (asks.since time there)
  · intro last asked
    obtain ⟨time, there, rfl⟩ := Option.mem_map.mp asked
    exact readBack_le (asks.last time there)

/-- Every document of an answer is on the page that starts with it. -/
theorem listed_of_found {normaliser : Normaliser} {find : Filter → List Document}
    {query : ListQuery}
    {document : Document} (found : document ∈ find (query.filter normaliser)) {limit : ℕ}
    (some : 1 ≤ limit) :
    ∃ offset, EventQueries.toOutput document ∈
      (EventQueries.listEvents normaliser find query limit offset).items := by
  obtain ⟨offset, inside, here⟩ := List.mem_iff_getElem.mp found
  refine ⟨offset, List.mem_map_of_mem ?_⟩
  have bound : min limit maxLimit ≠ 0 := by
    unfold maxLimit
    omega
  rw [limited, if_neg bound, List.drop_eq_getElem_cons inside, here]
  obtain ⟨more, shape⟩ := Nat.exists_eq_succ_of_ne_zero bound
  rw [shape]
  exact List.mem_cons_self ..

/-- What `list_events` gives for an accepted event: the event, at its last whole millisecond. -/
theorem toOutput_of_made {surround : Surround} {body : Option Payload} {event : Event}
    (made : MadeFrom surround body event) :
    EventQueries.toOutput event.toDocument.readBack =
      { event with timestamp := ⟨event.timestamp.instant / 1000 * 1000, some 0⟩ } := by
  obtain ⟨validatedAt, stampedAt, payload, data, -, -, shape⟩ := made
  obtain ⟨wall, stamped, whole⟩ := DateTime.now_whole stampedAt
  have received : event.receivedAt = ⟨wall, some 0⟩ := by
    rw [shape]
    exact stamped
  have kept : wall / 1000 * 1000 = wall := Int.ediv_mul_cancel whole
  simp [EventQueries.toOutput, Document.toEvent, Document.readBack, DateTime.readBack,
    DateTime.replaceUtc, Event.toDocument, received, DateTime.instant, kept]

/-- Whatever was answered with a 202 and has reached MongoDB is listed for every question for what was
posted, on some page, with the fields of its event, in every state that requests and moves of the worker
lead to. -/
theorem posted_events_are_listed (surround : Surround) (limiter : RateLimiter)
    (moves : List ApiMove) (collection : Collection)
    (stored : collection.documents = (run surround limiter moves).system.mongo.values)
    (find : Filter → List Document) (finds : FindsIn collection find) {post : Post}
    (member : post ∈ (run surround limiter moves).posts) {eventId : String}
    (answer : post.answer = some (.accepted eventId))
    (present : eventId ∈ (run surround limiter moves).system.mongo.keys) :
    ∃ body event, post.body = some body ∧ MadeFrom surround (some body) event ∧
      event.eventId = eventId ∧
      ∀ query, AsksFor surround.pydantic.normaliser query body event.timestamp.instant →
        ∀ limit, 1 ≤ limit → ∃ offset,
        { event with timestamp := ⟨event.timestamp.instant / 1000 * 1000, some 0⟩ } ∈
          (EventQueries.listEvents surround.pydantic.normaliser find query limit offset).items := by
  have issued := issued_run surround limiter moves
  obtain ⟨event, listed, named, made⟩ := issued.answered post member eventId answer
  obtain ⟨validatedAt, stampedAt, body, data, posted, validated, shape⟩ := made
  have madeFrom : MadeFrom surround (some body) event :=
    ⟨validatedAt, stampedAt, body, data, rfl, validated, shape⟩
  refine ⟨body, event, posted, madeFrom, named, fun query asks limit some => ?_⟩
  rw [← toOutput_of_made madeFrom]
  apply listed_of_found _ some
  have here : eventId ∈ (run surround limiter moves).system.ids .mongodb := present
  obtain ⟨other, known, same, documents⟩ := issued.documented here
  -- the id was given to one event only
  have equal : other = event :=
    List.inj_on_of_nodup_map issued.accepted_nodup known listed (same.trans named.symm)
  subst equal
  apply (finds _).perm.mem_iff.mpr
  refine List.mem_filter.mpr ⟨List.mem_map_of_mem ?_, decide_eq_true ?_⟩
  · rw [stored]
    exact OrderedDict.mem_values.mpr ⟨eventId, documents⟩
  · rw [shape] at asks ⊢
    exact matches_of_asks (EventIn.validate_ok_iff.mp validated) _ stampedAt asks

/-- Surroundings that know one type in two cases and one URL with and without its slash. -/
def spelledTwice : Surround :=
  { oneConsumer with
    pydantic := { oneConsumer.pydantic with
      normaliser := ⟨fun text => if text = "Click" then "click" else text,
        fun url => some (if url = "https://a.io" then "https://a.io/" else url)⟩ } }

/-- What MongoDB has after one request. -/
def onlyPosted : Collection where
  documents := (run spelledTwice (.create 100 100 10) onePosted).system.mongo.values
  distinct := by with_unfolding_all exact List.nodup_singleton _

/-- The posted event is found by another spelling of its type and of its URL. -/
theorem the_posted_event_is_listed :
    ∃ event : Event, event.eventId = "1" ∧ ∃ offset,
      { event with timestamp := ⟨event.timestamp.instant / 1000 * 1000, some 0⟩ } ∈
        (EventQueries.listEvents spelledTwice.pydantic.normaliser
          (fun filter => (onlyPosted.selected filter).insertionSort
            fun one two => two.moment ≤ one.moment)
          { eventType := some "Click", userId := some "u1", sourceUrl := some "https://a.io" }
          50 offset).items := by
  have accepted : (⟨"c", some ⟨"click", "u1", "https://a.io/", none, []⟩, some (.accepted "1")⟩ : Post) ∈
      (run spelledTwice (.create 100 100 10) onePosted).posts := by
    with_unfolding_all exact List.mem_cons_self ..
  have stored : "1" ∈ (run spelledTwice (.create 100 100 10) onePosted).system.mongo.keys := by
    with_unfolding_all exact List.mem_cons_self ..
  obtain ⟨body, event, posted, -, named, found⟩ :=
    posted_events_are_listed spelledTwice (.create 100 100 10) onePosted onlyPosted rfl
      (fun filter => (onlyPosted.selected filter).insertionSort fun one two => two.moment ≤ one.moment)
      (fun filter => Paging.answers_insertionSort Document.moment (onlyPosted.selected filter))
      accepted rfl stored
  cases posted
  refine ⟨event, named, found _ ⟨?_, ?_, ?_, ?_, ?_⟩ 50 (by decide)⟩
  · simp [given, spelledTwice]
  · simp [given]
  · simp [given, spelledTwice, Normaliser.normaliseUrl]
  · simp
  · simp

end Api

end FeathrEvents
