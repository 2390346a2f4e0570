/-
Module: FeathrEvents.Proofs.DocumentReads
Purpose: The two reads of one event: which moments `list_events` and `search` give for it once it is in
  both stores, and when they are the same.
Trusted boundary: none
Main exports: Event.AcceptedWith, Denotes, ReadsAgree, reads_agree_iff
-/
import FeathrEvents.App.Documents
import FeathrEvents.Lib.Traversal
import FeathrEvents.Proofs.WorkerConvergence

namespace FeathrEvents

open Collections (OrderedDict)

/-- The event was made from a payload with this timestamp, which was accepted; without one it has
the time of its arrival. -/
def Event.AcceptedWith (event : Event) (sent : Option DateTime) : Prop :=
  ∃ checkedAt acceptedAt data, EventIn.boundTheFuture checkedAt sent = .ok data.timestamp ∧
    event = Event.fromInput event.eventId acceptedAt data

/-- How pydantic writes datetimes: microseconds are kept, and a datetime in UTC has a marker that a
naive one has not. -/
structure WritesTimes (text : DateTime → String) : Prop where
  keeps : Function.Injective fun wall => text ⟨wall, some 0⟩
  marks : ∀ wall other, text ⟨wall, some 0⟩ ≠ text ⟨other, none⟩

/-- Whole milliseconds, as far as a timestamp was sent.  MongoDB keeps no more than these, and the
index keeps the text that it is given. -/
def WholeMillis (sent : Option DateTime) : Prop := ∀ time ∈ sent, 1000 ∣ time.instant

instance (sent : Option DateTime) : Decidable (WholeMillis sent) :=
  inferInstanceAs (Decidable (∀ time ∈ sent, 1000 ∣ time.instant))

/-! ### What is accepted -/

/-- The server stamps whole milliseconds, in UTC. -/
theorem DateTime.now_whole (reading : ℤ) :
    ∃ wall, DateTime.now reading = ⟨wall, some 0⟩ ∧ 1000 ∣ wall := by
  refine ⟨_, rfl, ?_⟩
  omega

theorem DateTime.utc_ok {wall : ℤ} {time : DateTime} (converted : DateTime.utc wall = .ok time) :
    time = ⟨wall, some 0⟩ := by
  unfold DateTime.utc at converted
  split at converted
  · exact (Except.ok.inj converted).symm
  · cases converted

/-- A datetime comes out in UTC and denotes the same moment. -/
theorem DateTime.toUtc_ok {time converted : DateTime} (ok : time.toUtc = .ok converted) :
    converted = ⟨time.instant, some 0⟩ := by
  unfold DateTime.toUtc at ok
  split at ok
  · rename_i naive
    rw [← Except.ok.inj ok]
    simp [DateTime.replaceUtc, DateTime.instant, naive]
  · exact DateTime.utc_ok ok

/-- A timestamp that is accepted comes out in UTC and denotes the moment that was sent. -/
theorem EventIn.boundTheFuture_ok {reading : ℤ} {time : DateTime} {stamped : Option DateTime}
    (accepted : EventIn.boundTheFuture reading (some time) = .ok stamped) :
    stamped = some ⟨time.instant, some 0⟩ := by
  obtain ⟨v, converted, accepted⟩ := Traversal.bind_eq_ok.mp accepted
  obtain ⟨latest, -, accepted⟩ := Traversal.bind_eq_ok.mp accepted
  rw [DateTime.toUtc_ok converted] at accepted
  split at accepted
  · cases accepted
  · exact (Except.ok.inj accepted).symm

variable {event : Event} {sent : Option DateTime}

/-- An accepted event was received at a whole millisecond, in UTC. -/
theorem Event.AcceptedWith.received (accepted : event.AcceptedWith sent) :
    ∃ wall, event.receivedAt = ⟨wall, some 0⟩ ∧ 1000 ∣ wall := by
  obtain ⟨-, acceptedAt, data, -, made⟩ := accepted
  rw [made]
  exact DateTime.now_whole acceptedAt

/-- The timestamp of an accepted event is in UTC, and whole when what was sent is. -/
theorem Event.AcceptedWith.stamped (accepted : event.AcceptedWith sent) :
    ∃ wall, event.timestamp = ⟨wall, some 0⟩ ∧ (1000 ∣ wall ↔ WholeMillis sent) := by
  obtain ⟨checkedAt, acceptedAt, data, checked, made⟩ := accepted
  rw [made]
  cases sent with
  | none =>
      have absent : data.timestamp = none := by
        exact (Except.ok.inj checked).symm
      obtain ⟨wall, stamp, whole⟩ := DateTime.now_whole acceptedAt
      refine ⟨wall, ?_, by simp [WholeMillis, whole]⟩
      rw [Event.fromInput, absent, Option.getD_none, stamp]
  | some time =>
      refine ⟨time.instant, ?_, by simp [WholeMillis]⟩
      rw [Event.fromInput, EventIn.boundTheFuture_ok checked, Option.getD_some]

/-! ### What is read -/

/-- A field of the answer of `search` is the text of a moment. -/
def Denotes (text : DateTime → String) (field : Option Json) (instant : ℤ) : Prop :=
  ∃ time : DateTime, time.offset = some 0 ∧ time.instant = instant ∧
    field = some (.string (text time))

/-- Either store has a document under the id, and the two times that `list_events` gives for it are
those that `search` gives. -/
def ReadsAgree (text : DateTime → String) (system : System) (eventId : String) : Prop :=
  ∃ document source, system.mongo.get? eventId = some document ∧
    system.elastic.get? eventId = some source ∧ ∀ score,
      Denotes text ((EventQueries.searchItem eventId score source).get? "timestamp")
        (EventQueries.toOutput document.readBack).timestamp.instant ∧
      Denotes text ((EventQueries.searchItem eventId score source).get? "received_at")
        (EventQueries.toOutput document.readBack).receivedAt.instant

/-- A field of the source is a field of the answer. -/
theorem EventQueries.searchItem_get? {source : OrderedDict String Json} {name : String}
    {value : Json}
    (field : source.get? name = some value) (eventId : String) (score : ℚ) :
    (EventQueries.searchItem eventId score source).get? name = some value := by
  have listed := OrderedDict.get?_eq_some.mp field
  apply OrderedDict.get?_foldl_set Prod.fst Prod.snd source.items _ listed
  rintro ⟨other, stored⟩ member same
  cases same
  have here := OrderedDict.get?_eq_some.mpr member
  rw [field] at here
  cases here
  rfl

/-- `list_events` gives a time in UTC, at the last whole millisecond. -/
theorem EventQueries.instant_toOutput (document : Document) :
    (EventQueries.toOutput document.readBack).timestamp.instant =
        document.timestamp.instant / 1000 * 1000 ∧
      (EventQueries.toOutput document.readBack).receivedAt.instant =
        document.receivedAt.instant / 1000 * 1000 := by
  simp [EventQueries.toOutput, Document.toEvent, Document.readBack, DateTime.readBack,
    DateTime.replaceUtc, DateTime.instant]

theorem Event.get?_modelDump (text : DateTime → String) (event : Event) :
    ((event.modelDump text).erase "event_id").get? "timestamp" =
        some (.string (text event.timestamp)) ∧
      ((event.modelDump text).erase "event_id").get? "received_at" =
        some (.string (text event.receivedAt)) := by
  rw [OrderedDict.get?_erase, if_neg (by decide), OrderedDict.get?_erase, if_neg (by decide)]
  exact ⟨rfl, rfl⟩

theorem denotes_iff {text : DateTime → String} (writes : WritesTimes text) {wall instant : ℤ} :
    Denotes text (some (.string (text ⟨wall, some 0⟩))) instant ↔ wall = instant := by
  constructor
  · rintro ⟨⟨other, offset⟩, rfl, rfl, same⟩
    have texts : text ⟨wall, some 0⟩ = text ⟨other, some 0⟩ := Json.string.inj (Option.some.inj same)
    rw [writes.keeps texts]
    simp [DateTime.instant]
  · rintro rfl
    exact ⟨⟨wall, some 0⟩, rfl, by simp [DateTime.instant], rfl⟩

/-- The reads of an accepted event that both stores have agree when its timestamp is whole. -/
theorem agree_iff_of_documents {text : DateTime → String} (writes : WritesTimes text)
    {setup : Setup}
    (dumps : ∀ event, setup.host.modelDump event = event.modelDump text)
    (accepted : event.AcceptedWith sent) {system : System}
    (documents : ∀ sink, System.Documents setup system event.eventId event sink) :
    ReadsAgree text system event.eventId ↔ WholeMillis sent := by
  obtain ⟨stamp, stamped, whole⟩ := accepted.stamped
  obtain ⟨reception, received, millis⟩ := accepted.received
  have stored : system.mongo.get? event.eventId = some event.toDocument := documents .mongodb
  have indexed : system.elastic.get? event.eventId =
      some ((event.modelDump text).erase "event_id") := by
    rw [← dumps]
    exact documents .elasticsearch
  obtain ⟨listedTimestamp, listedReceivedAt⟩ := EventQueries.instant_toOutput event.toDocument
  obtain ⟨timestamp, receivedAt⟩ := event.get?_modelDump text
  have stampInstant : event.toDocument.timestamp.instant = stamp := by
    rw [Event.toDocument, stamped]
    exact sub_zero stamp
  have receptionInstant : event.toDocument.receivedAt.instant = reception := by
    rw [Event.toDocument, received]
    exact sub_zero reception
  rw [stamped] at timestamp
  rw [received] at receivedAt
  -- the answer of `search` is exact, that of `list_events` is rounded down
  have agree : ∀ score,
      Denotes text ((EventQueries.searchItem event.eventId score
          ((event.modelDump text).erase "event_id")).get? "timestamp")
        (EventQueries.toOutput event.toDocument.readBack).timestamp.instant ∧
      Denotes text ((EventQueries.searchItem event.eventId score
          ((event.modelDump text).erase "event_id")).get? "received_at")
        (EventQueries.toOutput event.toDocument.readBack).receivedAt.instant ↔
      stamp = stamp / 1000 * 1000 ∧ reception = reception / 1000 * 1000 := by
    intro score
    rw [EventQueries.searchItem_get? timestamp, EventQueries.searchItem_get? receivedAt,
      listedTimestamp, listedReceivedAt, stampInstant, receptionInstant, denotes_iff writes,
      denotes_iff writes]
  have millisOnly : stamp = stamp / 1000 * 1000 ∧ reception = reception / 1000 * 1000 ↔
      1000 ∣ stamp := by omega
  rw [← whole, ← millisOnly]
  constructor
  · rintro ⟨document, source, found, hit, reads⟩
    cases stored.symm.trans found
    cases indexed.symm.trans hit
    exact (agree 0).mp (reads 0)
  · intro same
    exact ⟨_, _, stored, indexed, fun score => (agree score).mpr same⟩

/-- The two reads of an accepted event, once it is in both stores, give the same times exactly when it
was sent without a timestamp or with one in whole milliseconds. -/
theorem reads_agree_iff (text : DateTime → String) (writes : WritesTimes text) (setup : Setup)
    (dumps : ∀ event, setup.host.modelDump event = event.modelDump text) (moves : List Move)
    (event : Event) (sent : Option DateTime) (accepted : event.AcceptedWith sent)
    (written : System.Written setup moves event) :
    ReadsAgree text (System.run setup moves) event.eventId ↔ WholeMillis sent :=
  agree_iff_of_documents writes dumps accepted written.documents

/-! ### A timestamp in microseconds -/

/-- A wall-clock reading in tallies. -/
def tallies (wall : ℤ) : List Char :=
  List.replicate wall.toNat '1' ++ List.replicate (-wall).toNat '-'

/-- Two wall-clock readings of one second as they are written, and all others in tallies. -/
def sampleClock (wall : ℤ) : List Char :=
  if wall = 63923752643173930 then "2026-08-31T05:57:23.173930".toList
  else if wall = 63923752643173000 then "2026-08-31T05:57:23.173000".toList
  else tallies wall

/-- The text of a naive datetime or one in UTC, for runs on concrete inputs. -/
def sampleText (time : DateTime) : String :=
  String.ofList (sampleClock time.wall ++ if time.offset = none then [] else ['Z'])

theorem tallies_ne (wall : ℤ) {written : List Char} (one : '1' ∈ written) (dash : '-' ∈ written) :
    written ≠ tallies wall := by
  rintro rfl
  simp only [tallies, List.mem_append, List.mem_replicate] at one dash
  simp at one dash
  omega

theorem tallies_injective : Function.Injective tallies := by
  intro first second same
  have ones := congrArg (List.count '1') same
  have dashes := congrArg (List.count '-') same
  simp [tallies, List.count_append, List.count_replicate] at ones dashes
  omega

theorem sampleClock_injective : Function.Injective sampleClock := by
  intro first second same
  unfold sampleClock at same
  split_ifs at same with one two three four five six
  · rw [one, two]
  · exact absurd same (by decide)
  · exact absurd same (tallies_ne second (by decide) (by decide))
  · exact absurd same (by decide)
  · rw [four, six]
  · exact absurd same (tallies_ne second (by decide) (by decide))
  · exact absurd same.symm (tallies_ne first (by decide) (by decide))
  · exact absurd same.symm (tallies_ne first (by decide) (by decide))
  · exact tallies_injective same

theorem sampleText_writes : WritesTimes sampleText where
  keeps first second same := by
    have texts := String.ofList_inj.mp same
    exact sampleClock_injective (List.append_cancel_right texts)
  marks wall other same := by
    have texts : sampleClock wall ++ ['Z'] = sampleClock other ++ [] := String.ofList_inj.mp same
    have marked : 'Z' ∈ sampleClock other := by
      rw [List.append_nil] at texts
      rw [← texts]
      simp
    unfold sampleClock at marked
    split_ifs at marked
    · revert marked
      decide
    · revert marked
      decide
    · simp [tallies] at marked

/-- A process whose pydantic writes times as the sample text. -/
def stampedSetup : Setup where
  host := { countingHost fun event => some event.eventId with
    modelDump := Event.modelDump sampleText }
  queue := {}
  worker := { concurrency := 1 }

/-- A payload with this timestamp, accepted and stamped in the same microsecond. -/
def sampleAccepted (eventId : String) (timestamp : Option DateTime) : Event :=
  .fromInput eventId 63923752643173930 ⟨"click", "u1", "https://example.com/", timestamp, []⟩

/-- The server stamps one event, and the client sends another with a timestamp in microseconds. -/
def stampedEvent : Event := sampleAccepted "a" none

def preciseEvent : Event := sampleAccepted "b" (some ⟨63923752643173930, some 0⟩)

/-- Both are written to both stores and deleted. -/
def bothWritten : List Move :=
  [.send stampedEvent, .send preciseEvent, .start, .turn 0 none 0 0 0, .heartbeat 0 0, .land 0,
    .returned 0, .land 1, .returned 0, .ack 0, .heartbeat 0 0, .land 2, .returned 0, .land 3,
    .returned 0, .ack 0]

theorem past_bothWritten :
    (System.run stampedSetup bothWritten).past =
      [.called none (.send stampedEvent), .called none (.send preciseEvent),
        .called (some 0) (.receive 10 none 0 0), .received 0 false ⟨stampedEvent, "111", 1⟩,
        .received 0 false ⟨preciseEvent, "1111", 1⟩,
        .called (some 0) (.changeVisibility "111" 30 0),
        .began 0 .mongodb ⟨stampedEvent, "111", 1⟩, .returned 0 .mongodb ⟨stampedEvent, "111", 1⟩,
        .began 0 .elasticsearch ⟨stampedEvent, "111", 1⟩,
        .returned 0 .elasticsearch ⟨stampedEvent, "111", 1⟩,
        .recordedSuccess 0 ⟨stampedEvent, "111", 1⟩, .called (some 0) (.delete "111"),
        .called (some 0) (.changeVisibility "1111" 30 0),
        .began 0 .mongodb ⟨preciseEvent, "1111", 1⟩,
        .returned 0 .mongodb ⟨preciseEvent, "1111", 1⟩,
        .began 0 .elasticsearch ⟨preciseEvent, "1111", 1⟩,
        .returned 0 .elasticsearch ⟨preciseEvent, "1111", 1⟩,
        .recordedSuccess 0 ⟨preciseEvent, "1111", 1⟩, .called (some 0) (.delete "1111")] := by
  with_unfolding_all rfl

theorem sent_bothWritten {event : Event}
    (sent : .send event ∈ calls (System.run stampedSetup bothWritten).past) :
    event = stampedEvent ∨ event = preciseEvent := by
  rw [past_bothWritten] at sent
  simpa [calls, Happening.call?] using sent

/-- An event is written when its two writes returned and the other event has another id. -/
theorem written_bothWritten {event : Event} (handle : String)
    (returned : ∀ sink, .returned 0 sink ⟨event, handle, 1⟩ ∈
      (System.run stampedSetup bothWritten).past)
    (own : ∀ other, other = stampedEvent ∨ other = preciseEvent →
      other.eventId = event.eventId → other = event) :
    System.Written stampedSetup bothWritten event where
  landed sink := (System.stored_run stampedSetup bothWritten).returned 0 sink _ (returned sink)
  own other sent := own other (sent_bothWritten sent)

theorem written_stampedEvent : System.Written stampedSetup bothWritten stampedEvent := by
  apply written_bothWritten "111"
  · intro sink
    rw [past_bothWritten]
    cases sink <;> simp
  · rintro other (rfl | rfl) same
    · rfl
    · exact absurd same (by decide)

theorem written_preciseEvent : System.Written stampedSetup bothWritten preciseEvent := by
  apply written_bothWritten "1111"
  · intro sink
    rw [past_bothWritten]
    cases sink <;> simp
  · rintro other (rfl | rfl) same
    · exact absurd same (by decide)
    · rfl

theorem accepted_preciseEvent : preciseEvent.AcceptedWith (some ⟨63923752643173930, some 0⟩) :=
  ⟨63923752643173930, _, _, by rfl, rfl⟩

theorem a_stamped_event_reads_the_same :
    ReadsAgree sampleText (System.run stampedSetup bothWritten) "a" :=
  (reads_agree_iff sampleText sampleText_writes stampedSetup (fun _ => rfl) bothWritten stampedEvent
    none ⟨0, _, _, rfl, rfl⟩ written_stampedEvent).mpr (by decide)

theorem a_precise_timestamp_reads_differently :
    preciseEvent.AcceptedWith (some ⟨63923752643173930, some 0⟩) ∧
      System.Written stampedSetup bothWritten preciseEvent ∧
      ¬ ReadsAgree sampleText (System.run stampedSetup bothWritten) "b" := by
  refine ⟨accepted_preciseEvent, written_preciseEvent, fun agree => ?_⟩
  have whole := (agree_iff_of_documents sampleText_writes (fun _ => rfl) accepted_preciseEvent
    written_preciseEvent.documents).mp agree
  exact absurd whole (by decide)

end FeathrEvents
