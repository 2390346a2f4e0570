/-
Module: FeathrEvents.Proofs.DocumentReindex
Purpose: What the recovery path makes of an event that is in both stores: under the same id, the
  document of the live path without the offsets of its two times.
Trusted boundary: none
Main exports: reindex_get?, reindexed_get?, indexed_reindexed, reindex_never_rebuilds
-/
import FeathrEvents.Proofs.DocumentReads

namespace FeathrEvents

open Collections (OrderedDict)

/-- The loop leaves the document of an event under its id when no other document has that id. -/
theorem reindex_get? (host : Host) {documents : List Document} {document : Document}
    (member : document ∈ documents)
    (only : ∀ other ∈ documents, other.id = document.id → other = document)
    (index : OrderedDict String (OrderedDict String Json)) :
    (reindex host documents index).get? document.id =
      some ((host.modelDump document.readBack.toEvent).erase "event_id") :=
  OrderedDict.get?_foldl_set (fun document : Document => document.readBack.toEvent.eventId)
    (fun document => (host.modelDump document.readBack.toEvent).erase "event_id") documents index
    member only

/-- A field of the document that the index has under an id. -/
def System.indexed (system : System) (eventId name : String) : Option Json :=
  (system.elastic.get? eventId).bind fun source => source.get? name

variable {setup : Setup} {moves : List Move} {event : Event}

/-- Every document of the collection is stored under its id. -/
theorem id_of_stored {eventId : String} {document : Document}
    (stored : (System.run setup moves).mongo.get? eventId = some document) :
    document.id = eventId := by
  have listed : eventId ∈ (System.run setup moves).ids .mongodb :=
    OrderedDict.mem_keys.mpr ⟨document, stored⟩
  obtain ⟨event, -, named, documents⟩ := (System.sourced_run setup moves).present _ _ listed
  cases stored.symm.trans documents
  exact named

/-- What the recovery path leaves under the id of an event that both stores have. -/
theorem reindexed_get? (written : System.Written setup moves event) (recreate : Bool) :
    ((System.run setup moves).reindexed setup recreate).elastic.get? event.eventId =
      some ((setup.host.modelDump event.toDocument.readBack.toEvent).erase "event_id") := by
  have stored : (System.run setup moves).mongo.get? event.eventId = some event.toDocument :=
    written.documents .mongodb
  have member : event.toDocument ∈ (System.run setup moves).mongo.values :=
    OrderedDict.mem_values.mpr ⟨_, stored⟩
  apply reindex_get? setup.host member
  intro other listed same
  obtain ⟨eventId, found⟩ := OrderedDict.mem_values.mp listed
  have named : eventId = event.eventId := (id_of_stored found).symm.trans same
  rw [named, stored] at found
  exact (Option.some.inj found).symm

variable {text : DateTime → String}

/-- Apart from the two times the recovery path writes what the live path wrote. -/
theorem indexed_reindexed (dumps : ∀ event, setup.host.modelDump event = event.modelDump text)
    (written : System.Written setup moves event) (recreate : Bool) {name : String}
    (otherwise : name ≠ "timestamp" ∧ name ≠ "received_at") :
    ((System.run setup moves).reindexed setup recreate).indexed event.eventId name =
      (System.run setup moves).indexed event.eventId name := by
  have live : (System.run setup moves).elastic.get? event.eventId =
      some ((setup.host.modelDump event).erase "event_id") := written.documents .elasticsearch
  rw [System.indexed, System.indexed, reindexed_get? written, live, dumps, dumps]
  simp only [Option.bind_some, OrderedDict.get?_erase]
  congr 1
  simp [OrderedDict.get?, Event.modelDump, List.find?_cons, Event.toDocument, Document.readBack,
    Document.toEvent, Ne.symm otherwise.1, Ne.symm otherwise.2]

/-- No document keeps the offset of the time at which its event was received. -/
theorem rebuilt_ne_live (writes : WritesTimes text) {sent : Option DateTime}
    (accepted : event.AcceptedWith sent) :
    (event.toDocument.readBack.toEvent.modelDump text).erase "event_id" ≠
      (event.modelDump text).erase "event_id" := by
  intro same
  obtain ⟨wall, received, -⟩ := accepted.received
  have live := (event.get?_modelDump text).2
  have rebuilt := (event.toDocument.readBack.toEvent.get?_modelDump text).2
  rw [same, live, received] at rebuilt
  exact writes.marks _ _ (Json.string.inj (Option.some.inj rebuilt))

/-- The recovery path never writes the document of the live path: its times have lost their offset,
since the driver returns naive datetimes and the script does not attach one as `list_events` does. -/
theorem reindex_never_rebuilds (text : DateTime → String) (writes : WritesTimes text)
    (setup : Setup)
    (dumps : ∀ event, setup.host.modelDump event = event.modelDump text) (moves : List Move)
    (event : Event) (sent : Option DateTime) (accepted : event.AcceptedWith sent)
    (written : System.Written setup moves event) (recreate : Bool) :
    ((System.run setup moves).elastic.get? event.eventId).isSome ∧
      (((System.run setup moves).reindexed setup recreate).elastic.get? event.eventId).isSome ∧
      ((System.run setup moves).reindexed setup recreate).elastic.get? event.eventId ≠
        (System.run setup moves).elastic.get? event.eventId := by
  have live : (System.run setup moves).elastic.get? event.eventId =
      some ((setup.host.modelDump event).erase "event_id") := written.documents .elasticsearch
  rw [live, reindexed_get? written, dumps, dumps]
  refine ⟨rfl, rfl, fun same => ?_⟩
  exact rebuilt_ne_live writes accepted (Option.some.inj same)

theorem a_recreated_index_is_another :
    ((System.run stampedSetup bothWritten).elastic.get? "a").isSome ∧
      (((System.run stampedSetup bothWritten).reindexed stampedSetup true).elastic.get? "a").isSome ∧
      ((System.run stampedSetup bothWritten).reindexed stampedSetup true).elastic.get? "a" ≠
        (System.run stampedSetup bothWritten).elastic.get? "a" :=
  reindex_never_rebuilds sampleText sampleText_writes stampedSetup (fun _ => rfl) bothWritten
    stampedEvent none ⟨0, _, _, rfl, rfl⟩ written_stampedEvent true

/-- The live path wrote an offset, and the recovery path does not. -/
theorem a_rebuilt_document_lost_its_offset :
    stampedEvent.AcceptedWith none ∧ System.Written stampedSetup bothWritten stampedEvent ∧
      (System.run stampedSetup bothWritten).indexed "a" "received_at" =
        some (.string "2026-08-31T05:57:23.173000Z") ∧
      ((System.run stampedSetup bothWritten).reindexed stampedSetup false).indexed "a" "received_at" =
        some (.string "2026-08-31T05:57:23.173000") := by
  refine ⟨⟨0, _, _, rfl, rfl⟩, written_stampedEvent, ?_, ?_⟩
  · have live : (System.run stampedSetup bothWritten).elastic.get? "a" =
        some ((stampedEvent.modelDump sampleText).erase "event_id") :=
      written_stampedEvent.documents .elasticsearch
    rw [System.indexed, live, Option.bind_some, (stampedEvent.get?_modelDump sampleText).2]
    exact congrArg (some ∘ Json.string) (by decide)
  · have rebuilt : ((System.run stampedSetup bothWritten).reindexed stampedSetup false).elastic.get?
        "a" = some ((stampedEvent.toDocument.readBack.toEvent.modelDump sampleText).erase
          "event_id") := reindexed_get? written_stampedEvent false
    rw [System.indexed, rebuilt, Option.bind_some, (Event.get?_modelDump sampleText _).2]
    exact congrArg (some ∘ Json.string) (by decide)

end FeathrEvents
