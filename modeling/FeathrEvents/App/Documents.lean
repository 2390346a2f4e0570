/-
Module: FeathrEvents.App.Documents
Purpose: The document of an event on its way through the stores: pydantic's JSON dump, what MongoDB gives
  back, the two reads of the API, and the loop that rebuilds the index.
Trusted boundary: translation by hand of `_to_output` and `search` in `app/queries.py` and of
  `scripts/reindex.py`; `readBack` is what pymongo returns for what it was given.
Main exports: Event.modelDump, Document.readBack, Document.toEvent, EventQueries.toOutput,
  EventQueries.searchItem, reindex
-/
import FeathrEvents.App.Worker

namespace FeathrEvents

open Collections (OrderedDict)

/-- `event.model_dump(mode="json")` where `text` is how pydantic writes a datetime. -/
def Event.modelDump (text : DateTime → String) (event : Event) : OrderedDict String Json where
  items := [
    ("event_id", .string event.eventId),
    ("event_type", .string event.eventType),
    ("user_id", .string event.userId),
    ("source_url", .string event.sourceUrl),
    ("timestamp", .string (text event.timestamp)),
    ("received_at", .string (text event.receivedAt)),
    ("metadata", .object event.metadata)]
  distinct := by
    simp only [List.map_cons, List.map_nil]
    decide

/-- What MongoDB gives back for a datetime: its UTC reading in whole milliseconds, with no offset. -/
def DateTime.readBack (time : DateTime) : DateTime := ⟨time.instant / 1000 * 1000, none⟩

/-- What MongoDB gives back for a document. -/
def Document.readBack (document : Document) : Document :=
  { document with
    timestamp := document.timestamp.readBack
    receivedAt := document.receivedAt.readBack }

/-- `Event(**doc)` once `_id` is renamed to `event_id`. -/
def Document.toEvent (document : Document) : Event where
  eventId := document.id
  eventType := document.eventType
  userId := document.userId
  sourceUrl := document.sourceUrl
  timestamp := document.timestamp
  receivedAt := document.receivedAt
  metadata := document.metadata

namespace EventQueries

/-- `_to_output`: what it returns has the fields of an event. -/
def toOutput (document : Document) : Event :=
  let output := document.toEvent
  let restore (time : DateTime) := if time.offset = none then time.replaceUtc else time
  { output with
    timestamp := restore output.timestamp
    receivedAt := restore output.receivedAt }

/-- An item of the answer of `search`, from the id, the score and the source of a hit. -/
def searchItem (eventId : String) (score : ℚ) (source : OrderedDict String Json) :
    OrderedDict String Json :=
  source.items.foldl (fun item field => item.set field.1 field.2)
    ((OrderedDict.empty.set "event_id" (.string eventId)).set "score" (.number score))

end EventQueries

/-- The loop of `scripts/reindex.py` over what the collection gives back, with `ElasticEventIndex.index`
for each event. -/
def reindex (host : Host) (documents : List Document)
    (index : OrderedDict String (OrderedDict String Json)) :
    OrderedDict String (OrderedDict String Json) :=
  documents.foldl
    (fun index document =>
      let event := document.readBack.toEvent
      index.set event.eventId ((host.modelDump event).erase "event_id"))
    index

/-- `scripts/reindex.py`, which drops the index first when it is told to `--recreate` it. -/
def System.reindexed (setup : Setup) (recreate : Bool) (system : System) : System :=
  { system with
    elastic := reindex setup.host system.mongo.values
      (if recreate then .empty else system.elastic) }

end FeathrEvents
