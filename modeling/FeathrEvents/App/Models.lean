/-
Module: FeathrEvents.App.Models
Purpose: What a client sends and how its timestamp is checked, and the event as it travels through the
  queue and into the stores.
Trusted boundary: translation by hand of `app/models.py`
Main exports: Json, DateTime, EventIn, EventIn.boundTheFuture, Event, Event.fromInput, Document,
  Event.toDocument
-/
import Mathlib.Data.Rat.Defs
import FeathrEvents.Lib.OrderedDict

namespace FeathrEvents

/-- The JSON values that `metadata: dict[str, Any]` can hold. -/
inductive Json where
  | null
  | bool (value : Bool)
  | number (value : ℚ)
  | string (value : String)
  | array (elements : List Json)
  | object (members : List (String × Json))

/-- A `datetime`: the wall-clock reading in microseconds from 0001-01-01T00:00, and the offset from
UTC in microseconds when it is aware. -/
structure DateTime where
  wall : ℤ
  offset : Option ℤ
deriving DecidableEq

/-- What a timestamp is refused with.  Pydantic makes a 422 of a `ValueError`. -/
inductive TimestampError where
  | valueError (text : String)
  | overflowError
deriving DecidableEq

namespace DateTime

/-- The moment that a datetime denotes, as a reading of a UTC clock; a naive one is read as UTC. -/
def instant (time : DateTime) : ℤ := time.wall - time.offset.getD 0

/-- The first reading that no datetime can hold: the year 10000. -/
def endOfTime : ℤ := 315537897600000000

/-- `replace(tzinfo=UTC)`. -/
def replaceUtc (time : DateTime) : DateTime := { time with offset := some 0 }

/-- A datetime with this wall-clock reading in UTC; arithmetic that leaves the years 1 to 9999 raises. -/
def utc (wall : ℤ) : Except TimestampError DateTime :=
  if 0 ≤ wall ∧ wall < endOfTime then .ok ⟨wall, some 0⟩ else .error .overflowError

/-- `astimezone(UTC)` of an aware datetime. -/
def astimezoneUtc (time : DateTime) : Except TimestampError DateTime := utc time.instant

/-- A naive datetime is read as UTC and made explicit; an aware one is converted to UTC. -/
def toUtc (time : DateTime) : Except TimestampError DateTime :=
  if time.offset = none then .ok time.replaceUtc else time.astimezoneUtc

/-- `_now`: what `datetime.now(UTC)` reads, truncated to the millisecond. -/
def now (reading : ℤ) : DateTime :=
  let microsecond := reading % 1000000
  ⟨reading - microsecond + microsecond / 1000 * 1000, some 0⟩

end DateTime

/-- `FUTURE_SKEW`: five minutes. -/
def futureSkew : ℤ := 300000000

/-- `EventIn`, validated: what a client sends. -/
structure EventIn where
  eventType : String
  userId : String
  sourceUrl : String
  timestamp : Option DateTime
  metadata : List (String × Json)

/-- `EventIn._bound_the_future` with the clock reading that it takes. -/
def EventIn.boundTheFuture (reading : ℤ) :
    Option DateTime → Except TimestampError (Option DateTime)
  | none => .ok none
  | some v => do
      let v ← v.toUtc
      let latest ← DateTime.utc ((DateTime.now reading).instant + futureSkew)
      if latest.instant < v.instant then
        .error (.valueError ("timestamp is more than " ++ toString (futureSkew / 1000000) ++
          "s in the future"))
      else .ok (some v)

/-- `Event`: the event as it travels internally. -/
structure Event where
  eventId : String
  eventType : String
  userId : String
  sourceUrl : String
  timestamp : DateTime
  receivedAt : DateTime
  metadata : List (String × Json)

/-- `Event.from_input` with the id that it draws and the clock reading that it takes. -/
def Event.fromInput (eventId : String) (reading : ℤ) (data : EventIn) : Event where
  eventId := eventId
  eventType := data.eventType
  userId := data.userId
  sourceUrl := data.sourceUrl
  timestamp := data.timestamp.getD (.now reading)
  receivedAt := .now reading
  metadata := data.metadata

/-- The MongoDB document: the dump of an event with `event_id` renamed to `_id`. -/
structure Document where
  id : String
  eventType : String
  userId : String
  sourceUrl : String
  timestamp : DateTime
  receivedAt : DateTime
  metadata : List (String × Json)

/-- `Event.to_document`. -/
def Event.toDocument (event : Event) : Document where
  id := event.eventId
  eventType := event.eventType
  userId := event.userId
  sourceUrl := event.sourceUrl
  timestamp := event.timestamp
  receivedAt := event.receivedAt
  metadata := event.metadata

end FeathrEvents
