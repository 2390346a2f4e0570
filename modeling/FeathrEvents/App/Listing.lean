/-
Module: FeathrEvents.App.Listing
Purpose: The listing of events as the code computes it from the cursor of MongoDB.
Trusted boundary: translation by hand of `list_events` in `app/queries.py`; what MongoDB finds for a
  filter, sorted by timestamp, is a parameter.
Main exports: maxLimit, Collection, Collection.selected, FindsIn, ListQuery, Listing,
  EventQueries.listEvents
-/
import FeathrEvents.App.Documents
import FeathrEvents.App.LiveSummary
import FeathrEvents.Lib.Paging

namespace FeathrEvents

/-- `MAX_LIMIT`. -/
def maxLimit : ℕ := 500

/-- A MongoDB collection of events. -/
structure Collection where
  documents : List Document
  distinct : (documents.map Document.id).Nodup

/-- A query document as BSON holds it. -/
def Filter.readBack (filter : Filter) : Filter :=
  { filter with
    gte := filter.gte.map DateTime.readBack
    lte := filter.lte.map DateTime.readBack }

/-- The documents that match a filter, as MongoDB holds them and gives them back. -/
def Collection.selected (collection : Collection) (filter : Filter) : List Document :=
  (collection.documents.map Document.readBack).filter fun document =>
    filter.readBack.Matches document

/-- The sort key of the listing. -/
def Document.moment (document : Document) : ℤ := document.timestamp.instant

/-- MongoDB's answer to `find` and `sort("timestamp", -1)`: what matches, newest first, and in any order
where the timestamps are equal. -/
def FindsIn (collection : Collection) (find : Filter → List Document) : Prop :=
  ∀ filter, Paging.Answers Document.moment (collection.selected filter) (find filter)

/-- The arguments of `list_events` that say which events; `last` is its argument `until`. -/
structure ListQuery where
  eventType : Option String := none
  userId : Option String := none
  sourceUrl : Option String := none
  since : Option DateTime := none
  last : Option DateTime := none

/-- What `list_events` returns. -/
structure Listing where
  items : List Event
  count : ℕ
  limit : ℕ
  offset : ℕ

/-- The documents of a cursor with a limit; 0 is no limit. -/
def limited (limit : ℕ) (documents : List Document) : List Document :=
  if limit = 0 then documents else documents.take limit

def ListQuery.filter (normaliser : Normaliser) (query : ListQuery) : Filter :=
  EventQueries.filter normaliser query.eventType query.userId query.sourceUrl query.since query.last

/-- `list_events`, given what MongoDB finds. -/
def EventQueries.listEvents (normaliser : Normaliser) (find : Filter → List Document)
    (query : ListQuery) (limit offset : ℕ) : Listing :=
  let limit := min limit maxLimit
  let docs := (limited limit ((find (query.filter normaliser)).drop offset)).map toOutput
  { items := docs, count := docs.length, limit := limit, offset := offset }

end FeathrEvents
