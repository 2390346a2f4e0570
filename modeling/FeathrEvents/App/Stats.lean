/-
Module: FeathrEvents.App.Stats
Purpose: The counts of events by type and time window as the code computes them from MongoDB's aggregation.
Trusted boundary: translation by hand of `Bucket`, `_MONGO_UNIT` and `stats` in `app/queries.py`; the
  aggregation of a pipeline is a parameter.
Main exports: StatsBucket, DateUnit, DateUnit.trunc, StatsPipeline, Summary, EventQueries.stats
-/
import FeathrEvents.App.Listing

namespace FeathrEvents

/-- `Bucket`: the time granularity for `/events/stats`. -/
inductive StatsBucket where
  | hourly
  | daily
  | weekly
deriving DecidableEq

/-- The units of `$dateTrunc` that are used. -/
inductive DateUnit where
  | hour
  | day
  | week
deriving DecidableEq

/-- `_MONGO_UNIT`. -/
def StatsBucket.mongoUnit : StatsBucket → DateUnit
  | .hourly => .hour
  | .daily => .day
  | .weekly => .week

namespace DateUnit

/-- The length of a unit in microseconds. -/
def width : DateUnit → ℤ
  | .hour => 3600000000
  | .day => 86400000000
  | .week => 604800000000

/-- How long before 0001-01-01, a Monday, the unit began that contains it.  The weeks of MongoDB start on
Sunday. -/
def lead : DateUnit → ℤ
  | .hour | .day => 0
  | .week => 86400000000

/-- `$dateTrunc`: the start of the unit that contains a moment. -/
def trunc (unit : DateUnit) (time : DateTime) : DateTime :=
  ⟨(time.instant + unit.lead) / unit.width * unit.width - unit.lead, none⟩

end DateUnit

/-- A query document with no keys. -/
def Filter.isEmpty (filter : Filter) : Bool :=
  filter.eventType.isNone && filter.userId.isNone && filter.sourceUrl.isNone && filter.gte.isNone &&
    filter.lte.isNone

/-- The pipeline of `stats`: a `$match`, if any, before it groups by unit and type, sorts and projects. -/
structure StatsPipeline where
  matching : Option Filter
  unit : DateUnit

/-- What `stats` returns. -/
structure Summary where
  bucket : StatsBucket
  total : ℕ
  buckets : List Row

/-- `stats`, given MongoDB's answer to the pipeline; `last` is its argument `until`. -/
def EventQueries.stats (normaliser : Normaliser) (aggregate : StatsPipeline → Except Exn (List Row))
    (bucket : StatsBucket) (since last : Option DateTime) (eventType : Option String) :
    Except Exn Summary := do
  let query := filter normaliser eventType none none since last
  let rows ← aggregate
    { matching := if query.isEmpty then none else some query, unit := bucket.mongoUnit }
  .ok { bucket := bucket, total := (rows.map Row.count).sum, buckets := rows }

end FeathrEvents
