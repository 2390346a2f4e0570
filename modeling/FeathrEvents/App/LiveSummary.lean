/-
Module: FeathrEvents.App.LiveSummary
Purpose: The live summary of recent events as the code computes it from the rows of MongoDB's aggregation,
  and the route that serves it from the cache.
Trusted boundary: translation by hand of `_filter` and `live_summary` in `app/queries.py`, of
  `StatsCache` and of `stats_realtime`.  The aggregation, `json.loads`, `str.strip().lower()` and
  pydantic's `HttpUrl` are parameters.
Main exports: Normaliser, Filter, Filter.Matches, EventQueries.filter, dateTrunc, Row, LiveSummary,
  EventQueries.liveSummary, Loaded, StatsCache.get, statsRealtime, asTyped, noRows
-/
import Mathlib.Data.List.Sort
import Mathlib.Data.String.Basic
import FeathrEvents.Lib.Histogram
import FeathrEvents.App.Host

namespace FeathrEvents

open Collections (OrderedDict)

/-! ### Filters -/

/-- How filter values are normalised: `strip().lower()`, and `HttpUrl`, `none` where pydantic refuses
the text. -/
structure Normaliser where
  stripLower : String → String
  httpUrl : String → Option String

/-- `_normalise_url`. -/
def Normaliser.normaliseUrl (normaliser : Normaliser) (raw : String) : String :=
  (normaliser.httpUrl raw).getD raw

/-- The query document that `_filter` builds; a `none` is a key that is not there. -/
structure Filter where
  eventType : Option String := none
  userId : Option String := none
  sourceUrl : Option String := none
  gte : Option DateTime := none
  lte : Option DateTime := none

/-- What MongoDB selects: equality on the fields, and a range of moments. -/
def Filter.Matches (filter : Filter) (document : Document) : Prop :=
  (∀ eventType ∈ filter.eventType, document.eventType = eventType) ∧
  (∀ userId ∈ filter.userId, document.userId = userId) ∧
  (∀ sourceUrl ∈ filter.sourceUrl, document.sourceUrl = sourceUrl) ∧
  (∀ since ∈ filter.gte, since.instant ≤ document.timestamp.instant) ∧
  ∀ last ∈ filter.lte, document.timestamp.instant ≤ last.instant

instance (filter : Filter) (document : Document) : Decidable (filter.Matches document) :=
  inferInstanceAs (Decidable ((∀ eventType ∈ filter.eventType, document.eventType = eventType) ∧
    (∀ userId ∈ filter.userId, document.userId = userId) ∧
    (∀ sourceUrl ∈ filter.sourceUrl, document.sourceUrl = sourceUrl) ∧
    (∀ since ∈ filter.gte, since.instant ≤ document.timestamp.instant) ∧
    ∀ last ∈ filter.lte, document.timestamp.instant ≤ last.instant))

/-- An argument that is given: neither `None` nor the empty string. -/
def given (argument : Option String) : Option String := argument.filter (· ≠ "")

/-- `_filter`; `last` is its argument `until`. -/
def EventQueries.filter (normaliser : Normaliser) (eventType userId sourceUrl : Option String)
    (since last : Option DateTime) : Filter where
  eventType := (given eventType).map normaliser.stripLower
  userId := given userId
  sourceUrl := (given sourceUrl).map normaliser.normaliseUrl
  gte := since
  lte := last

/-! ### The window -/

namespace DateTime

/-- `datetime.now(UTC).replace(tzinfo=None, microsecond=0)`. -/
def thisSecond (reading : ℤ) : DateTime := ⟨reading - reading % 1000000, none⟩

/-- The attribute `second`. -/
def second (time : DateTime) : ℤ := time.wall / 1000000 % 60

/-- `time - timedelta(seconds=seconds)`; it raises when it leaves the years 1 to 9999. -/
def minusSeconds (time : DateTime) (seconds : ℤ) : Except Exn DateTime :=
  if 0 ≤ time.wall - seconds * 1000000 ∧ time.wall - seconds * 1000000 < endOfTime then
    .ok { time with wall := time.wall - seconds * 1000000 }
  else .error .overflowError

/-- 2000-01-01T00:00:00Z. -/
def truncEpoch : ℤ := 63082281600000000

end DateTime

/-- `$dateTrunc` with the unit second: down to a multiple of `binSize` seconds from the year 2000. -/
def dateTrunc (binSize : ℤ) (time : DateTime) : DateTime :=
  ⟨DateTime.truncEpoch +
    (time.instant - DateTime.truncEpoch) / (binSize * 1000000) * (binSize * 1000000), none⟩

/-- A row of the aggregation: its `_id` and its `count`. -/
structure Row where
  bin : DateTime
  eventType : String
  count : ℕ
deriving DecidableEq

/-- The `_id` of a row. -/
def Row.key (row : Row) : DateTime × String := (row.bin, row.eventType)

structure SeriesEntry where
  eventType : String
  total : ℕ
  counts : List ℕ
deriving DecidableEq

/-- What `live_summary` returns; `last` is its key `until`. -/
structure LiveSummary where
  since : DateTime
  last : DateTime
  windowSeconds : ℤ
  binSeconds : ℤ
  total : ℕ
  series : List SeriesEntry
deriving DecidableEq

/-- `LIVE_WINDOW_SECONDS`. -/
def liveWindowSeconds : ℤ := 300

/-- `LIVE_BIN_SECONDS`. -/
def liveBinSeconds : ℤ := 2

/-- MongoDB's answer to `$match` and `$group`, for a filter and a bin size in seconds. -/
abbrev Aggregate := Filter → ℤ → Except Exn (List Row)

namespace EventQueries

/-- The slot of a bin: `int((bin - since).total_seconds()) // bin_seconds`. -/
def slotOf (since : DateTime) (binSeconds : ℤ) (bin : DateTime) : ℤ :=
  ((bin.wall - since.wall).tdiv 1000000).fdiv binSeconds

/-- The loop over the rows, which skips those outside the slots. -/
def perType (since : DateTime) (binSeconds slots : ℤ) (rows : List Row) :
    OrderedDict String (List ℕ) :=
  rows.foldl
    (fun perType row =>
      let index := slotOf since binSeconds row.bin
      if 0 ≤ index ∧ index < slots then
        Histogram.add slots.toNat perType ⟨row.eventType, index.toNat, row.count⟩
      else perType)
    .empty

/-- The series, sorted by name. -/
def series (perType : OrderedDict String (List ℕ)) : List SeriesEntry :=
  (perType.items.insertionSort fun one two => one.1 ≤ two.1).map fun item =>
    { eventType := item.1, total := item.2.sum, counts := item.2 }

/-- `live_summary`, with its clock reading in microseconds. -/
def liveSummary (normaliser : Normaliser) (aggregate : Aggregate) (reading : ℤ)
    (windowSeconds binSeconds : ℤ) (eventType : Option String) : Except Exn LiveSummary :=
  let now := DateTime.thisSecond reading
  if binSeconds = 0 then .error (.other "integer modulo by zero")
  else do
    let last ← now.minusSeconds (now.second.fmod binSeconds)
    let since ← last.minusSeconds windowSeconds
    let rows ← aggregate (filter normaliser eventType none none (some since) none) binSeconds
    let slots := windowSeconds.fdiv binSeconds
    let series := series (perType since binSeconds slots rows)
    .ok {
      since := since
      last := last
      windowSeconds := windowSeconds
      binSeconds := binSeconds
      total := (series.map SeriesEntry.total).sum
      series := series }

end EventQueries

/-! ### The cached route -/

/-- What `json.loads` returns: `None`, a dict, or a value of a type with this name. -/
inductive Loaded (ν : Type) where
  | none
  | mapping (members : OrderedDict String ν)
  | other (typeName : String)

/-- A value in an answer: one that was decoded, or one that was computed here. -/
inductive AnswerField (ν : Type) where
  | decoded (value : ν)
  | moment (time : DateTime)
  | number (value : ℤ)
  | series (entries : List SeriesEntry)
  | flag (value : Bool)

variable {ν : Type}

/-- The dict that `live_summary` returns, by its keys. -/
def LiveSummary.fields (summary : LiveSummary) : List (String × AnswerField ν) := [
  ("since", .moment summary.since),
  ("until", .moment summary.last),
  ("window_seconds", .number summary.windowSeconds),
  ("bin_seconds", .number summary.binSeconds),
  ("total", .number summary.total),
  ("series", .series summary.series)]

/-- `{**fields, "cached": cached, "ttl_seconds": ttl}`. -/
def answered (fields : List (String × AnswerField ν)) (cached : Bool) (ttl : ℤ) :
    OrderedDict String (AnswerField ν) :=
  let spread : OrderedDict String (AnswerField ν) :=
    fields.foldl (fun answer field => answer.set field.1 field.2) .empty
  (spread.set "cached" (.flag cached)).set "ttl_seconds" (.number ttl)

/-- What ends a request with a 500: `{**hit}` of a value that is no mapping, or an exception of
`live_summary`. -/
inductive RouteError where
  | notAMapping (typeName : String)
  | raised (exn : Exn)
deriving DecidableEq

namespace StatsCache

/-- `StatsCache.get` for what the guarded read of Redis does, where `loads` is `json.loads`, `none` when
it raises: whatever is raised is logged and answered with `None`. -/
def get (loads : String → Option (Loaded ν)) (read : Except Exn (Option String)) : Loaded ν :=
  match read with
  | .error _ => .none
  | .ok none => .none
  | .ok (some raw) => if raw = "" then .none else (loads raw).getD .none

/-- `StatsCache.set` for what the guarded dump and write do. -/
def set (written : Except Exn Unit) : Except Exn Unit :=
  match written with
  | .error _ => .ok ()
  | .ok _ => .ok ()

end StatsCache

/-- `stats_realtime` for what Redis does, with the clock reading of `live_summary`. -/
def statsRealtime (loads : String → Option (Loaded ν)) (ttl : ℤ) (normaliser : Normaliser)
    (aggregate : Aggregate) (read : Except Exn (Option String)) (written : Except Exn Unit)
    (reading : ℤ) (eventType : Option String) :
    Except RouteError (OrderedDict String (AnswerField ν)) :=
  match StatsCache.get loads read with
  | .mapping hit => .ok (answered (hit.items.map fun item => (item.1, .decoded item.2)) true ttl)
  | .other typeName => .error (.notAMapping typeName)
  | .none =>
      Except.mapError .raised do
        let data ← EventQueries.liveSummary normaliser aggregate reading liveWindowSeconds
          liveBinSeconds eventType
        StatsCache.set written
        .ok (answered data.fields false ttl)

/-- Filter values that are normalised already, for runs on concrete inputs. -/
def asTyped : Normaliser := ⟨id, some⟩

/-- The answer of an empty collection. -/
def noRows : Aggregate := fun _ _ => .ok []

end FeathrEvents
