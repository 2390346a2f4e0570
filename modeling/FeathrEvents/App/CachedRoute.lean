/-
Module: FeathrEvents.App.CachedRoute
Purpose: The requests for the live summary over one Redis as a machine: what each does between two awaits,
  in any order, while Redis may fail, forget or lose what it was given at any moment.
Trusted boundary: translation by hand of `StatsCache.key` in `app/cache.py` and of `stats_realtime` in
  `app/main.py` at its awaits.  `json.dumps`, the digest of a key and `json.loads` are parameters.  Only these
  requests write to the keys, and `datetime.now` is taken not to go back: a reading before the last one is no
  move.
Main exports: KeyParam, Digest, StatsCache.canonical, StatsCache.key, liveKey, liveSlot, Codec, LivePhase,
  LiveRequest, LiveMove, CachedRoute, CachedRoute.step, CachedRoute.next
-/
import FeathrEvents.App.LiveSummary

namespace FeathrEvents

open Collections (OrderedDict)

/-! ### Keys -/

/-- A value among the parameters of a key. -/
inductive KeyParam where
  | text (value : String)
  | moment (time : DateTime)
deriving DecidableEq

/-- `json.dumps` with `default=_encode`, and the first 16 digits of the SHA-256 of a text. -/
structure Digest where
  dumps : List (String × KeyParam) → String
  hexdigest : String → String

namespace StatsCache

/-- The parameters that are given, sorted by name. -/
def canonical (params : List (String × Option KeyParam)) : List (String × KeyParam) :=
  (params.insertionSort fun one two => one.1 ≤ two.1).filterMap fun param =>
    param.2.map fun value => (param.1, value)

/-- `key`. -/
def key (digest : Digest) (params : List (String × Option KeyParam)) : String :=
  "feathr:stats:" ++ digest.hexdigest (digest.dumps (canonical params))

end StatsCache

/-- The key of a request for the live summary. -/
def liveKey (digest : Digest) (eventType : Option String) (slot : DateTime) : String :=
  StatsCache.key digest
    [("view", some (.text "live")), ("event_type", eventType.map .text), ("slot", some (.moment slot))]

/-- The slot of a request that reads the clock at this moment. -/
def liveSlot (reading : ℤ) : Except Exn DateTime :=
  let binNow := DateTime.thisSecond reading
  binNow.minusSeconds (binNow.second.fmod liveBinSeconds)

/-! ### Requests -/

variable {ν : Type}

/-- `json.dumps` of a summary and `json.loads` of a text. -/
structure Codec (ν : Type) where
  dumps : LiveSummary → String
  loads : String → Option (Loaded ν)

/-- Where a request stands: before its read of Redis, before its aggregation, before its write, or at its
end. -/
inductive LivePhase (ν : Type) where
  | reading
  | computing
  | writing (summary : LiveSummary)
  | done (answer : Except RouteError (OrderedDict String (AnswerField ν)))

/-- A request, with its clock reading and the slot that it makes of it. -/
structure LiveRequest (ν : Type) where
  eventType : Option String
  arrivedAt : ℤ
  slot : DateTime
  phase : LivePhase ν

/-- A summary that was computed: for which request, at which clock reading and over which answers of
MongoDB. -/
structure Computation where
  request : ℕ
  computedAt : ℤ
  aggregate : Aggregate
  summary : LiveSummary

/-- What can happen.  A read of Redis returns what is there or raises; a write takes effect or not, and
raises or not; what is stored can be gone at any moment. -/
inductive LiveMove where
  | arrive (eventType : Option String) (reading : ℤ)
  | read (request : ℕ) (fault : Option Exn)
  | compute (request : ℕ) (aggregate : Aggregate) (reading : ℤ)
  | write (request : ℕ) (lands : Bool) (fault : Option Exn)
  | forget (key : String)

/-- What Redis has, the requests in the order of their arrival, the last clock reading, and what was
computed. -/
structure CachedRoute (ν : Type) where
  redis : OrderedDict String String
  requests : List (LiveRequest ν)
  now : ℤ
  past : List Computation

namespace CachedRoute

/-- A route that nobody has asked yet, over what Redis has. -/
def start (redis : OrderedDict String String) (now : ℤ) : CachedRoute ν where
  redis := redis
  requests := []
  now := now
  past := []

/-- A request goes on. -/
def put (index : ℕ) (request : LiveRequest ν) (phase : LivePhase ν) (route : CachedRoute ν) :
    CachedRoute ν :=
  { route with requests := route.requests.set index { request with phase := phase } }

/-- What Redis does, unless it raises. -/
def attempt {α : Type} (fault : Option Exn) (result : α) : Except Exn α :=
  match fault with
  | some exn => .error exn
  | none => .ok result

variable (digest : Digest) (codec : Codec ν) (ttl : ℤ) (normaliser : Normaliser)

/-- What a request reads from Redis. -/
def readOf (route : CachedRoute ν) (request : LiveRequest ν) (fault : Option Exn) :
    Except Exn (Option String) :=
  attempt fault (route.redis.get? (liveKey digest request.eventType request.slot))

/-- What follows the read of Redis. -/
def afterRead (read : Except Exn (Option String)) : LivePhase ν :=
  match StatsCache.get codec.loads read with
  | .mapping hit => .done (.ok (answered (hit.items.map fun item => (item.1, .decoded item.2)) true ttl))
  | .other typeName => .done (.error (.notAMapping typeName))
  | .none => .computing

/-- The state after a move, `none` where the move is not possible. -/
def step (route : CachedRoute ν) : LiveMove → Option (CachedRoute ν)
  | .arrive eventType reading =>
      if route.now ≤ reading then
        match liveSlot reading with
        | .ok slot => some { route with
            now := reading
            requests := route.requests ++ [⟨eventType, reading, slot, .reading⟩] }
        | .error exn => some { route with
            now := reading
            requests := route.requests ++
              [⟨eventType, reading, DateTime.thisSecond reading, .done (.error (.raised exn))⟩] }
      else none
  | .read index fault =>
      match route.requests[index]? with
      | some request =>
          match request.phase with
          | .reading =>
              some (route.put index request (afterRead codec ttl (readOf digest route request fault)))
          | _ => none
      | none => none
  | .compute index aggregate reading =>
      match route.requests[index]? with
      | some request =>
          match request.phase with
          | .computing =>
              if route.now ≤ reading then
                match EventQueries.liveSummary normaliser aggregate reading liveWindowSeconds
                    liveBinSeconds request.eventType with
                | .ok summary => some { route.put index request (.writing summary) with
                    now := reading
                    past := route.past ++ [⟨index, reading, aggregate, summary⟩] }
                | .error exn => some { route.put index request (.done (.error (.raised exn))) with
                    now := reading }
              else none
          | _ => none
      | none => none
  | .write index lands fault =>
      match route.requests[index]? with
      | some request =>
          match request.phase with
          | .writing summary =>
              let redis :=
                if lands then
                  route.redis.set (liveKey digest request.eventType request.slot) (codec.dumps summary)
                else route.redis
              let answer := (StatsCache.set (attempt fault ())).map fun _ =>
                answered summary.fields false ttl
              some { route.put index request (.done (answer.mapError .raised)) with redis := redis }
          | _ => none
      | none => none
  | .forget key => some { route with redis := route.redis.erase key }

/-- The machine: a move that is not possible changes nothing. -/
def next (route : CachedRoute ν) (move : LiveMove) : CachedRoute ν :=
  (route.step digest codec ttl normaliser move).getD route

end CachedRoute

end FeathrEvents
