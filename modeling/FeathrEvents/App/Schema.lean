/-
Module: FeathrEvents.App.Schema
Purpose: `ElasticEventIndex` as a machine: any number of instances and of calls of `index`,
  `ensure_schema` and the demo reset, each at the await where it stands, over one cluster.
Trusted boundary: translation by hand of `ElasticEventIndex` in `app/stores.py`, of its calls
  in `lifespan` and `demo_reset` in `app/main.py`, and of what Elasticsearch does with each request;
  the mapping that it infers from a document is a parameter.  A request whose client gave up may
  still take effect later.
Main exports: Mapping, indexMapping, warnIfTheMappingIsWrong, Cluster, Request, Cluster.serve,
  Standing, IndexCall, SchemaMove, IndexSystem, IndexSystem.next
-/
import FeathrEvents.App.Host

namespace FeathrEvents

open Collections (OrderedDict)

/-- The mapping of one field, with its multi-fields. -/
structure FieldMapping where
  type : Option String
  fields : List (String × String) := []

/-- A mapping; one without `properties` maps no field. -/
structure Mapping where
  properties : Option (OrderedDict String FieldMapping)

/-- `INDEX_MAPPING`. -/
def indexMapping : Mapping where
  properties := some {
    items := [
      ("event_type", { type := some "keyword" }),
      ("user_id", { type := some "keyword" }),
      ("timestamp", { type := some "date" }),
      ("received_at", { type := some "date" }),
      ("source_url", { type := some "keyword", fields := [("text", "text")] }),
      ("metadata", { type := some "flattened" })]
    distinct := by
      simp only [List.map_cons, List.map_nil]
      decide }

/-- What the module's logger writes. -/
inductive SchemaLine where
  | created
  | mappedAs (found : Option String)
deriving DecidableEq

/-- `_warn_if_the_mapping_is_wrong`, from the mapping that was read. -/
def warnIfTheMappingIsWrong (mapping : Mapping) : List SchemaLine :=
  match mapping.properties with
  | none => []
  | some properties =>
      let found := (properties.get? "event_type").bind FieldMapping.type
      if found = some "keyword" then [] else [.mappedAs found]

example : warnIfTheMappingIsWrong indexMapping = [] := by decide

/-! ### The cluster -/

/-- The events index. -/
structure Index where
  mapping : Mapping
  documents : OrderedDict String (OrderedDict String Json)

/-- The index template of this application, by the mapping that it prescribes, and its index. -/
structure Cluster where
  template : Option Mapping
  index : Option Index

/-- What the application asks of Elasticsearch. -/
inductive Request where
  | putTemplate
  | indexExists
  | getMapping
  | create
  | write (eventId : String) (document : OrderedDict String Json)
  | delete

/-- What Elasticsearch answers; `refused` is an answer that the client raises. -/
inductive Reply where
  | templatePut
  | found (present : Bool)
  | mappingRead (mapping : Mapping)
  | created
  | written
  | deleted
  | refused

/-- What the program takes from its surroundings here: pydantic's dumps, and the mapping that
Elasticsearch infers from the first document of an index that nobody described. -/
structure Surroundings where
  host : Host
  dynamicMapping : OrderedDict String Json → Mapping

namespace Cluster

/-- What Elasticsearch does with a request.  A write creates a missing index, from the template if
there is one; the deletion is sent with `ignore_status=404`. -/
def serve (surroundings : Surroundings) (cluster : Cluster) : Request → Reply × Cluster
  | .putTemplate => (.templatePut, { cluster with template := some indexMapping })
  | .indexExists => (.found cluster.index.isSome, cluster)
  | .getMapping =>
      match cluster.index with
      | none => (.refused, cluster)
      | some index => (.mappingRead index.mapping, cluster)
  | .create =>
      match cluster.index with
      | none => (.created, { cluster with index := some ⟨indexMapping, .empty⟩ })
      | some _ => (.refused, cluster)
  | .write eventId document =>
      let index := cluster.index.getD
        ⟨cluster.template.getD (surroundings.dynamicMapping document), .empty⟩
      let documents := index.documents.set eventId document
      (.written, { cluster with index := some { index with documents := documents } })
  | .delete => (.deleted, { cluster with index := none })

end Cluster

/-! ### The calls -/

/-- Who made a call: a consumer for its event, the startup, or the demo reset. -/
inductive Caller where
  | worker (event : Event)
  | lifespan
  | demoReset

/-- Where a call stands: it has sent a request, it has been answered and not resumed yet, or it is
over. -/
inductive Standing where
  | asked (request : Request)
  | told (reply : Reply)
  | returned
  | raised

/-- A call under way on one of the instances. -/
structure IndexCall where
  caller : Caller
  target : ℕ
  standing : Standing

/-- The moves.  `faulted` is what `guard` finds; at `serve` Elasticsearch carries out the request of
a call, at `fail` the client of a call gives up on it, and at `late` Elasticsearch carries out a
request whose client has given up. -/
inductive SchemaMove where
  | construct
  | index (target : ℕ) (event : Event) (faulted : Bool)
  | ensureSchema (target : ℕ)
  | demoReset
  | deleteIndex
  | serve (call : ℕ)
  | resume (call : ℕ)
  | fail (call : ℕ)
  | late (orphan : ℕ)

/-- A cluster and everyone that uses it.  `ready` are the `_ready` flags of the instances, `orphans`
the requests whose clients have given up on them. -/
structure IndexSystem where
  cluster : Cluster
  ready : List Bool
  calls : List IndexCall
  orphans : List Request
  log : List SchemaLine

namespace IndexSystem

/-- A cluster with some instances, and no call under way. -/
def start (cluster : Cluster) (ready : List Bool) : IndexSystem where
  cluster := cluster
  ready := ready
  calls := []
  orphans := []
  log := []

variable (surroundings : Surroundings)

def call (caller : Caller) (target : ℕ) (standing : Standing) (system : IndexSystem) :
    IndexSystem :=
  { system with calls := system.calls ++ [⟨caller, target, standing⟩] }

def put (index : ℕ) (call : IndexCall) (standing : Standing) (system : IndexSystem) : IndexSystem :=
  { system with calls := system.calls.set index { call with standing := standing } }

/-- The request that writes the document of an event. -/
def writeOf (event : Event) : Request :=
  .write event.eventId ((surroundings.host.modelDump event).erase "event_id")

/-- After the schema is in place: the write of `index`, or nothing more. -/
def afterSchema : Caller → Standing
  | .worker event => .asked (writeOf surroundings event)
  | .lifespan | .demoReset => .returned

/-- The end of `ensure_schema`. -/
def finish (index : ℕ) (call : IndexCall) (lines : List SchemaLine) (system : IndexSystem) :
    IndexSystem :=
  { system with ready := system.ready.set call.target true, log := system.log ++ lines }.put
    index call (afterSchema surroundings call.caller)

/-- A call goes on with the answer that it got, up to its next await. -/
def resumed (index : ℕ) (call : IndexCall) (reply : Reply) (system : IndexSystem) : IndexSystem :=
  match reply with
  | .templatePut => system.put index call (.asked .indexExists)
  | .found true => system.put index call (.asked .getMapping)
  | .found false => system.put index call (.asked .create)
  | .mappingRead mapping => system.finish surroundings index call (warnIfTheMappingIsWrong mapping)
  | .created => system.finish surroundings index call [.created]
  | .written => system.put index call .returned
  | .deleted =>
      -- the reset prepares the schema through an instance of its own
      { system with ready := system.ready ++ [false] }.put index
        { call with target := system.ready.length } (.asked .putTemplate)
  | .refused => system.put index call .raised

/-- The system after a move, `none` where the move is not possible. -/
def step (system : IndexSystem) : SchemaMove → Option IndexSystem
  | .construct => some { system with ready := system.ready ++ [false] }
  | .index target event faulted =>
      match system.ready[target]? with
      | none => none
      | some ready =>
          let standing : Standing :=
            if faulted then .raised
            else if ready then .asked (writeOf surroundings event)
            else .asked .putTemplate
          some (system.call (.worker event) target standing)
  | .ensureSchema target =>
      if target < system.ready.length then
        some (system.call .lifespan target (.asked .putTemplate))
      else none
  | .demoReset => some (system.call .demoReset 0 (.asked .delete))
  | .deleteIndex => some { system with cluster := { system.cluster with index := none } }
  | .serve index =>
      match system.calls[index]? with
      | some ⟨caller, target, .asked request⟩ =>
          let (reply, cluster) := system.cluster.serve surroundings request
          some ({ system with cluster := cluster }.put index ⟨caller, target, .asked request⟩
            (.told reply))
      | _ => none
  | .resume index =>
      match system.calls[index]? with
      | some ⟨caller, target, .told reply⟩ =>
          some (system.resumed surroundings index ⟨caller, target, .told reply⟩ reply)
      | _ => none
  | .fail index =>
      match system.calls[index]? with
      | some ⟨caller, target, .asked request⟩ =>
          some ({ system with orphans := system.orphans ++ [request] }.put index
            ⟨caller, target, .asked request⟩ .raised)
      | some ⟨caller, target, .told reply⟩ =>
          some (system.put index ⟨caller, target, .told reply⟩ .raised)
      | _ => none
  | .late index =>
      match system.orphans[index]? with
      | some request =>
          some { system with
            cluster := (system.cluster.serve surroundings request).2
            orphans := system.orphans.eraseIdx index }
      | none => none

/-- The machine: a move that is not possible changes nothing. -/
def next (system : IndexSystem) (move : SchemaMove) : IndexSystem :=
  (system.step surroundings move).getD system

end IndexSystem

end FeathrEvents
