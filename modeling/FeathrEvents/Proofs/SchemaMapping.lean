/-
Module: FeathrEvents.Proofs.SchemaMapping
Purpose: Everything that one move of the schema machine can do, said once, and from it that the
  events index is never created with a dynamic mapping.
Trusted boundary: none
Main exports: IndexSystem.Moved, next_moved, Mapped, mapped_run, never_dynamically_mapped
-/
import FeathrEvents.App.Schema
import FeathrEvents.Lib.Runs

namespace FeathrEvents

/-- The requests that are only sent once the template has been put. -/
def Request.followsTemplate : Request → Bool
  | .putTemplate | .delete => false
  | .indexExists | .getMapping | .create | .write .. => true

/-- The call has put the template. -/
def Standing.pastTemplate : Standing → Bool
  | .asked request => request.followsTemplate
  | .told .deleted | .told .refused | .returned | .raised => false
  | .told .templatePut | .told (.found _) | .told (.mappingRead _) | .told .created
  | .told .written => true

namespace Cluster

/-- The index template prescribes `INDEX_MAPPING`. -/
def Installed (cluster : Cluster) : Prop := cluster.template = some indexMapping

/-- The index, if there is one, carries `INDEX_MAPPING`.  An index that Elasticsearch makes up for a
write takes its mapping from the template, if there is one. -/
def Mapped (cluster : Cluster) : Prop :=
  ∀ index, cluster.index = some index → index.mapping = indexMapping

variable {surroundings : Surroundings} {cluster : Cluster}

/-- No request removes the template. -/
theorem Installed.serve (installed : cluster.Installed) (request : Request) :
    (cluster.serve surroundings request).2.Installed := by
  cases request with
  | putTemplate => rfl
  | getMapping | create =>
      cases index : cluster.index <;> simpa [Cluster.serve, index, Installed] using installed
  | indexExists | write | delete => exact installed

/-- A call that has been answered has put the template, if it had or if that was what it asked. -/
theorem installed_serve {request : Request}
    (before : request.followsTemplate = true → cluster.Installed)
    (told : (Standing.told (cluster.serve surroundings request).1).pastTemplate = true) :
    (cluster.serve surroundings request).2.Installed := by
  cases request with
  | putTemplate => rfl
  | delete => cases told
  | indexExists | getMapping | create | write => exact Installed.serve (before rfl) _

/-- A write creates the index from the template. -/
theorem Mapped.serve (mapped : cluster.Mapped) {request : Request}
    (before : request.followsTemplate = true → cluster.Installed) :
    (cluster.serve surroundings request).2.Mapped := by
  cases request with
  | putTemplate | indexExists => exact mapped
  | getMapping =>
      have untouched : (cluster.serve surroundings .getMapping).2 = cluster := by
        cases index : cluster.index <;> simp [Cluster.serve, index]
      rw [untouched]
      exact mapped
  | create =>
      cases index : cluster.index with
      | none => simp [Cluster.serve, index, Mapped]
      | some present => simpa [Cluster.serve, index, Mapped] using mapped
  | write eventId document =>
      have installed : cluster.template = some indexMapping := before rfl
      cases index : cluster.index with
      | none => simp [Cluster.serve, index, Mapped, installed]
      | some present => simpa [Cluster.serve, index, Mapped] using mapped present index
  | delete => exact nofun

end Cluster

namespace IndexSystem

variable {surroundings : Surroundings} {system later : IndexSystem} {move : SchemaMove}

/-! ### The moves -/

/-- Where a call of `index` stands at its first await. -/
def entered (surroundings : Surroundings) (event : Event) (ready : Bool) : Standing :=
  if ready then .asked (writeOf surroundings event) else .asked .putTemplate

/-- Everything that a move can do, with the guards that it passed, so that an invariant splits the
cases here and need not unfold the step. -/
inductive Moved (surroundings : Surroundings) (system : IndexSystem) :
    SchemaMove → IndexSystem → Prop where
  | idle (move : SchemaMove) : Moved surroundings system move system
  | constructed :
      Moved surroundings system .construct { system with ready := system.ready ++ [false] }
  | guarded {target : ℕ} (event : Event) (inside : target < system.ready.length) :
      Moved surroundings system (.index target event true)
        (system.call (.worker event) target .raised)
  | entered {target : ℕ} (event : Event) {ready : Bool}
      (flag : system.ready[target]? = some ready) :
      Moved surroundings system (.index target event false)
        (system.call (.worker event) target (entered surroundings event ready))
  | ensured {target : ℕ} (inside : target < system.ready.length) :
      Moved surroundings system (.ensureSchema target)
        (system.call .lifespan target (.asked .putTemplate))
  | resetCalled :
      Moved surroundings system .demoReset (system.call .demoReset 0 (.asked .delete))
  | vanished :
      Moved surroundings system .deleteIndex
        { system with cluster := { system.cluster with index := none } }
  | served {index target : ℕ} {caller : Caller} {request : Request}
      (stands : system.calls[index]? = some ⟨caller, target, .asked request⟩) :
      Moved surroundings system (.serve index)
        ({ system with cluster := (system.cluster.serve surroundings request).2 }.put index
          ⟨caller, target, .asked request⟩
          (.told (system.cluster.serve surroundings request).1))
  | resumed {index target : ℕ} {caller : Caller} {reply : Reply}
      (stands : system.calls[index]? = some ⟨caller, target, .told reply⟩) :
      Moved surroundings system (.resume index)
        (system.resumed surroundings index ⟨caller, target, .told reply⟩ reply)
  | gaveUp {index target : ℕ} {caller : Caller} {request : Request}
      (stands : system.calls[index]? = some ⟨caller, target, .asked request⟩) :
      Moved surroundings system (.fail index)
        ({ system with orphans := system.orphans ++ [request] }.put index
          ⟨caller, target, .asked request⟩ .raised)
  | lost {index target : ℕ} {caller : Caller} {reply : Reply}
      (stands : system.calls[index]? = some ⟨caller, target, .told reply⟩) :
      Moved surroundings system (.fail index)
        (system.put index ⟨caller, target, .told reply⟩ .raised)
  | landedLate {index : ℕ} {request : Request} (orphan : system.orphans[index]? = some request) :
      Moved surroundings system (.late index) { system with
        cluster := (system.cluster.serve surroundings request).2
        orphans := system.orphans.eraseIdx index }

theorem next_moved (surroundings : Surroundings) (system : IndexSystem) (move : SchemaMove) :
    Moved surroundings system move (system.next surroundings move) := by
  have idle : system.step surroundings move = none →
      Moved surroundings system move (system.next surroundings move) := by
    intro impossible
    rw [next, impossible]
    exact .idle move
  cases move with
  | construct => exact .constructed
  | demoReset => exact .resetCalled
  | deleteIndex => exact .vanished
  | index target event faulted =>
      cases flag : system.ready[target]? with
      | none => exact idle (by simp [step, flag])
      | some ready =>
          have inside : target < system.ready.length := (List.getElem?_eq_some_iff.mp flag).1
          cases faulted with
          | true => simpa [next, step, flag] using Moved.guarded event inside
          | false => simpa [next, step, flag, IndexSystem.entered] using Moved.entered event flag
  | ensureSchema target =>
      by_cases inside : target < system.ready.length
      · simpa [next, step, inside] using Moved.ensured inside
      · exact idle (by simp [step, inside])
  | serve index =>
      cases stands : system.calls[index]? with
      | none => exact idle (by simp [step, stands])
      | some call =>
          obtain ⟨caller, target, standing⟩ := call
          cases standing with
          | asked request => simpa [next, step, stands] using Moved.served stands
          | _ => exact idle (by simp [step, stands])
  | resume index =>
      cases stands : system.calls[index]? with
      | none => exact idle (by simp [step, stands])
      | some call =>
          obtain ⟨caller, target, standing⟩ := call
          cases standing with
          | told reply => simpa [next, step, stands] using Moved.resumed stands
          | _ => exact idle (by simp [step, stands])
  | fail index =>
      cases stands : system.calls[index]? with
      | none => exact idle (by simp [step, stands])
      | some call =>
          obtain ⟨caller, target, standing⟩ := call
          cases standing with
          | asked request => simpa [next, step, stands] using Moved.gaveUp stands
          | told reply => simpa [next, step, stands] using Moved.lost stands
          | _ => exact idle (by simp [step, stands])
  | late index =>
      cases orphan : system.orphans[index]? with
      | none => exact idle (by simp [step, orphan])
      | some request => simpa [next, step, orphan] using Moved.landedLate orphan

/-! ### The template comes first -/

/-- Whoever is past the template, or remembers it, has it installed.  Nothing in the program takes a
template away, so this stays. -/
structure Templated (system : IndexSystem) : Prop where
  ready : ∀ target : ℕ, system.ready[target]? = some true → system.cluster.Installed
  calls : ∀ call ∈ system.calls, call.standing.pastTemplate = true → system.cluster.Installed
  orphans : ∀ request ∈ system.orphans, request.followsTemplate = true → system.cluster.Installed

theorem templated_start (cluster : Cluster) (instances : ℕ) :
    Templated (start cluster (List.replicate instances false)) where
  ready target flag := by
    rw [start, List.getElem?_replicate] at flag
    split at flag <;> cases flag
  calls := by simp [start]
  orphans := by simp [start]

/-- A new call that is not past the template, or one that an instance let past it. -/
theorem Templated.call (templated : Templated system) (caller : Caller) (target : ℕ)
    {standing : Standing} (past : standing.pastTemplate = true → system.cluster.Installed) :
    Templated (system.call caller target standing) where
  ready := templated.ready
  calls call member := by
    rcases List.mem_append.mp member with old | new
    · exact templated.calls call old
    · rw [List.mem_singleton.mp new]
      exact past
  orphans := templated.orphans

theorem Templated.put (templated : Templated system) (index : ℕ) (call : IndexCall)
    {standing : Standing} (past : standing.pastTemplate = true → system.cluster.Installed) :
    Templated (system.put index call standing) where
  ready := templated.ready
  calls other member := by
    rcases List.mem_or_eq_of_mem_set member with old | new
    · exact templated.calls other old
    · rw [new]
      exact past
  orphans := templated.orphans

/-- A cluster that has not lost the template. -/
theorem Templated.withCluster (templated : Templated system) (cluster : Cluster)
    (kept : system.cluster.Installed → cluster.Installed) :
    Templated { system with cluster := cluster } where
  ready target flag := kept (templated.ready target flag)
  calls call member past := kept (templated.calls call member past)
  orphans request member follows := kept (templated.orphans request member follows)

/-- An instance is only marked as ready by a call that is past the template. -/
theorem Templated.finish (templated : Templated system) (installed : system.cluster.Installed)
    (index : ℕ) (call : IndexCall) (lines : List SchemaLine) :
    Templated (system.finish surroundings index call lines) := by
  have marked : Templated { system with
      ready := system.ready.set call.target true, log := system.log ++ lines } :=
    ⟨fun _ _ => installed, templated.calls, templated.orphans⟩
  exact marked.put index call fun _ => installed

theorem Templated.unready (templated : Templated system) :
    Templated { system with ready := system.ready ++ [false] } where
  ready target flag := by
    rcases List.mem_append.mp (List.mem_of_getElem? flag) with old | new
    · obtain ⟨index, here⟩ := List.mem_iff_getElem?.mp old
      exact templated.ready index here
    · cases List.mem_singleton.mp new
  calls := templated.calls
  orphans := templated.orphans

theorem Templated.resumed (templated : Templated system) (index : ℕ) (call : IndexCall)
    {reply : Reply} (past : (Standing.told reply).pastTemplate = true → system.cluster.Installed) :
    Templated (system.resumed surroundings index call reply) := by
  cases reply with
  | templatePut => exact templated.put index call fun _ => past rfl
  | found present => cases present <;> exact templated.put index call fun _ => past rfl
  | mappingRead mapping => exact templated.finish (past rfl) index call _
  | created => exact templated.finish (past rfl) index call _
  | written | refused => exact templated.put index call nofun
  | deleted => exact templated.unready.put index _ nofun

theorem Templated.moved (templated : Templated system)
    (moved : Moved surroundings system move later) : Templated later := by
  cases moved with
  | idle => exact templated
  | constructed => exact templated.unready
  | guarded event inside => exact templated.call _ _ nofun
  | @entered target event ready flag =>
      apply templated.call
      intro past
      cases ready with
      | true => exact templated.ready target flag
      | false => cases past
  | ensured | resetCalled => exact templated.call _ _ nofun
  | vanished => exact templated.withCluster _ id
  | @served index target caller request stands =>
      have kept := templated.withCluster (system.cluster.serve surroundings request).2
        fun installed => installed.serve request
      apply kept.put
      apply Cluster.installed_serve
      exact templated.calls _ (List.mem_of_getElem? stands)
  | resumed stands =>
      exact templated.resumed _ _ (templated.calls _ (List.mem_of_getElem? stands))
  | @gaveUp index target caller request stands =>
      have orphaned : Templated { system with orphans := system.orphans ++ [request] } := by
        refine ⟨templated.ready, templated.calls, fun other member => ?_⟩
        rcases List.mem_append.mp member with old | new
        · exact templated.orphans other old
        · rw [List.mem_singleton.mp new]
          exact templated.calls _ (List.mem_of_getElem? stands)
      exact orphaned.put _ _ nofun
  | lost stands => exact templated.put _ _ nofun
  | @landedLate index request orphan =>
      have kept := templated.withCluster (system.cluster.serve surroundings request).2
        fun installed => installed.serve request
      refine ⟨kept.ready, kept.calls, fun other member => ?_⟩
      exact kept.orphans other (List.mem_of_mem_eraseIdx member)

/-! ### The mapping -/

/-- The request that Elasticsearch carries out in a move, if it carries one out. -/
def carriedOut (system : IndexSystem) : SchemaMove → Option Request
  | .serve index =>
      match system.calls[index]? with
      | some ⟨_, _, .asked request⟩ => some request
      | _ => none
  | .late index => system.orphans[index]?
  | .construct | .index .. | .ensureSchema _ | .demoReset | .deleteIndex | .resume _
  | .fail _ => none

/-- Whatever is carried out after the template has been put finds it installed. -/
theorem Templated.carriedOut (templated : Templated system) {request : Request}
    (carried : system.carriedOut move = some request) (follows : request.followsTemplate = true) :
    system.cluster.Installed := by
  cases move with
  | serve index =>
      rw [IndexSystem.carriedOut] at carried
      split at carried
      · rename_i stands
        cases carried
        exact templated.calls _ (List.mem_of_getElem? stands) follows
      · cases carried
  | late index => exact templated.orphans request (List.mem_of_getElem? carried) follows
  | _ => cases carried

theorem cluster_resumed (index : ℕ) (call : IndexCall) (reply : Reply) :
    (system.resumed surroundings index call reply).cluster = system.cluster := by
  cases reply with
  | found present => cases present <;> rfl
  | _ => rfl

/-- The mapping only changes when the index is created, by the request that carries it or by a write
that the template answers for. -/
theorem mapped_moved (templated : Templated system) (mapped : system.cluster.Mapped)
    (moved : Moved surroundings system move later) : later.cluster.Mapped := by
  cases moved with
  | idle | constructed | guarded | entered | ensured | resetCalled | gaveUp | lost => exact mapped
  | vanished => exact nofun
  | served stands =>
      exact mapped.serve (templated.calls _ (List.mem_of_getElem? stands))
  | resumed stands =>
      rw [cluster_resumed]
      exact mapped
  | landedLate orphan =>
      exact mapped.serve (templated.orphans _ (List.mem_of_getElem? orphan))

/-- The system after some moves. -/
def run (surroundings : Surroundings) (system : IndexSystem) (moves : List SchemaMove) :
    IndexSystem :=
  Machine.run (next surroundings) system moves

def visits (surroundings : Surroundings) (system : IndexSystem) (moves : List SchemaMove) :
    List (IndexSystem × SchemaMove) :=
  Machine.visits (next surroundings) system moves

theorem mapped_run (surroundings : Surroundings) (templated : Templated system)
    (mapped : system.cluster.Mapped) (moves : List SchemaMove) :
    Templated (run surroundings system moves) ∧ (run surroundings system moves).cluster.Mapped := by
  apply Machine.run_invariant (next surroundings) (fun system => Templated system ∧
    system.cluster.Mapped) (fun _ => True) ⟨templated, mapped⟩ _ moves fun _ _ => trivial
  intro system move _ both
  have moved := next_moved surroundings system move
  exact ⟨both.1.moved moved, mapped_moved both.1 both.2 moved⟩

/-- Every document write that is carried out finds the template installed.  So even a write that
meets no index creates it with the right mapping. -/
def WritesTemplated (visits : List (IndexSystem × SchemaMove)) : Prop :=
  ∀ visit ∈ visits, ∀ eventId document,
    visit.1.carriedOut visit.2 = some (.write eventId document) → visit.1.cluster.Installed

/-- The index is never created with a dynamic mapping: from a cluster whose index is absent or
carries `INDEX_MAPPING`, with any template or none, whatever instances are built, calls fail or are
answered late, resets run and hands delete the index, it is absent or carries `INDEX_MAPPING` at
every moment, and every document write finds the template installed. -/
theorem never_dynamically_mapped (surroundings : Surroundings) (cluster : Cluster)
    (mapped : cluster.Mapped) (instances : ℕ) (moves : List SchemaMove) :
    (run surroundings (start cluster (List.replicate instances false)) moves).cluster.Mapped ∧
    WritesTemplated
      (visits surroundings (start cluster (List.replicate instances false)) moves) := by
  have templated := templated_start cluster instances
  refine ⟨(mapped_run surroundings templated mapped moves).2, ?_⟩
  intro visit member eventId document carried
  obtain ⟨before, after, -, reached⟩ := Machine.mem_visits_split _ member
  have there := (mapped_run surroundings templated mapped before).1
  rw [reached] at carried ⊢
  exact there.carriedOut carried rfl

/-- A startup that never reached Elasticsearch, a first write that prepares the schema, and somebody
who deletes the index before that write arrives. -/
def vanishingMoves : List SchemaMove :=
  [.construct, .ensureSchema 0, .fail 0, .index 0 (sampleEvent "a") false, .serve 1, .resume 1,
    .serve 1, .resume 1, .serve 1, .resume 1, .deleteIndex, .serve 1, .resume 1]

/-- Surroundings for runs on concrete inputs: an index that nobody described maps no field. -/
def sampleSurroundings : Surroundings where
  host := countingHost fun event => some event.eventId
  dynamicMapping _ := ⟨none⟩

theorem a_vanished_index_comes_back_mapped :
    (run sampleSurroundings (start ⟨none, none⟩ []) vanishingMoves).cluster.index.isSome = true ∧
    (run sampleSurroundings (start ⟨none, none⟩ []) vanishingMoves).cluster.Mapped ∧
    WritesTemplated (visits sampleSurroundings (start ⟨none, none⟩ []) vanishingMoves) :=
  ⟨rfl, never_dynamically_mapped sampleSurroundings ⟨none, none⟩ nofun 0 vanishingMoves⟩

end IndexSystem

end FeathrEvents
