/-
Module: FeathrEvents.Proofs.SchemaRaces
Purpose: When the calls of `index` on one instance of a healthy cluster can raise: exactly when two
  of them are told together that the index is absent.
Trusted boundary: none
Main exports: Healthy, ChecksTogether, Orderly, orderly_moved, Doomed, doomed_moved,
  none_raised_iff_never_checked_together
-/
import FeathrEvents.Proofs.SchemaMapping

namespace FeathrEvents

/-- The call has been told that the index is absent, and has not created it yet. -/
def Standing.toldAbsent : Standing → Bool
  | .told (.found false) | .asked .create => true
  | _ => false

/-- The call has raised, has been refused, or is about to create the index. -/
def Standing.threatens (standing : Standing) : Bool :=
  match standing with
  | .raised | .told .refused => true
  | _ => standing.toldAbsent

/-- The call is over. -/
def Standing.ended : Standing → Bool
  | .returned | .raised => true
  | .asked _ | .told _ => false

namespace IndexSystem

variable {surroundings : Surroundings} {system later : IndexSystem} {move : SchemaMove}

/-- The moves of consumers that call `index` on one instance of a cluster that answers. -/
def Healthy : SchemaMove → Prop
  | .index target _ faulted => target = 0 ∧ faulted = false
  | .serve _ | .resume _ => True
  | .construct | .ensureSchema _ | .demoReset | .deleteIndex | .fail _ | .late _ => False

/-- Consumers call `index` on the one instance, and Elasticsearch answers: no call is refused or
times out, and nobody deletes the index. -/
def AllHealthy (moves : List SchemaMove) : Prop := ∀ move ∈ moves, Healthy move

/-- A call is told that the index is absent while another one that was told so has not created it
yet. -/
def ChecksTogether (visit : IndexSystem × SchemaMove) : Prop :=
  visit.1.cluster.index = none ∧ visit.1.carriedOut visit.2 = some .indexExists ∧
    ∃ call ∈ visit.1.calls, call.standing.toldAbsent = true

/-- The request asks whether the index exists. -/
def asksExists : Option Request → Bool
  | some .indexExists => true
  | _ => false

theorem asksExists_iff (request : Option Request) :
    asksExists request = true ↔ request = some .indexExists := by
  cases request with
  | none => simp [asksExists]
  | some request => cases request <;> simp [asksExists]

instance : DecidablePred ChecksTogether := fun visit =>
  decidable_of_iff (visit.1.cluster.index = none ∧
    asksExists (visit.1.carriedOut visit.2) = true ∧
    ∃ call ∈ visit.1.calls, call.standing.toldAbsent = true) (by
      rw [ChecksTogether, asksExists_iff])

def NoneRaised (system : IndexSystem) : Prop := ∀ call ∈ system.calls, call.standing ≠ .raised

/-! ### One call -/

/-- Where a call of `index` may stand.  Up to its check it runs on an instance that is not ready or
over an index that exists; after it, over the index that it found or is about to create. -/
def Fits (system : IndexSystem) : Standing → Prop
  | .asked .putTemplate | .told .templatePut | .asked .indexExists =>
      system.ready = [false] ∨ system.cluster.index ≠ none
  | .told (.found false) | .asked .create => system.ready = [false] ∧ system.cluster.index = none
  | .told (.found true) | .asked .getMapping | .told (.mappingRead _) | .told .created =>
      system.cluster.index ≠ none
  | .asked (.write ..) => system.ready = [true]
  | .told .written | .returned => True
  | .asked .delete | .told .deleted | .told .refused | .raised => False

/-- A call is only disturbed by what becomes of the index and of the flag. -/
theorem fits_congr {standing : Standing} (index : later.cluster.index = system.cluster.index)
    (ready : later.ready = system.ready) : Fits later standing ↔ Fits system standing := by
  unfold Fits
  rw [index, ready]

/-- A call that is not about to create the index is at home in it once it exists. -/
theorem Fits.present {standing : Standing} (fits : Fits system standing)
    (settled : standing.toldAbsent = false) (present : later.cluster.index ≠ none)
    (ready : later.ready = system.ready ∨ later.ready = [true]) : Fits later standing := by
  cases standing with
  | asked request =>
      cases request with
      | putTemplate | indexExists => exact .inr present
      | getMapping => exact present
      | create => cases settled
      | write eventId document => exact ready.elim (fun same => same.trans fits) id
      | delete => exact fits
  | told reply =>
      cases reply with
      | templatePut => exact .inr present
      | found there =>
          cases there with
          | true => exact present
          | false => cases settled
      | mappingRead | created => exact present
      | written => exact trivial
      | deleted | refused => exact fits
  | returned => exact trivial
  | raised => exact fits

/-! ### All calls -/

/-- All calls share one instance, every call stands where it may, and at most one is about to create
the index. -/
structure Orderly (system : IndexSystem) : Prop where
  single : ∃ ready, system.ready = [ready]
  shared : ∀ (index : ℕ) call, system.calls[index]? = some call → call.target = 0
  fits : ∀ (index : ℕ) call, system.calls[index]? = some call → Fits system call.standing
  alone : ∀ (first second : ℕ) one two, system.calls[first]? = some one →
    system.calls[second]? = some two → one.standing.toldAbsent = true →
    two.standing.toldAbsent = true → first = second

theorem orderly_start (cluster : Cluster) (ready : Bool) : Orderly (start cluster [ready]) where
  single := ⟨ready, rfl⟩
  shared := by simp [start]
  fits := by simp [start]
  alone := by simp [start]

theorem set_cases {calls : List IndexCall} {index other : ℕ} {fresh call : IndexCall}
    (found : (calls.set index fresh)[other]? = some call) :
    (other = index ∧ call = fresh) ∨ (other ≠ index ∧ calls[other]? = some call) := by
  rw [List.getElem?_set] at found
  split at found
  · rename_i same
    split at found
    · exact .inl ⟨same.symm, (Option.some.inj found).symm⟩
    · cases found
  · rename_i different
    exact .inr ⟨fun same => different same.symm, found⟩

/-- One call has moved on, and the others are still at home. -/
theorem Orderly.put (orderly : Orderly system) {index : ℕ} {fresh : IndexCall}
    (single : ∃ ready, later.ready = [ready])
    (calls : later.calls = system.calls.set index fresh) (target : fresh.target = 0)
    (here : Fits later fresh.standing)
    (others : ∀ other call, other ≠ index → system.calls[other]? = some call →
      Fits later call.standing)
    (alone : fresh.standing.toldAbsent = true → ∀ other call, other ≠ index →
      system.calls[other]? = some call → call.standing.toldAbsent = false) : Orderly later where
  single := single
  shared other call found := by
    rw [calls] at found
    rcases set_cases found with ⟨-, rfl⟩ | ⟨-, old⟩
    · exact target
    · exact orderly.shared other call old
  fits other call found := by
    rw [calls] at found
    rcases set_cases found with ⟨-, rfl⟩ | ⟨different, old⟩
    · exact here
    · exact others other call different old
  alone first second one two foundOne foundTwo absentOne absentTwo := by
    rw [calls] at foundOne foundTwo
    rcases set_cases foundOne with ⟨rfl, rfl⟩ | ⟨differentOne, oldOne⟩
    · rcases set_cases foundTwo with ⟨same, -⟩ | ⟨differentTwo, oldTwo⟩
      · exact same.symm
      · cases (alone absentOne second two differentTwo oldTwo).symm.trans absentTwo
    · rcases set_cases foundTwo with ⟨rfl, rfl⟩ | ⟨-, oldTwo⟩
      · cases (alone absentTwo first one differentOne oldOne).symm.trans absentOne
      · exact orderly.alone first second one two oldOne oldTwo absentOne absentTwo

/-- A move of one call that leaves the index and the flag as they are. -/
theorem Orderly.steps (orderly : Orderly system) {index : ℕ} {call fresh : IndexCall}
    (stands : system.calls[index]? = some call)
    (same : later.cluster.index = system.cluster.index) (ready : later.ready = system.ready)
    (calls : later.calls = system.calls.set index fresh) (target : fresh.target = call.target)
    (here : Fits system fresh.standing)
    (absent : fresh.standing.toldAbsent = true → call.standing.toldAbsent = true) :
    Orderly later := by
  apply orderly.put (ready ▸ orderly.single) calls (target.trans (orderly.shared index call stands))
    ((fits_congr same ready).mpr here)
  · exact fun other call _ found => (fits_congr same ready).mpr (orderly.fits other call found)
  · intro toldAbsent other call different found
    by_contra also
    exact different (orderly.alone other index _ _ found stands (by simpa using also)
      (absent toldAbsent))

/-- A move of one call after which the index exists, where nobody else is about to create it. -/
theorem Orderly.settles (orderly : Orderly system) {index : ℕ} {call fresh : IndexCall}
    (stands : system.calls[index]? = some call) (present : later.cluster.index ≠ none)
    (ready : later.ready = system.ready ∨ later.ready = [true])
    (calls : later.calls = system.calls.set index fresh) (target : fresh.target = call.target)
    (here : Fits later fresh.standing)
    (nobody : ∀ other call, other ≠ index → system.calls[other]? = some call →
      call.standing.toldAbsent = false) : Orderly later := by
  have single : ∃ flag, later.ready = [flag] := by
    rcases ready with same | marked
    · rw [same]
      exact orderly.single
    · exact ⟨true, marked⟩
  apply orderly.put single calls (target.trans (orderly.shared index call stands)) here
  · intro other call different found
    exact (orderly.fits other call found).present (nobody other call different found) present ready
  · exact fun _ => nobody

/-- A new call that is not about to create the index. -/
theorem Orderly.call (orderly : Orderly system) (caller : Caller) {standing : Standing}
    (fits : Fits system standing) (settled : standing.toldAbsent = false) :
    Orderly (system.call caller 0 standing) := by
  have found : ∀ (index : ℕ) call, (system.call caller 0 standing).calls[index]? = some call →
      system.calls[index]? = some call ∨ call = ⟨caller, 0, standing⟩ := by
    intro index call found
    change (system.calls ++ [_])[index]? = _ at found
    rw [List.getElem?_append] at found
    split at found
    · exact .inl found
    · exact .inr (List.mem_singleton.mp (List.mem_of_getElem? found))
  refine ⟨orderly.single, fun index call here => ?_, fun index call here => ?_, ?_⟩
  · rcases found index call here with old | rfl
    · exact orderly.shared index call old
    · rfl
  · rcases found index call here with old | rfl
    · exact orderly.fits index call old
    · exact fits
  · intro first second one two foundOne foundTwo absentOne absentTwo
    rcases found first one foundOne with oldOne | rfl
    · rcases found second two foundTwo with oldTwo | rfl
      · exact orderly.alone first second one two oldOne oldTwo absentOne absentTwo
      · cases settled.symm.trans absentTwo
    · cases settled.symm.trans absentOne

/-- Nobody is about to create an index that exists, or to create one through an instance that is
ready. -/
theorem Fits.settled {standing : Standing} (fits : Fits system standing)
    (quiet : system.cluster.index ≠ none ∨ system.ready = [true]) :
    standing.toldAbsent = false := by
  by_contra absent
  have creating : system.ready = [false] ∧ system.cluster.index = none := by
    revert fits absent
    rcases standing with request | reply | _ | _
    · cases request <;> simp [Standing.toldAbsent, Fits]
    · rcases reply with _ | present | _ | _ | _ | _ | _
      · simp [Standing.toldAbsent]
      · cases present <;> simp [Standing.toldAbsent, Fits]
      all_goals simp [Standing.toldAbsent]
    · simp [Standing.toldAbsent]
    · simp [Standing.toldAbsent]
  rcases quiet with present | ready
  · exact present creating.2
  · rw [creating.1] at ready
    cases ready

/-- What Elasticsearch carries out keeps the calls in order, unless it tells a second one that the
index is absent. -/
theorem Orderly.served (orderly : Orderly system) {index target : ℕ} {caller : Caller}
    {request : Request} (stands : system.calls[index]? = some ⟨caller, target, .asked request⟩)
    (apart : ¬ ChecksTogether (system, .serve index)) :
    Orderly ({ system with cluster := (system.cluster.serve surroundings request).2 }.put index
      ⟨caller, target, .asked request⟩ (.told (system.cluster.serve surroundings request).1)) := by
  have fits := orderly.fits index _ stands
  cases request with
  | putTemplate => exact orderly.steps stands rfl rfl rfl rfl fits (fun absent => by cases absent)
  | indexExists =>
      cases there : system.cluster.index with
      | some present =>
          have told : (system.cluster.serve surroundings .indexExists).1 = .found true := by
            simp [Cluster.serve, there]
          rw [told]
          exact orderly.steps stands rfl rfl rfl rfl (by simp [Fits, there])
            (fun absent => by cases absent)
      | none =>
          have told : (system.cluster.serve surroundings .indexExists).1 = .found false := by
            simp [Cluster.serve, there]
          have flag : system.ready = [false] := fits.resolve_right fun present => present there
          rw [told]
          have shared : target = 0 := orderly.shared index _ stands
          refine orderly.put orderly.single rfl shared ?_ ?_ ?_
          · exact ⟨flag, there⟩
          · exact fun other call _ found => orderly.fits other call found
          · intro _ other call _ found
            by_contra absent
            refine apart ⟨there, by simp [carriedOut, stands], call, List.mem_of_getElem? found, ?_⟩
            simpa using absent
  | getMapping =>
      obtain ⟨present, there⟩ := Option.ne_none_iff_exists'.mp fits
      have told : system.cluster.serve surroundings .getMapping =
          (.mappingRead present.mapping, system.cluster) := by
        simp [Cluster.serve, there]
      rw [told]
      exact orderly.steps stands rfl rfl rfl rfl fits (fun absent => by cases absent)
  | create =>
      have told : system.cluster.serve surroundings .create =
          (.created, { system.cluster with index := some ⟨indexMapping, .empty⟩ }) := by
        simp [Cluster.serve, fits.2]
      rw [told]
      refine orderly.settles stands (by simp [IndexSystem.put]) (.inl rfl) rfl rfl ?_ ?_
      · simp [Fits, IndexSystem.put]
      · intro other call different found
        by_contra absent
        exact different (orderly.alone other index _ _ found stands (by simpa using absent) rfl)
  | write eventId document =>
      refine orderly.settles stands (by simp [IndexSystem.put, Cluster.serve]) (.inl rfl) rfl rfl
        trivial ?_
      · exact fun other call _ found => (orderly.fits other call found).settled (.inr fits)
  | delete => exact fits.elim

/-- The end of `ensure_schema` over an index that exists. -/
theorem Orderly.finish (orderly : Orderly system) {index target : ℕ} {caller : Caller}
    {reply : Reply} (stands : system.calls[index]? = some ⟨caller, target, .told reply⟩)
    (present : system.cluster.index ≠ none) (lines : List SchemaLine) :
    Orderly (system.finish surroundings index ⟨caller, target, .told reply⟩ lines) := by
  have marked : (system.finish surroundings index ⟨caller, target, .told reply⟩ lines).ready =
      [true] := by
    obtain ⟨flag, ready⟩ := orderly.single
    have zero : target = 0 := orderly.shared index _ stands
    simp [IndexSystem.finish, IndexSystem.put, ready, zero]
  refine orderly.settles stands present (.inr marked) rfl rfl ?_ ?_
  · cases caller with
    | worker event => exact marked
    | lifespan | demoReset => trivial
  · exact fun other call _ found => (orderly.fits other call found).settled (.inl present)

theorem Orderly.resumed (orderly : Orderly system) {index target : ℕ} {caller : Caller}
    {reply : Reply} (stands : system.calls[index]? = some ⟨caller, target, .told reply⟩) :
    Orderly (system.resumed surroundings index ⟨caller, target, .told reply⟩ reply) := by
  have fits := orderly.fits index _ stands
  cases reply with
  | templatePut => exact orderly.steps stands rfl rfl rfl rfl fits nofun
  | found there =>
      cases there with
      | true => exact orderly.steps stands rfl rfl rfl rfl fits nofun
      | false => exact orderly.steps stands rfl rfl rfl rfl fits fun _ => rfl
  | mappingRead mapping => exact orderly.finish stands fits _
  | created => exact orderly.finish stands fits _
  | written => exact orderly.steps stands rfl rfl rfl rfl trivial nofun
  | deleted | refused => exact fits.elim

theorem orderly_moved (orderly : Orderly system) (healthy : Healthy move)
    (apart : ¬ ChecksTogether (system, move)) (moved : Moved surroundings system move later) :
    Orderly later := by
  cases moved with
  | idle => exact orderly
  | @entered target event ready flag =>
      cases healthy.1
      obtain ⟨only, shape⟩ := orderly.single
      rw [shape] at flag
      cases flag
      cases ready with
      | true => exact orderly.call _ shape rfl
      | false => exact orderly.call _ (.inl shape) rfl
  | guarded => cases healthy.2
  | served stands => exact orderly.served stands apart
  | resumed stands => exact orderly.resumed stands
  | constructed | ensured | resetCalled | vanished | gaveUp | lost | landedLate =>
      exact healthy.elim

/-! ### Runs -/

theorem Orderly.noneRaised (orderly : Orderly system) : NoneRaised system := by
  intro call member raised
  obtain ⟨index, found⟩ := List.mem_iff_getElem?.mp member
  have fits := orderly.fits index call found
  rw [raised] at fits
  exact fits

theorem orderly_run (surroundings : Surroundings) (orderly : Orderly system)
    (moves : List SchemaMove) (healthy : AllHealthy moves)
    (apart : ∀ visit ∈ visits surroundings system moves, ¬ ChecksTogether visit) :
    Orderly (run surroundings system moves) := by
  induction moves generalizing system with
  | nil => exact orderly
  | cons move moves ih =>
      have here : ¬ ChecksTogether (system, move) := apart _ (List.mem_cons_self ..)
      apply ih (orderly_moved orderly (healthy move (List.mem_cons_self ..)) here
        (next_moved surroundings system move))
      · exact fun later member => healthy later (List.mem_cons_of_mem _ member)
      · exact fun visit member => apart visit (List.mem_cons_of_mem _ member)

/-! ### Calls that checked together -/

/-- The calls that have raised, are about to, or are about to create the index. -/
def threats (system : IndexSystem) : ℕ := system.calls.countP fun call => call.standing.threatens

/-- More calls are about to create the index than one of them can succeed in.  One of them will
raise, whatever the order. -/
def Doomed (system : IndexSystem) : Prop :=
  (system.cluster.index ≠ none ∧ 1 ≤ system.threats) ∨ 2 ≤ system.threats

/-- Nobody asks for the index to be deleted. -/
def Undeleted (system : IndexSystem) : Prop := ∀ call ∈ system.calls, call.standing ≠ .asked .delete

theorem threats_set {index : ℕ} {call fresh : IndexCall}
    (stands : system.calls[index]? = some call)
    (calls : later.calls = system.calls.set index fresh) :
    later.threats + call.standing.threatens.toNat =
      system.threats + fresh.standing.threatens.toNat := by
  obtain ⟨inside, here⟩ := List.getElem?_eq_some_iff.mp stands
  have counted : call.standing.threatens = true → 1 ≤ system.threats := by
    intro threatens
    exact List.countP_pos_iff.mpr ⟨call, List.mem_of_getElem? stands, threatens⟩
  rw [threats, calls, List.countP_set inside, here, ← threats]
  cases old : call.standing.threatens with
  | true =>
      have pending := counted old
      cases fresh.standing.threatens <;> simp <;> omega
  | false => cases fresh.standing.threatens <;> simp

theorem threats_call (caller : Caller) (target : ℕ) (standing : Standing) :
    system.threats ≤ (system.call caller target standing).threats := by
  rw [threats, threats, IndexSystem.call, List.countP_append]
  exact Nat.le_add_right _ _

/-- A move of one call over the same index that does not end a threat. -/
theorem Doomed.steps (doomed : Doomed system) {index : ℕ} {call fresh : IndexCall}
    (stands : system.calls[index]? = some call)
    (same : system.cluster.index ≠ none → later.cluster.index ≠ none)
    (calls : later.calls = system.calls.set index fresh)
    (kept : call.standing.threatens = true → fresh.standing.threatens = true) : Doomed later := by
  have counts := threats_set stands calls
  have grows : system.threats ≤ later.threats := by
    cases old : call.standing.threatens with
    | false =>
        rw [old] at counts
        exact Nat.le.intro counts.symm
    | true =>
        rw [old, kept old] at counts
        omega
  exact doomed.imp (fun both => ⟨same both.1, both.2.trans grows⟩) fun two => two.trans grows

/-- A move of one call that makes the index exist leaves the threat of the other. -/
theorem two_threats (two : 2 ≤ system.threats) {index : ℕ} {call fresh : IndexCall}
    (stands : system.calls[index]? = some call) (present : later.cluster.index ≠ none)
    (calls : later.calls = system.calls.set index fresh) : Doomed later := by
  have counts := threats_set stands calls
  have most : call.standing.threatens.toNat ≤ 1 := Bool.toNat_le _
  exact .inl ⟨present, by omega⟩

theorem Doomed.served (doomed : Doomed system) {index target : ℕ} {caller : Caller}
    {request : Request} (stands : system.calls[index]? = some ⟨caller, target, .asked request⟩)
    (other : request ≠ .delete) :
    Doomed ({ system with cluster := (system.cluster.serve surroundings request).2 }.put index
      ⟨caller, target, .asked request⟩ (.told (system.cluster.serve surroundings request).1)) := by
  cases request with
  | putTemplate | indexExists => exact doomed.steps stands id rfl (fun threat => by cases threat)
  | getMapping =>
      refine doomed.steps stands (fun present => ?_) rfl (fun threat => by cases threat)
      obtain ⟨found, there⟩ := Option.ne_none_iff_exists'.mp present
      simp [Cluster.serve, IndexSystem.put, there]
  | write =>
      exact doomed.steps stands (fun _ => Option.some_ne_none _) rfl (fun threat => by cases threat)
  | delete => exact absurd rfl other
  | create =>
      cases there : system.cluster.index with
      | some present =>
          have told : system.cluster.serve surroundings .create = (.refused, system.cluster) := by
            simp [Cluster.serve, there]
          rw [told]
          exact doomed.steps stands id rfl fun _ => rfl
      | none =>
          -- one threat ends, and with it the absence of the index
          have told : system.cluster.serve surroundings .create =
              (.created, { system.cluster with index := some ⟨indexMapping, .empty⟩ }) := by
            simp [Cluster.serve, there]
          have two : 2 ≤ system.threats :=
            doomed.resolve_left fun both => both.1 there
          rw [told]
          exact two_threats two stands (by simp [IndexSystem.put]) rfl

theorem Doomed.resumed (doomed : Doomed system) {index target : ℕ} {caller : Caller}
    {reply : Reply} (stands : system.calls[index]? = some ⟨caller, target, .told reply⟩) :
    Doomed (system.resumed surroundings index ⟨caller, target, .told reply⟩ reply) := by
  cases reply with
  | templatePut | written | deleted => exact doomed.steps stands id rfl nofun
  | found there =>
      cases there with
      | true => exact doomed.steps stands id rfl nofun
      | false => exact doomed.steps stands id rfl fun _ => rfl
  | mappingRead | created => exact doomed.steps stands id rfl nofun
  | refused => exact doomed.steps stands id rfl fun _ => rfl

theorem doomed_moved (doomed : Doomed system) (undeleted : Undeleted system)
    (healthy : Healthy move) (moved : Moved surroundings system move later) : Doomed later := by
  cases moved with
  | idle => exact doomed
  | entered =>
      exact doomed.imp (fun both => ⟨both.1, both.2.trans (threats_call ..)⟩)
        fun two => two.trans (threats_call ..)
  | guarded => cases healthy.2
  | served stands =>
      apply doomed.served stands
      rintro rfl
      exact undeleted _ (List.mem_of_getElem? stands) rfl
  | resumed stands => exact doomed.resumed stands
  | constructed | ensured | resetCalled | vanished | gaveUp | lost | landedLate =>
      exact healthy.elim

theorem undeleted_moved (undeleted : Undeleted system) (healthy : Healthy move)
    (moved : Moved surroundings system move later) : Undeleted later := by
  have put : ∀ (index : ℕ) (fresh : IndexCall), fresh.standing ≠ .asked .delete →
      later.calls = system.calls.set index fresh → Undeleted later := by
    intro index fresh other calls call member
    rw [calls] at member
    rcases List.mem_or_eq_of_mem_set member with old | rfl
    · exact undeleted call old
    · exact other
  cases moved with
  | idle => exact undeleted
  | @entered target event ready flag =>
      intro call member
      rcases List.mem_append.mp member with old | new
      · exact undeleted call old
      · rw [List.mem_singleton.mp new]
        cases ready <;> simp [IndexSystem.entered, writeOf]
  | guarded => cases healthy.2
  | served stands => exact put _ _ (by simp) rfl
  | @resumed index target caller reply stands =>
      cases reply with
      | found there => cases there <;> exact put _ _ (by simp) rfl
      | mappingRead | created =>
          refine put _ _ ?_ rfl
          cases caller <;> simp [afterSchema, writeOf]
      | _ => exact put _ _ (by simp) rfl
  | constructed | ensured | resetCalled | vanished | gaveUp | lost | landedLate =>
      exact healthy.elim

theorem threatens_of_toldAbsent {standing : Standing} (absent : standing.toldAbsent = true) :
    standing.threatens = true := by
  unfold Standing.threatens
  split
  · rfl
  · rfl
  · exact absent

/-- The second answer that the index is absent dooms a call. -/
theorem ChecksTogether.doomed (together : ChecksTogether (system, move))
    (healthy : Healthy move) : Doomed (system.next surroundings move) := by
  obtain ⟨absent, carried, rival, member, rivals⟩ := together
  cases move with
  | serve index =>
      rw [carriedOut] at carried
      split at carried
      · rename_i caller target request stands
        cases carried
        have later : system.next surroundings (.serve index) = system.put index
            ⟨caller, target, .asked .indexExists⟩ (.told (.found false)) := by
          simp only [next, step, stands, Cluster.serve, Option.getD_some]
          rw [absent]
          rfl
        have one : 1 ≤ system.threats :=
          List.countP_pos_iff.mpr ⟨rival, member, threatens_of_toldAbsent rivals⟩
        have counts := threats_set stands (congrArg IndexSystem.calls later)
        simp only [Standing.threatens, Standing.toldAbsent, Bool.toNat_true,
          Bool.toNat_false] at counts
        exact .inr (by omega)
      · cases carried
  | index | resume => cases carried
  | construct | ensureSchema | demoReset | deleteIndex | fail | late => exact healthy.elim

theorem doomed_run (surroundings : Surroundings) (system : IndexSystem) (moves : List SchemaMove)
    (healthy : AllHealthy moves) (undeleted : Undeleted system)
    (fate : Doomed system ∨ ∃ visit ∈ visits surroundings system moves, ChecksTogether visit) :
    Doomed (run surroundings system moves) := by
  induction moves generalizing system with
  | nil => exact fate.resolve_right (by simp [visits])
  | cons move moves ih =>
      have first := healthy move (List.mem_cons_self ..)
      have moved := next_moved surroundings system move
      apply ih _ (fun later member => healthy later (List.mem_cons_of_mem _ member))
        (undeleted_moved undeleted first moved)
      rcases fate with doomed | ⟨visit, member, together⟩
      · exact .inl (doomed_moved doomed undeleted first moved)
      · rcases List.mem_cons.mp member with rfl | later
        · exact .inl (together.doomed first)
        · exact .inr ⟨visit, later, together⟩

/-- Once all calls are over, one of those that were doomed has raised. -/
theorem Doomed.raised (doomed : Doomed system)
    (ended : ∀ call ∈ system.calls, call.standing.ended = true) : ¬ NoneRaised system := by
  intro noneRaised
  have one : 1 ≤ system.threats := doomed.elim And.right fun two => one_le_two.trans two
  obtain ⟨call, member, threatens⟩ := List.countP_pos_iff.mp one
  have done := ended call member
  cases standing : call.standing with
  | raised => exact noneRaised call member standing
  | returned => simp [standing, Standing.threatens, Standing.toldAbsent] at threatens
  | asked | told => simp [standing, Standing.ended] at done

/-- A healthy Elasticsearch makes no call of `index` raise, from any state of the cluster and of the
flag, for any number of calls in any order, as long as no call is told that the index is absent
while another one that was told so has not created it yet.  Where that happens, a call has raised by
the time that all of them are over. -/
theorem none_raised_iff_never_checked_together (surroundings : Surroundings) (cluster : Cluster)
    (ready : Bool) (moves : List SchemaMove) (healthy : AllHealthy moves) :
    ((∀ visit ∈ visits surroundings (start cluster [ready]) moves, ¬ ChecksTogether visit) →
      NoneRaised (run surroundings (start cluster [ready]) moves)) ∧
    ((∀ call ∈ (run surroundings (start cluster [ready]) moves).calls,
        call.standing.ended = true) →
      NoneRaised (run surroundings (start cluster [ready]) moves) →
      ∀ visit ∈ visits surroundings (start cluster [ready]) moves, ¬ ChecksTogether visit) := by
  constructor
  · intro apart
    exact (orderly_run surroundings (orderly_start cluster ready) moves healthy apart).noneRaised
  · intro ended noneRaised visit member together
    have doomed := doomed_run surroundings (start cluster [ready]) moves healthy
      (by simp [Undeleted, start]) (.inr ⟨visit, member, together⟩)
    exact doomed.raised ended noneRaised

/-- Two first writes at once: both are told that the index is absent, and the second create finds
it. -/
def twoFirstWrites : List SchemaMove :=
  [.index 0 (sampleEvent "a") false, .index 0 (sampleEvent "b") false, .serve 0, .resume 0,
    .serve 1, .resume 1, .serve 0, .serve 1, .resume 0, .resume 1, .serve 0, .serve 1, .resume 1]

theorem the_second_create_raises :
    AllHealthy twoFirstWrites ∧
    ¬ NoneRaised (run sampleSurroundings (start ⟨none, none⟩ [false]) twoFirstWrites) := by
  constructor
  · simp [twoFirstWrites, AllHealthy, Healthy]
  · intro noneRaised
    have second : (run sampleSurroundings (start ⟨none, none⟩ [false])
        twoFirstWrites).calls[1]? = some ⟨.worker (sampleEvent "b"), 0, .raised⟩ := rfl
    exact noneRaised _ (List.mem_of_getElem? second) rfl

/-- The second of two first writes asks after the first has created the index. -/
def oneAfterTheOther : List SchemaMove :=
  [.index 0 (sampleEvent "a") false, .index 0 (sampleEvent "b") false, .serve 0, .resume 0,
    .serve 1, .resume 1, .serve 0, .resume 0, .serve 0, .serve 1, .resume 0, .resume 1, .serve 0,
    .resume 0, .serve 1, .resume 1, .serve 1, .resume 1]

theorem one_create_after_the_other :
    NoneRaised (run sampleSurroundings (start ⟨none, none⟩ [false]) oneAfterTheOther) := by
  have healthy : AllHealthy oneAfterTheOther := by simp [oneAfterTheOther, AllHealthy, Healthy]
  have apart : ∀ visit ∈ visits sampleSurroundings (start ⟨none, none⟩ [false]) oneAfterTheOther,
      ¬ ChecksTogether visit := by decide
  exact (none_raised_iff_never_checked_together sampleSurroundings ⟨none, none⟩ false
    oneAfterTheOther healthy).1 apart

end IndexSystem

end FeathrEvents
