/-
Module: FeathrEvents.Proofs.ReindexVerdict
Purpose: The recovery script exits with 0 exactly when the index is the collection afterwards, counts every
  document once, names every one that it skipped, and in place takes nothing away.
Trusted boundary: none
Main exports: Reindexing.Scanned, Reindexing.scanned, ReindexFaults.Quiet, System.KeyedById,
  System.keyedById_run, System.reindex_verdict
-/
import FeathrEvents.App.Reindex
import FeathrEvents.Proofs.DocumentReindex

namespace FeathrEvents

open Collections (OrderedDict)

/-- The id that a line says was skipped. -/
def ReindexLine.skipped? : ReindexLine → Option String
  | .skipped eventId _ => some eventId
  | _ => none

namespace Reindexing

variable {host : Host} {total : ℕ} {items more : List (Document × Attempt)} {state later last : Reindexing}

/-- The items that the loop does not index, because a document makes no valid `Event` or the call
raised.  The script counts them as errors and goes on. -/
def failed (items : List (Document × Attempt)) : List (Document × Attempt) :=
  items.filter fun item => item.2 ≠ .indexed

/-- What the loop does over some items, whatever it prints about its progress: every item is counted
once, as done or as an error, and only indexed ones add to the index. -/
structure Scanned (host : Host) (items : List (Document × Attempt))
    (state later : Reindexing) : Prop where
  counted : later.done + later.errors = state.done + state.errors + items.length
  errors : later.errors = state.errors + (failed items).length
  named : later.lines.filterMap ReindexLine.skipped? =
    state.lines.filterMap ReindexLine.skipped? ++ (failed items).map fun item => item.1.id
  grows : ∀ eventId ∈ state.index.keys, eventId ∈ later.index.keys
  sources : ∀ eventId ∈ later.index.keys,
    eventId ∈ state.index.keys ∨ eventId ∈ items.map fun item => item.1.id
  indexed : ∀ item ∈ items, item.2 = .indexed → item.1.id ∈ later.index.keys
  exact : failed items = [] → later.index = reindex host (items.map Prod.fst) state.index

theorem Scanned.trans (first : Scanned host items state later)
    (second : Scanned host more later last) :
    Scanned host (items ++ more) state last where
  counted := by
    rw [second.counted, first.counted, List.length_append]
    omega
  errors := by
    rw [second.errors, first.errors, failed, failed, failed, List.filter_append, List.length_append]
    omega
  named := by
    rw [second.named, first.named, failed, failed, failed, List.filter_append, List.map_append,
      List.append_assoc]
  grows eventId known := second.grows eventId (first.grows eventId known)
  sources eventId known := by
    rw [List.map_append, List.mem_append]
    rcases second.sources eventId known with before | read
    · exact (first.sources eventId before).imp_right .inl
    · exact .inr (.inr read)
  indexed item member done := by
    rcases List.mem_append.mp member with early | late
    · exact second.grows _ (first.indexed item early done)
    · exact second.indexed item late done
  exact clean := by
    rw [failed, List.filter_append, List.append_eq_nil_iff] at clean
    rw [second.exact clean.2, first.exact clean.1, List.map_append, reindex, reindex, reindex,
      List.foldl_append]

/-- Printing progress is no part of it. -/
theorem Scanned.progress (scanned : Scanned host items state later) (done total : ℕ) :
    Scanned host items state (later.print (.progress done total)) where
  counted := scanned.counted
  errors := scanned.errors
  named := by
    rw [print, List.filterMap_append, scanned.named]
    exact List.append_nil _
  grows := scanned.grows
  sources := scanned.sources
  indexed := scanned.indexed
  exact := scanned.exact

theorem mem_keys_set {index : OrderedDict String (OrderedDict String Json)} {eventId other : String}
    {source : OrderedDict String Json} :
    other ∈ (index.set eventId source).keys ↔ other = eventId ∨ other ∈ index.keys := by
  rw [OrderedDict.mem_keys, OrderedDict.mem_keys, OrderedDict.get?_set]
  by_cases same : other = eventId <;> simp [same]

theorem scanned_take (host : Host) (total : ℕ) (state : Reindexing) (item : Document × Attempt) :
    Scanned host [item] state (state.take host total item) := by
  have before : ∀ next : Reindexing, Scanned host [item] state next →
      Scanned host [item] state (if next.done % reindexBatch = 0 ∧ next.done ≠ 0 then
        next.print (.progress next.done total) else next) := by
    intro next scanned
    split
    · exact scanned.progress _ _
    · exact scanned
  obtain ⟨document, attempt⟩ := item
  apply before
  have skips : ∀ (next : Reindexing) (reason : String), attempt ≠ .indexed →
      next.done = state.done → next.errors = state.errors → next.lines = state.lines →
      (∀ eventId ∈ state.index.keys, eventId ∈ next.index.keys) →
      (∀ eventId ∈ next.index.keys, eventId ∈ state.index.keys ∨ eventId = document.id) →
      Scanned host [(document, attempt)] state
        ({ next with errors := next.errors + 1 }.print (.skipped document.id reason)) := by
    intro next reason other done errors lines grows sources
    have missed : failed [(document, attempt)] = [(document, attempt)] := by
      simp [failed, other]
    refine ⟨?_, ?_, ?_, grows, ?_, fun item member done => ?_, fun clean => ?_⟩
    · simp only [print, done, errors, List.length_singleton]
      omega
    · simp only [print, errors, missed, List.length_singleton]
    · simp only [print, lines, missed, List.filterMap_append]
      rfl
    · exact fun eventId known => (sources eventId known).imp_right List.mem_singleton.mpr
    · rw [List.mem_singleton.mp member] at done
      exact absurd done other
    · rw [missed] at clean
      cases clean
  have written : ∀ eventId ∈ (state.write host document.readBack.toEvent).index.keys,
      eventId ∈ state.index.keys ∨ eventId = document.id := fun eventId known =>
    (mem_keys_set.mp known).symm
  have kept : ∀ eventId ∈ state.index.keys,
      eventId ∈ (state.write host document.readBack.toEvent).index.keys := fun eventId known =>
    mem_keys_set.mpr (.inr known)
  cases attempt with
  | invalid reason => exact skips state reason (by simp) rfl rfl rfl (fun _ => id) fun _ => .inl
  | raised reason landed =>
      cases landed with
      | false => exact skips state reason (by simp) rfl rfl rfl (fun _ => id) fun _ => .inl
      | true => exact skips (state.write host document.readBack.toEvent) reason (by simp) rfl rfl rfl kept written
  | indexed =>
      refine ⟨?_, rfl, (List.append_nil _).symm, kept, ?_, fun item member _ => ?_, fun _ => rfl⟩
      · simp only [write, List.length_singleton]
        omega
      · exact fun eventId known => (written eventId known).imp_right List.mem_singleton.mpr
      · rw [List.mem_singleton.mp member]
        exact mem_keys_set.mpr (.inl rfl)

theorem scanned (host : Host) (total : ℕ) (items : List (Document × Attempt)) (state : Reindexing) :
    Scanned host items state (state.scan host total items) := by
  induction items using List.reverseRecOn with
  | nil =>
      refine ⟨rfl, rfl, (List.append_nil _).symm, fun _ => id, fun _ => .inl, fun _ member => ?_,
        fun _ => rfl⟩
      cases member
  | append_singleton items item ih =>
      rw [scan, List.foldl_append]
      exact ih.trans (scanned_take host total _ item)

end Reindexing

/-- None of the calls that are made outside the `try` raises.  One that does ends the script before
its last line, which says how it went. -/
structure ReindexFaults.Quiet (faults : ReindexFaults) (recreate : Bool) (total : ℕ) : Prop where
  counting : faults.counting = false
  dropping : recreate = true → faults.dropping = none
  preparing : faults.preparing = false
  reading : ∀ documents ∈ faults.reading, total < documents
  refreshing : faults.refreshing = false
  recounting : faults.recounting = false

namespace System

/-- The documents of the collection, each with what becomes of it. -/
def reindexItems (attempts : ℕ → Attempt) (system : System) : List (Document × Attempt) :=
  system.mongo.values.zipIdx.map fun item => (item.1, attempts item.2)

theorem reindexItems_fst (attempts : ℕ → Attempt) (system : System) :
    (system.reindexItems attempts).map Prod.fst = system.mongo.values := by
  simp [reindexItems, Function.comp_def]

theorem length_reindexItems (attempts : ℕ → Attempt) (system : System) :
    (system.reindexItems attempts).length = system.mongo.size := by
  simp [reindexItems, OrderedDict.values, OrderedDict.size]

theorem failed_reindexItems_eq_nil (attempts : ℕ → Attempt) (system : System) :
    Reindexing.failed (system.reindexItems attempts) = [] ↔
      ∀ position < system.mongo.size, attempts position = .indexed := by
  rw [Reindexing.failed, List.filter_eq_nil_iff, ← length_reindexItems attempts]
  constructor
  · intro clean position inside
    have here := clean _ (List.getElem_mem inside)
    simpa [reindexItems] using here
  · intro clean item member
    obtain ⟨position, inside, rfl⟩ := List.mem_iff_getElem.mp member
    have here := clean position inside
    simpa [reindexItems] using here

variable {setup : Setup} {recreate : Bool} {faults : ReindexFaults} {attempts : ℕ → Attempt}
  {system : System}

/-- The script when its loop begins. -/
def reindexBegun (recreate : Bool) (system : System) : Reindexing :=
  let state := (⟨0, 0, system.elastic, []⟩ : Reindexing).print (.source system.mongo.size)
  if recreate then { state with index := .empty }.print .dropped else state

/-- How many documents the loop is given. -/
def reindexReads (faults : ReindexFaults) (system : System) : ℕ :=
  faults.reading.getD (system.mongo.size + 1)

/-- The script before its verdict. -/
def reindexScanned (setup : Setup) (recreate : Bool) (faults : ReindexFaults)
    (attempts : ℕ → Attempt)
    (system : System) : Reindexing :=
  (reindexBegun recreate system).scan setup.host system.mongo.size
    ((system.reindexItems attempts).take (reindexReads faults system))

/-- The script is interrupted, or comes to its verdict. -/
theorem reindexMain_cases (setup : Setup) (recreate : Bool) (faults : ReindexFaults)
    (attempts : ℕ → Attempt) (system : System) :
    (¬ faults.Quiet recreate system.mongo.size ∧
      (system.reindexMain setup recreate faults attempts).2 = 1 ∧
      (recreate = false → ∀ eventId ∈ system.elastic.keys,
        eventId ∈ (system.reindexMain setup recreate faults attempts).1.index.keys)) ∨
    (faults.Quiet recreate system.mongo.size ∧ ∃ later,
      Reindexing.Scanned setup.host (system.reindexItems attempts) (reindexBegun recreate system) later ∧
      system.reindexMain setup recreate faults attempts =
        ((later.print (.reindexed later.done later.errors)).print
          (.verdict system.mongo.size later.index.size (later.index.size = system.mongo.size)),
        if later.index.size = system.mongo.size ∧ later.errors = 0 then 0 else 1)) := by
  by_cases counting : faults.counting = true
  · refine .inl ⟨fun quiet => ?_, ?_⟩
    · rw [quiet.counting] at counting
      cases counting
    · simp [reindexMain, counting]
  by_cases dropping : recreate = true ∧ faults.dropping ≠ none
  · refine .inl ⟨fun quiet => dropping.2 (quiet.dropping dropping.1), ?_⟩
    simp [reindexMain, counting, dropping]
  have begun : recreate = false → (reindexBegun recreate system).index = system.elastic := by
    rintro rfl
    rfl
  have whole : system.reindexMain setup recreate faults attempts =
      if faults.preparing then (reindexBegun recreate system, 1)
      else
        let later := reindexScanned setup recreate faults attempts system
        if reindexReads faults system ≤ system.mongo.size ∨ faults.refreshing ∨ faults.recounting then
          (later, 1)
        else
          ((later.print (.reindexed later.done later.errors)).print
            (.verdict system.mongo.size later.index.size (later.index.size = system.mongo.size)),
          if later.index.size = system.mongo.size ∧ later.errors = 0 then 0 else 1) := by
    simp only [reindexMain, if_neg counting, if_neg dropping]
    rfl
  rw [whole]
  by_cases preparing : faults.preparing = true
  · rw [if_pos preparing]
    refine .inl ⟨fun quiet => ?_, rfl, fun inPlace eventId known => ?_⟩
    · rw [quiet.preparing] at preparing
      cases preparing
    · exact begun inPlace ▸ known
  · rw [if_neg preparing]
    have scanned := Reindexing.scanned setup.host system.mongo.size
      ((system.reindexItems attempts).take (reindexReads faults system)) (reindexBegun recreate system)
    by_cases interrupted :
        reindexReads faults system ≤ system.mongo.size ∨ faults.refreshing ∨ faults.recounting
    · rw [if_pos interrupted]
      refine .inl ⟨fun quiet => ?_, rfl, fun inPlace eventId known => ?_⟩
      · rcases interrupted with early | refreshing | recounting
        · cases reading : faults.reading with
          | none =>
              rw [reindexReads, reading, Option.getD_none] at early
              omega
          | some documents =>
              rw [reindexReads, reading, Option.getD_some] at early
              exact absurd (quiet.reading documents reading) (not_lt.mpr early)
        · rw [quiet.refreshing] at refreshing
          cases refreshing
        · rw [quiet.recounting] at recounting
          cases recounting
      · exact scanned.grows eventId (begun inPlace ▸ known)
    · rw [if_neg interrupted]
      simp only [not_or] at interrupted
      obtain ⟨late, refreshing, recounting⟩ := interrupted
      refine .inr ⟨⟨by simpa using counting, fun recreated => ?_, by simpa using preparing, ?_,
        by simpa using refreshing, by simpa using recounting⟩, _, ?_, rfl⟩
      · by_contra raises
        exact dropping ⟨recreated, raises⟩
      · intro documents reading
        rw [Option.mem_def] at reading
        simpa [reindexReads, reading] using late
      · rw [List.take_of_length_le (by rw [length_reindexItems]; omega)] at scanned
        rw [reindexScanned, List.take_of_length_le (by rw [length_reindexItems]; omega)]
        exact scanned

/-! ### The verdict -/

/-- The collection has each document under its own id.  The script looks at the ids inside the documents
and counts the entries, so this is what makes the two speak of the same thing. -/
def KeyedById (system : System) : Prop :=
  system.mongo.values.map Document.id = system.mongo.keys

/-- The worker leaves the collection so. -/
theorem keyedById_run (setup : Setup) (moves : List Move) : KeyedById (run setup moves) := by
  have named : ∀ item ∈ (run setup moves).mongo.items, item.2.id = item.1 := fun item member =>
    id_of_stored (OrderedDict.get?_eq_some.mpr member)
  rw [KeyedById, OrderedDict.values, OrderedDict.keys, List.map_map]
  exact List.map_congr_left named

variable {later : Reindexing}

theorem KeyedById.reindexItems (keyed : KeyedById system) (attempts : ℕ → Attempt) :
    (system.reindexItems attempts).map (fun item => item.1.id) = system.mongo.keys := by
  rw [← keyed, ← reindexItems_fst attempts, List.map_map]
  rfl

theorem reindexBegun_counts (recreate : Bool) (system : System) :
    (reindexBegun recreate system).done = 0 ∧ (reindexBegun recreate system).errors = 0 ∧
      (reindexBegun recreate system).lines.filterMap ReindexLine.skipped? = [] := by
  cases recreate <;> exact ⟨rfl, rfl, rfl⟩

section Verdict

variable (scanned : Reindexing.Scanned setup.host (system.reindexItems attempts)
  (reindexBegun recreate system) later)

include scanned

theorem errors_eq_zero_iff :
    later.errors = 0 ↔ ∀ position < system.mongo.size, attempts position = .indexed := by
  rw [scanned.errors, (reindexBegun_counts recreate system).2.1, Nat.zero_add,
    List.length_eq_zero_iff, failed_reindexItems_eq_nil]

/-- Where nothing was skipped, the index has every id of the collection. -/
theorem subset_index (keyed : KeyedById system) (none : later.errors = 0) :
    system.mongo.keys ⊆ later.index.keys := by
  intro eventId known
  rw [← keyed.reindexItems attempts] at known
  obtain ⟨item, member, rfl⟩ := List.mem_map.mp known
  have clean := (failed_reindexItems_eq_nil attempts system).mpr ((errors_eq_zero_iff scanned).mp none)
  refine scanned.indexed item member (not_not.mp fun other => ?_)
  exact List.filter_eq_nil_iff.mp clean item member (decide_eq_true other)

/-- Where the counts are equal too, it has no other id: what the script compares is enough. -/
theorem mem_index_iff (keyed : KeyedById system) (none : later.errors = 0)
    (sizes : later.index.size = system.mongo.size) (eventId : String) :
    eventId ∈ later.index.keys ↔ eventId ∈ system.mongo.keys := by
  have fits : later.index.keys.length ≤ system.mongo.keys.length := by
    rw [OrderedDict.keys, OrderedDict.keys, List.length_map, List.length_map]
    exact sizes.le
  have inside := List.subperm_of_subset (OrderedDict.nodup_keys system.mongo)
    (subset_index scanned keyed none)
  exact (inside.perm_of_length_le fits).mem_iff.symm

/-- The counts are equal when nothing was skipped and nothing foreign was in the index. -/
theorem size_index (keyed : KeyedById system) (none : later.errors = 0)
    (fits : recreate = true ∨ ∀ eventId ∈ system.elastic.keys, eventId ∈ system.mongo.keys) :
    later.index.size = system.mongo.size := by
  have within : later.index.keys ⊆ system.mongo.keys := by
    intro eventId known
    rcases scanned.sources eventId known with before | read
    · cases recreate with
      | true => cases before
      | false => exact fits.resolve_left Bool.false_ne_true eventId before
    · exact keyed.reindexItems attempts ▸ read
  have few := List.Nodup.length_le_of_subset (OrderedDict.nodup_keys _) within
  have many := List.Nodup.length_le_of_subset (OrderedDict.nodup_keys _)
    (subset_index scanned keyed none)
  simp only [OrderedDict.keys, List.length_map] at few many
  exact Nat.le_antisymm few many

/-- A scan that skips nothing is a rebuild without faults. -/
theorem index_rebuilt (none : later.errors = 0) :
    later.index = (system.reindexed setup recreate).elastic := by
  have clean := (failed_reindexItems_eq_nil attempts system).mpr ((errors_eq_zero_iff scanned).mp none)
  rw [scanned.exact clean, reindexItems_fst]
  cases recreate <;> rfl

/-- The counts of a scan add up to the collection. -/
theorem counts_add_up : later.done + later.errors = system.mongo.size := by
  have counted := scanned.counted
  obtain ⟨done, errors, -⟩ := reindexBegun_counts recreate system
  rw [done, errors, length_reindexItems] at counted
  exact counted.trans (Nat.zero_add _)

theorem skipped_named :
    later.lines.filterMap ReindexLine.skipped? =
      (Reindexing.failed (system.reindexItems attempts)).map fun item => item.1.id := by
  rw [scanned.named, (reindexBegun_counts recreate system).2.2, List.nil_append]

end Verdict

/-- For every system whose documents are stored under their own ids, whatever its index has and whatever
the drivers do: the script exits with 0 exactly when no call outside the `try` raised, every document was
indexed, and the index was dropped or had nothing that the collection has not.  Then the index is the one
that is rebuilt without faults, with the ids of the collection.  Without such an exception every document
is counted once, and those that were skipped are named in order; and in place no id is lost. -/
theorem reindex_verdict (setup : Setup) (system : System) (keyed : KeyedById system)
    (recreate : Bool) (faults : ReindexFaults) (attempts : ℕ → Attempt) :
    ((system.reindexMain setup recreate faults attempts).2 = 0 ↔
      faults.Quiet recreate system.mongo.size ∧
      (∀ position < system.mongo.size, attempts position = .indexed) ∧
      (recreate = true ∨ ∀ eventId ∈ system.elastic.keys, eventId ∈ system.mongo.keys)) ∧
    ((system.reindexMain setup recreate faults attempts).2 = 0 →
      (system.reindexMain setup recreate faults attempts).1.index =
        (system.reindexed setup recreate).elastic ∧
      ∀ eventId, eventId ∈ (system.reindexed setup recreate).elastic.keys ↔
        eventId ∈ system.mongo.keys) ∧
    (faults.Quiet recreate system.mongo.size →
      (system.reindexMain setup recreate faults attempts).1.done +
        (system.reindexMain setup recreate faults attempts).1.errors = system.mongo.size ∧
      (system.reindexMain setup recreate faults attempts).1.lines.filterMap ReindexLine.skipped? =
        (Reindexing.failed (system.reindexItems attempts)).map fun item => item.1.id) ∧
    (recreate = false → ∀ eventId ∈ system.elastic.keys,
      eventId ∈ (system.reindexMain setup recreate faults attempts).1.index.keys) := by
  rcases reindexMain_cases setup recreate faults attempts system with
    ⟨loud, code, grows⟩ | ⟨quiet, later, scanned, whole⟩
  · have failed : (system.reindexMain setup recreate faults attempts).2 ≠ 0 := by
      rw [code]
      decide
    exact ⟨⟨fun zero => absurd zero failed, fun fine => absurd fine.1 loud⟩,
      fun zero => absurd zero failed, fun quiet => absurd quiet loud, grows⟩
  · have zero_iff : (system.reindexMain setup recreate faults attempts).2 = 0 ↔
        later.index.size = system.mongo.size ∧ later.errors = 0 := by
      rw [whole]
      by_cases fine : later.index.size = system.mongo.size ∧ later.errors = 0
      · simp [fine]
      · simp only [fine, if_false, iff_false]
        decide
    have index : (system.reindexMain setup recreate faults attempts).1.index = later.index := by
      rw [whole]
      rfl
    refine ⟨zero_iff.trans ⟨?_, ?_⟩, fun zero => ?_, fun _ => ⟨?_, ?_⟩, ?_⟩
    · rintro ⟨sizes, none⟩
      refine ⟨quiet, (errors_eq_zero_iff scanned).mp none, ?_⟩
      cases recreate with
      | true => exact .inl rfl
      | false => exact .inr fun eventId known =>
          (mem_index_iff scanned keyed none sizes eventId).mp (scanned.grows eventId known)
    · rintro ⟨-, all, fits⟩
      have none := (errors_eq_zero_iff scanned).mpr all
      exact ⟨size_index scanned keyed none fits, none⟩
    · obtain ⟨sizes, none⟩ := zero_iff.mp zero
      rw [index, ← index_rebuilt scanned none]
      exact ⟨rfl, mem_index_iff scanned keyed none sizes⟩
    · have counted := counts_add_up scanned
      rw [whole]
      exact counted
    · rw [whole, ← skipped_named scanned]
      simp only [Reindexing.print, List.filterMap_append]
      exact (List.append_nil _).trans (List.append_nil _)
    · rintro rfl eventId known
      rw [index]
      exact scanned.grows eventId known

/-- A collection of one document, and the id of another one in its index. -/
def haunted : System :=
  { create with
    mongo := create.mongo.set "a" (sampleEvent "a").toDocument
    elastic := create.elastic.set "ghost" .empty }

/-- Rebuilt in place, the index keeps the foreign id, and the script says so. -/
theorem the_ghost_is_noticed :
    (haunted.reindexMain (sampleSetup {} {}) false {} fun _ => .indexed).2 ≠ 0 := by
  intro zero
  obtain ⟨-, -, recreated | fits⟩ := (reindex_verdict (sampleSetup {} {}) haunted rfl false {}
    fun _ => .indexed).1.mp zero
  · cases recreated
  · have known : "ghost" ∈ haunted.mongo.keys := fits "ghost" (List.mem_singleton_self _)
    exact absurd (List.mem_singleton.mp known) (by decide)

end System

end FeathrEvents
