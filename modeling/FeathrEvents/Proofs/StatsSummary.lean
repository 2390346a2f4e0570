/-
Module: FeathrEvents.Proofs.StatsSummary
Purpose: What the counts of `stats` say: they count every matching event once, in the window where it
  happened, and coarser windows add up finer ones.
Trusted boundary: none
Main exports: statsKey, Summarises, ExactSummary, stats_is_exact, stats_adds_up
-/
import FeathrEvents.App.Stats

namespace FeathrEvents

open Histogram (Groups)

/-- The `_id` under which an event is counted. -/
def statsKey (unit : DateUnit) (document : Document) : DateTime × String :=
  (unit.trunc document.timestamp, document.eventType)

/-- The order of `$sort`. -/
def Row.Before (first second : Row) : Prop :=
  first.bin.wall < second.bin.wall ∨
    (first.bin.wall = second.bin.wall ∧ first.eventType ≤ second.eventType)

instance : DecidableRel Row.Before := fun _ _ => inferInstanceAs (Decidable (_ ∨ _))

/-- What the pipeline lets through. -/
def StatsPipeline.matched (pipeline : StatsPipeline) (collection : Collection) : List Document :=
  collection.selected (pipeline.matching.getD {})

/-- The aggregation groups what the pipeline lets through by unit and type, in the order of `$sort`:
what MongoDB promises of the stages that the pipeline has. -/
def Summarises (collection : Collection)
    (aggregate : StatsPipeline → Except Exn (List Row)) : Prop :=
  ∀ pipeline, ∃ rows, aggregate pipeline = .ok rows ∧
    Groups (statsKey pipeline.unit) Row.key Row.count (pipeline.matched collection) rows ∧
    rows.Pairwise Row.Before

/-! ### The units -/

namespace DateUnit

theorem width_pos (unit : DateUnit) : 0 < unit.width := by
  cases unit <;> decide

/-- A unit starts at or before each of its moments, and ends after it. -/
theorem trunc_contains (unit : DateUnit) (time : DateTime) :
    (unit.trunc time).wall ≤ time.instant ∧ time.instant < (unit.trunc time).wall + unit.width := by
  have positive := unit.width_pos
  have below := Int.ediv_mul_le (time.instant + unit.lead) positive.ne'
  have above := Int.lt_ediv_add_one_mul_self (time.instant + unit.lead) positive
  rw [add_mul, one_mul] at above
  simp only [trunc]
  constructor <;> omega

/-- The units do not overlap. -/
theorem trunc_eq_iff (unit : DateUnit) (first second : DateTime) :
    unit.trunc second = unit.trunc first ↔ (unit.trunc first).wall ≤ second.instant ∧
      second.instant < (unit.trunc first).wall + unit.width := by
  constructor
  · intro same
    rw [← same]
    exact unit.trunc_contains second
  · rintro ⟨after, before⟩
    have positive := unit.width_pos
    simp only [trunc] at after before ⊢
    have quotient : (second.instant + unit.lead) / unit.width =
        (first.instant + unit.lead) / unit.width := by
      apply le_antisymm
      · apply Int.lt_add_one_iff.mp
        apply Int.ediv_lt_of_lt_mul positive
        rw [add_mul, one_mul]
        omega
      · apply (Int.le_ediv_iff_mul_le positive).mpr
        omega
    rw [quotient]

/-- The start of a coarser unit is that of the start of a finer one that it is made of. -/
theorem trunc_trunc {fine coarse : DateUnit} (within : fine.width ≤ coarse.width)
    (time : DateTime) :
    coarse.trunc (fine.trunc time) = coarse.trunc time := by
  obtain ⟨wall, offset⟩ := time
  cases fine <;> cases coarse <;>
    simp only [width] at within <;>
    simp only [trunc, width, lead, DateTime.instant, Option.getD_none, sub_zero, DateTime.mk.injEq,
      and_true] <;>
    omega

end DateUnit

namespace EventQueries

variable {normaliser : Normaliser} {collection : Collection}
  {aggregate : StatsPipeline → Except Exn (List Row)}

/-! ### One summary -/

/-- The events that a row counts: those of its type in the unit that starts at its bin. -/
def Row.Counts (unit : DateUnit) (row : Row) (document : Document) : Prop :=
  document.eventType = row.eventType ∧ row.bin.wall ≤ document.timestamp.instant ∧
    document.timestamp.instant < row.bin.wall + unit.width

instance (unit : DateUnit) (row : Row) (document : Document) :
    Decidable (Row.Counts unit row document) :=
  inferInstanceAs (Decidable (_ ∧ _ ∧ _))

/-- The rows count each of the events once, are in strict order, and none of them is empty.  So the
sum of the counts is the number of the events. -/
structure ExactSummary (selected : List Document) (summary : Summary) : Prop where
  total : summary.total = selected.length
  ordered : summary.buckets.Pairwise fun first second =>
    first.bin.wall < second.bin.wall ∨
      (first.bin.wall = second.bin.wall ∧ first.eventType < second.eventType)
  counted : ∀ row ∈ summary.buckets, 0 < row.count ∧
    row.count = selected.countP (Row.Counts summary.bucket.mongoUnit row ·)
  covered : ∀ document ∈ selected, ∃ row ∈ summary.buckets,
    Row.Counts summary.bucket.mongoUnit row document

/-- An empty query is one that everything matches. -/
theorem eq_empty_of_isEmpty {filter : Filter} (empty : filter.isEmpty = true) : filter = {} := by
  obtain ⟨eventType, userId, sourceUrl, gte, lte⟩ := filter
  simp only [Filter.isEmpty, Bool.and_eq_true, Option.isNone_iff_eq_none] at empty
  obtain ⟨⟨⟨⟨rfl, rfl⟩, rfl⟩, rfl⟩, rfl⟩ := empty
  rfl

/-- What `stats` asks for and returns. -/
theorem stats_eq (summarises : Summarises collection aggregate) (normaliser : Normaliser)
    (bucket : StatsBucket) (since last : Option DateTime) (eventType : Option String) :
    ∃ rows, stats normaliser aggregate bucket since last eventType =
        .ok ⟨bucket, (rows.map Row.count).sum, rows⟩ ∧
      Groups (statsKey bucket.mongoUnit) Row.key Row.count
        (collection.selected (filter normaliser eventType none none since last)) rows ∧
      rows.Pairwise Row.Before := by
  obtain ⟨rows, answered, groups, sorted⟩ := summarises
    { matching := if (filter normaliser eventType none none since last).isEmpty then none
        else some (filter normaliser eventType none none since last)
      unit := bucket.mongoUnit }
  refine ⟨rows, by simp only [stats, answered]; rfl, ?_, sorted⟩
  unfold StatsPipeline.matched at groups
  dsimp only at groups
  split at groups
  · rename_i empty
    rw [eq_empty_of_isEmpty empty]
    exact groups
  · exact groups

/-- The rows of the groups are the units in which their events happened. -/
theorem counts_iff {unit : DateUnit} {row : Row} {occurs : Document}
    (named : statsKey unit occurs = row.key) (document : Document) :
    statsKey unit document = row.key ↔ Row.Counts unit row document := by
  have bin : row.bin = unit.trunc occurs.timestamp := (congrArg Prod.fst named).symm
  simp only [statsKey, Row.key, Prod.mk.injEq, Row.Counts, bin, DateUnit.trunc_eq_iff]
  exact and_comm

/-- The bins are naive, as MongoDB returns them. -/
theorem naive_of_groups {unit : DateUnit} {documents : List Document} {rows : List Row}
    (groups : Groups (statsKey unit) Row.key Row.count documents rows) {row : Row}
    (listed : row ∈ rows) : row.bin.offset = none := by
  obtain ⟨occurs, -, named⟩ := groups.occupied row listed
  have bin : unit.trunc occurs.timestamp = row.bin := congrArg Prod.fst named
  rw [← bin]
  rfl

/-- The counts by type and window are exact, for every collection and every question, and their total is the
number of events that `list_events` finds for the same question. -/
theorem stats_is_exact (normaliser : Normaliser) (collection : Collection)
    (aggregate : StatsPipeline → Except Exn (List Row)) (summarises : Summarises collection aggregate)
    (bucket : StatsBucket) (since last : Option DateTime) (eventType : Option String) :
    ∃ summary, stats normaliser aggregate bucket since last eventType = .ok summary ∧
      summary.bucket = bucket ∧
      ExactSummary (collection.selected (filter normaliser eventType none none since last)) summary ∧
      ∀ find, FindsIn collection find →
        summary.total = (find (filter normaliser eventType none none since last)).length := by
  obtain ⟨rows, answered, groups, sorted⟩ :=
    stats_eq summarises normaliser bucket since last eventType
  have total : (rows.map Row.count).sum =
      (collection.selected (filter normaliser eventType none none since last)).length := by
    have all := groups.sum_filter fun _ => true
    simpa using all
  refine ⟨_, answered, rfl, ⟨total, ?_, fun row listed => ⟨groups.count_pos listed, ?_⟩, ?_⟩,
    fun find finds => total.trans (finds _).perm.length_eq.symm⟩
  · have distinct : rows.Pairwise fun first second => first.key ≠ second.key :=
      List.pairwise_map.mp groups.distinct
    refine (sorted.and distinct).imp_of_mem fun {first second} here there both => ?_
    rcases both.1 with earlier | ⟨same, before⟩
    · exact .inl earlier
    · refine .inr ⟨same, lt_of_le_of_ne before fun equal => both.2 (Prod.ext ?_ equal)⟩
      exact (DateTime.mk.injEq ..).mpr ⟨same, (naive_of_groups groups here).trans (naive_of_groups groups there).symm⟩
  · obtain ⟨occurs, -, named⟩ := groups.occupied row listed
    rw [groups.counted row listed]
    simp only [counts_iff named]
  · intro document member
    obtain ⟨row, listed, named⟩ := List.mem_map.mp (groups.covers document member)
    exact ⟨row, listed, (counts_iff named.symm document).mp named.symm⟩

/-- Hours add up to days and weeks, and days to weeks: a row of the coarser summary counts what the rows of
the finer one count in its window, type by type, for every collection and every question. -/
theorem stats_adds_up (normaliser : Normaliser) (collection : Collection)
    (aggregate : StatsPipeline → Except Exn (List Row)) (summarises : Summarises collection aggregate)
    (fine coarse : StatsBucket) (within : fine.mongoUnit.width ≤ coarse.mongoUnit.width)
    (since last : Option DateTime) (eventType : Option String) :
    ∃ finer coarser, stats normaliser aggregate fine since last eventType = .ok finer ∧
      stats normaliser aggregate coarse since last eventType = .ok coarser ∧
      finer.total = coarser.total ∧
      ∀ row ∈ coarser.buckets, row.count = ((finer.buckets.filter fun part =>
        part.eventType = row.eventType ∧ row.bin.wall ≤ part.bin.wall ∧
          part.bin.wall < row.bin.wall + coarse.mongoUnit.width).map Row.count).sum := by
  obtain ⟨parts, answeredFine, finer, -⟩ := stats_eq summarises normaliser fine since last eventType
  obtain ⟨rows, answeredCoarse, coarser, -⟩ := stats_eq summarises normaliser coarse since last eventType
  refine ⟨_, _, answeredFine, answeredCoarse, ?_, fun row listed => ?_⟩
  · have one := finer.sum_filter fun _ => true
    have two := coarser.sum_filter fun _ => true
    simp only [List.filter_true] at one two
    exact one.trans two.symm
  · have sums := finer.sum_of_finer coarser
      (fun key => (coarse.mongoUnit.trunc key.1, key.2))
      (fun document => by simp only [statsKey, DateUnit.trunc_trunc within]) listed
    rw [sums]
    congr 2
    apply List.filter_congr
    intro part member
    obtain ⟨occurs, -, named⟩ := coarser.occupied row listed
    have bin : row.bin = coarse.mongoUnit.trunc occurs.timestamp := (congrArg Prod.fst named).symm
    have instant : part.bin.instant = part.bin.wall := by
      simp [DateTime.instant, naive_of_groups finer member]
    simp only [Row.key, Prod.mk.injEq, bin, DateUnit.trunc_eq_iff, instant, and_comm]

/-! ### Runs on concrete inputs -/

/-- The aggregation of a collection, computed. -/
def summaryRows (collection : Collection) : StatsPipeline → Except Exn (List Row) := fun pipeline =>
  let key := statsKey pipeline.unit
  let matched := pipeline.matched collection
  .ok (((matched.map key).dedup.map fun one =>
    (⟨one.1, one.2, matched.countP fun document => key document = one⟩ : Row)).insertionSort Row.Before)

theorem summarises_summaryRows (collection : Collection) :
    Summarises collection (summaryRows collection) := by
  intro pipeline
  refine ⟨_, rfl, ?_, ?_⟩
  · exact (Histogram.groups_dedup _ (fun one count => (⟨one.1, one.2, count⟩ : Row)) (fun _ _ => rfl)
      (fun _ _ => rfl) _).perm (List.perm_insertionSort ..)
  · have total : Std.Total Row.Before := by
      constructor
      intro first second
      rcases lt_trichotomy first.bin.wall second.bin.wall with before | same | after
      · exact .inl (.inl before)
      · rcases le_total first.eventType second.eventType with low | high
        · exact .inl (.inr ⟨same, low⟩)
        · exact .inr (.inr ⟨same.symm, high⟩)
      · exact .inr (.inl after)
    have transitive : IsTrans Row Row.Before := by
      constructor
      rintro first second third (one | ⟨one, low⟩) (two | ⟨two, high⟩)
      · exact .inl (one.trans two)
      · exact .inl (one.trans_eq two)
      · exact .inl (one.trans_lt two)
      · exact .inr ⟨one.trans two, low.trans high⟩
    exact List.pairwise_insertionSort Row.Before _

/-- Three clicks: two in one hour of a Saturday, and one on the Sunday after, 2026-01-04. -/
def weekend : Collection where
  documents := [
    { (sampleEvent "a").toDocument with timestamp := ⟨63903027600000000, some 0⟩ },
    { (sampleEvent "b").toDocument with timestamp := ⟨63903029400000000, some 0⟩ },
    { (sampleEvent "c").toDocument with timestamp := ⟨63903082200000000, some 0⟩ }]
  distinct := by decide

example : (stats asTyped (summaryRows weekend) .weekly none none none).toOption.map Summary.buckets =
    some [⟨⟨63902476800000000, none⟩, "click", 2⟩, ⟨⟨63903081600000000, none⟩, "click", 1⟩] := by
  decide +kernel

theorem the_weekend_is_counted :
    ∃ summary, stats asTyped (summaryRows weekend) .daily none none none = .ok summary ∧
      summary.total = 3 := by
  obtain ⟨summary, answered, -, exact, -⟩ := stats_is_exact asTyped weekend (summaryRows weekend)
    (summarises_summaryRows weekend) .daily none none none
  have all : (weekend.selected (filter asTyped none none none none none)).length = 3 := by
    decide +kernel
  exact ⟨summary, answered, exact.total.trans all⟩

theorem the_weekend_adds_up :
    DateUnit.hour.width ≤ DateUnit.week.width ∧
      ∃ finer coarser, stats asTyped (summaryRows weekend) .hourly none none none = .ok finer ∧
        stats asTyped (summaryRows weekend) .weekly none none none = .ok coarser ∧
        finer.total = coarser.total := by
  obtain ⟨finer, coarser, one, two, same, -⟩ := stats_adds_up asTyped weekend (summaryRows weekend)
    (summarises_summaryRows weekend) .hourly .weekly (by decide) none none none
  exact ⟨by decide, finer, coarser, one, two, same⟩

end EventQueries

end FeathrEvents
