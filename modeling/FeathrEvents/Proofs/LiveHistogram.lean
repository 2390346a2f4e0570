/-
Module: FeathrEvents.Proofs.LiveHistogram
Purpose: The live summary is an exact, dense histogram of a closed window: the grid that the server aligns
  inside a minute and the one that MongoDB aligns to its epoch coincide.
Trusted boundary: `Aggregates` states what MongoDB's `$match` and `$group` answer.
Main exports: Aggregates, liveEnd, liveStart, Within, ExactHistogram, ReturnsExact,
  live_summary_is_exact, aggregates_groupRows
-/
import Mathlib.Data.List.Dedup
import Mathlib.Tactic.Linarith
import Mathlib.Tactic.LinearCombination
import FeathrEvents.App.LiveSummary

namespace FeathrEvents

open Collections (OrderedDict)
open Histogram (Groups Item tally)

/-- The `_id` under which an event is grouped. -/
def groupKey (binSize : ℤ) (document : Document) : DateTime × String :=
  (dateTrunc binSize document.timestamp, document.eventType)

/-- The aggregation groups the documents of a collection that match, by bin and type: what MongoDB
promises of `$match` with `$group` and a `$sum` of 1. -/
def Aggregates (documents : List Document) (aggregate : Aggregate) : Prop :=
  ∀ filter binSize, 0 < binSize → ∃ rows, aggregate filter binSize = .ok rows ∧
    Groups (groupKey binSize) Row.key Row.count
      (documents.filter fun document => filter.Matches document) rows

/-- The end of the last completed bin, in microseconds. -/
def liveEnd (reading binSeconds : ℤ) : ℤ :=
  reading - reading % 1000000 - reading / 1000000 % 60 % binSeconds * 1000000

/-- The start of the window. -/
def liveStart (reading windowSeconds binSeconds : ℤ) : ℤ :=
  liveEnd reading binSeconds - windowSeconds * 1000000

namespace EventQueries

variable {normaliser : Normaliser} {documents : List Document} {aggregate : Aggregate}
variable {reading windowSeconds binSeconds : ℤ} {since : DateTime}

/-! ### The two grids -/

/-- A grid that starts at a multiple of the bin from the epoch is MongoDB's: `$dateTrunc` puts an
event in the slot that the code counts it in. -/
def Aligned (binSeconds : ℤ) (since : DateTime) : Prop :=
  binSeconds * 1000000 ∣ since.wall - DateTime.truncEpoch

theorem dateTrunc_wall (positive : 0 < binSeconds) (aligned : Aligned binSeconds since)
    (time : DateTime) :
    (dateTrunc binSeconds time).wall - since.wall =
      (time.instant - since.wall) / (binSeconds * 1000000) * (binSeconds * 1000000) := by
  obtain ⟨bins, shift⟩ := aligned
  have width : binSeconds * 1000000 ≠ 0 := by omega
  have moved : time.instant - since.wall =
      time.instant - DateTime.truncEpoch + -bins * (binSeconds * 1000000) := by linarith
  rw [moved, Int.add_mul_ediv_right _ _ width, dateTrunc]
  dsimp only
  linarith

/-- The slot of the bin of a moment is the number of whole bins since the start. -/
theorem slotOf_dateTrunc (positive : 0 < binSeconds) (aligned : Aligned binSeconds since)
    (time : DateTime) :
    slotOf since binSeconds (dateTrunc binSeconds time) =
      (time.instant - since.wall) / (binSeconds * 1000000) := by
  rw [slotOf, dateTrunc_wall positive aligned, ← mul_assoc, Int.mul_tdiv_cancel _ (by decide),
    Int.mul_fdiv_cancel _ positive.ne']

/-- A moment lies in a slot exactly when it lies between the bounds of the slot. -/
theorem slot_iff (positive : 0 < binSeconds) (moment start slot : ℤ) :
    (moment - start) / (binSeconds * 1000000) = slot ↔
      start + slot * (binSeconds * 1000000) ≤ moment ∧
        moment < start + (slot + 1) * (binSeconds * 1000000) := by
  have width : 0 < binSeconds * 1000000 := by omega
  rw [Int.ediv_eq_iff_of_pos width]
  constructor
  · rintro ⟨first, last⟩
    constructor <;> linarith
  · rintro ⟨first, last⟩
    constructor <;> linarith

/-- The server's grid starts at a multiple of the bin from the epoch. -/
theorem aligned_liveStart (divides : binSeconds ∣ 60) (whole : binSeconds ∣ windowSeconds)
    (reading : ℤ) :
    Aligned binSeconds ⟨liveStart reading windowSeconds binSeconds, none⟩ := by
  obtain ⟨parts, minute⟩ := divides
  obtain ⟨slots, window⟩ := whole
  have micros := Int.mul_ediv_add_emod reading 1000000
  have seconds := Int.mul_ediv_add_emod (reading / 1000000) 60
  have bins := Int.mul_ediv_add_emod (reading / 1000000 % 60) binSeconds
  -- the epoch is so many minutes after the first reading of all
  refine ⟨parts * (reading / 1000000 / 60) + reading / 1000000 % 60 / binSeconds - slots -
    1051371360 * parts, ?_⟩
  simp only [liveStart, liveEnd, DateTime.truncEpoch, window]
  linear_combination -micros - 1000000 * seconds - 1000000 * bins +
    1000000 * (reading / 1000000 / 60 - 1051371360) * minute

/-! ### The slots -/

/-- What a row gives to the dense counts, when its bin has a slot. -/
def itemOf (since : DateTime) (binSeconds slots : ℤ) (row : Row) : Option (Item String) :=
  if 0 ≤ slotOf since binSeconds row.bin ∧ slotOf since binSeconds row.bin < slots then
    some ⟨row.eventType, (slotOf since binSeconds row.bin).toNat, row.count⟩
  else none

/-- The loop over the rows is a tally of those that have a slot. -/
theorem perType_eq (since : DateTime) (binSeconds slots : ℤ) (rows : List Row) :
    perType since binSeconds slots rows =
      tally slots.toNat (rows.filterMap (itemOf since binSeconds slots)) := by
  rw [tally, List.foldl_filterMap, perType]
  congr 1
  funext perType row
  simp only [itemOf]
  split <;> rfl

/-- The bin of a key has a slot, and the type and the slot are wanted. -/
def slotted (since : DateTime) (binSeconds slots : ℤ) (wanted : String → ℕ → Bool)
    (key : DateTime × String) : Bool :=
  (0 ≤ slotOf since binSeconds key.1 ∧ slotOf since binSeconds key.1 < slots) ∧
    wanted key.2 (slotOf since binSeconds key.1).toNat

/-- What the rows give to some types and slots, as a sum over the rows. -/
theorem sum_items (since : DateTime) (binSeconds slots : ℤ) (rows : List Row)
    (wanted : String → ℕ → Bool) :
    (((rows.filterMap (itemOf since binSeconds slots)).filter fun item =>
      wanted item.key item.slot).map Item.count).sum =
      ((rows.filter fun row => slotted since binSeconds slots wanted row.key).map Row.count).sum := by
  induction rows with
  | nil => rfl
  | cons row rows ih =>
      by_cases inside : 0 ≤ slotOf since binSeconds row.bin ∧ slotOf since binSeconds row.bin < slots
      · have given : itemOf since binSeconds slots row = some
            ⟨row.eventType, (slotOf since binSeconds row.bin).toNat, row.count⟩ :=
          if_pos inside
        by_cases some : wanted row.eventType (slotOf since binSeconds row.bin).toNat = true
        · have here : slotted since binSeconds slots wanted row.key = true := by
            simp [slotted, Row.key, inside, some]
          simp only [List.filterMap_cons_some given, List.filter_cons, some, here, if_true,
            List.map_cons, List.sum_cons, ih]
        · have here : slotted since binSeconds slots wanted row.key = false := by
            simp [slotted, Row.key, some]
          simp only [List.filterMap_cons_some given, List.filter_cons, some, here, if_false, ih,
            Bool.false_eq_true]
      · have given : itemOf since binSeconds slots row = none := if_neg inside
        have here : slotted since binSeconds slots wanted row.key = false := by
          simp only [slotted, Row.key, inside, false_and, decide_false]
        simp only [List.filterMap_cons_none given, List.filter_cons, here, if_false, ih,
          Bool.false_eq_true]

/-! ### What is counted -/

/-- An event passes the filter and lies between two moments, the last one excluded. -/
def Within (normaliser : Normaliser) (eventType : Option String) (first last : ℤ)
    (document : Document) : Prop :=
  (filter normaliser eventType none none none none).Matches document ∧
    first ≤ document.timestamp.instant ∧ document.timestamp.instant < last

instance (normaliser : Normaliser) (eventType : Option String) (first last : ℤ)
    (document : Document) : Decidable (Within normaliser eventType first last document) :=
  inferInstanceAs (Decidable (_ ∧ _ ≤ _ ∧ _ < _))

theorem matches_since (normaliser : Normaliser) (eventType : Option String) (since : DateTime)
    (document : Document) :
    (filter normaliser eventType none none (some since) none).Matches document ↔
      (filter normaliser eventType none none none none).Matches document ∧
        since.instant ≤ document.timestamp.instant := by
  simp [Filter.Matches, filter, and_assoc]

variable {eventType : Option String} {rows : List Row}

/-- What the items give to some types and slots is the number of matching events of such a type with a
moment in such a slot. -/
theorem sum_items_eq (positive : 0 < binSeconds) (aligned : Aligned binSeconds since)
    (grouped : Groups (groupKey binSeconds) Row.key Row.count
      (documents.filter fun document =>
        (filter normaliser eventType none none (some since) none).Matches document) rows)
    (naive : since.offset = none) (slots : ℤ) (wanted : String → ℕ → Bool) :
    (((rows.filterMap (itemOf since binSeconds slots)).filter fun item =>
      wanted item.key item.slot).map Item.count).sum =
      documents.countP fun document =>
        Within normaliser eventType since.wall
            (since.wall + slots * (binSeconds * 1000000)) document ∧
          wanted document.eventType
            ((document.timestamp.instant - since.wall) / (binSeconds * 1000000)).toNat := by
  have width : 0 < binSeconds * 1000000 := by omega
  have start : since.instant = since.wall := by simp [DateTime.instant, naive]
  rw [sum_items, grouped.sum_filter, List.countP_filter]
  apply List.countP_congr
  intro document _
  have slot := slotOf_dateTrunc positive aligned document.timestamp
  have inside : (document.timestamp.instant - since.wall) / (binSeconds * 1000000) < slots ↔
      document.timestamp.instant < since.wall + slots * (binSeconds * 1000000) := by
    rw [Int.ediv_lt_iff_lt_mul width]
    constructor <;> intro before <;> linarith
  have begun : 0 ≤ (document.timestamp.instant - since.wall) / (binSeconds * 1000000) ↔
      since.wall ≤ document.timestamp.instant := by
    rw [Int.le_ediv_iff_mul_le width, zero_mul, sub_nonneg]
  simp only [slotted, groupKey, slot, Bool.and_eq_true, decide_eq_true_eq, matches_since, start,
    inside, begun]
  rw [Within]
  tauto

/-! ### The series -/

theorem mem_series {perType : OrderedDict String (List ℕ)} {entry : SeriesEntry} :
    entry ∈ series perType ↔ ∃ counts, perType.get? entry.eventType = some counts ∧
      entry = ⟨entry.eventType, counts.sum, counts⟩ := by
  simp only [series, List.mem_map, List.mem_insertionSort, OrderedDict.get?_eq_some]
  constructor
  · rintro ⟨⟨name, counts⟩, listed, rfl⟩
    exact ⟨counts, listed, rfl⟩
  · rintro ⟨counts, listed, same⟩
    exact ⟨(entry.eventType, counts), listed, same.symm⟩

theorem series_names (perType : OrderedDict String (List ℕ)) :
    (series perType).map SeriesEntry.eventType =
      (perType.items.insertionSort fun one two => one.1 ≤ two.1).map Prod.fst := by
  rw [series, List.map_map]
  rfl

/-- Different types have different names, so the order is strict. -/
theorem series_sorted (perType : OrderedDict String (List ℕ)) :
    ((series perType).map SeriesEntry.eventType).Pairwise (· < ·) := by
  have sorted := List.pairwise_insertionSort
    (fun one two : String × List ℕ => one.1 ≤ two.1) perType.items
  have perm := (List.perm_insertionSort (fun one two : String × List ℕ => one.1 ≤ two.1)
    perType.items).map Prod.fst
  have distinct := perm.nodup_iff.mpr perType.distinct
  rw [series_names]
  rw [List.Nodup] at distinct
  rw [List.pairwise_map] at distinct ⊢
  apply (sorted.and distinct).imp
  rintro one two ⟨before, different⟩
  exact lt_of_le_of_ne before different

theorem series_total (perType : OrderedDict String (List ℕ)) :
    ((series perType).map SeriesEntry.total).sum = (perType.values.map List.sum).sum := by
  have perm := (List.perm_insertionSort (fun one two : String × List ℕ => one.1 ≤ two.1)
    perType.items).map fun item => item.2.sum
  rw [series, List.map_map, OrderedDict.values, List.map_map]
  exact perm.sum_eq

/-! ### The summary -/

/-- A summary of the events that pass the filter: closed, dense and exact.  Its window ends no later
than now, every slot of every series has its count, and a missing one counts as zero. -/
structure ExactHistogram (normaliser : Normaliser) (documents : List Document) (reading : ℤ)
    (windowSeconds binSeconds : ℤ) (eventType : Option String) (summary : LiveSummary) : Prop where
  closed : summary.last.instant ≤ reading
  spans : summary.last.instant - summary.since.instant = windowSeconds * 1000000
  sorted : (summary.series.map SeriesEntry.eventType).Pairwise (· < ·)
  occurring : ∀ name, name ∈ summary.series.map SeriesEntry.eventType ↔
    ∃ document ∈ documents, document.eventType = name ∧
      Within normaliser eventType summary.since.instant summary.last.instant document
  dense : ∀ entry ∈ summary.series, (entry.counts.length : ℤ) = windowSeconds / binSeconds
  exact : ∀ entry ∈ summary.series, ∀ slot < entry.counts.length,
    entry.counts[slot]? = some (documents.countP fun document =>
      document.eventType = entry.eventType ∧
        Within normaliser eventType
          (summary.since.instant + slot * (binSeconds * 1000000))
          (summary.since.instant + (slot + 1) * (binSeconds * 1000000)) document)
  totals : ∀ entry ∈ summary.series, entry.total = entry.counts.sum
  total : summary.total = documents.countP fun document =>
    Within normaliser eventType summary.since.instant summary.last.instant document

theorem minusSeconds_ok {time : DateTime} {seconds : ℤ}
    (first : 0 ≤ time.wall - seconds * 1000000)
    (last : time.wall - seconds * 1000000 < DateTime.endOfTime) :
    time.minusSeconds seconds = .ok { time with wall := time.wall - seconds * 1000000 } :=
  if_pos ⟨first, last⟩

theorem second_thisSecond (reading : ℤ) :
    (DateTime.thisSecond reading).second = reading / 1000000 % 60 := by
  simp only [DateTime.second, DateTime.thisSecond]
  omega

theorem liveEnd_le (positive : 0 < binSeconds) (reading : ℤ) :
    liveEnd reading binSeconds ≤ reading := by
  have micros := Int.emod_nonneg reading (by decide : (1000000 : ℤ) ≠ 0)
  have rest := Int.emod_nonneg (reading / 1000000 % 60) positive.ne'
  rw [liveEnd]
  omega

/-- The code returns a summary, and it is exact: nothing is raised on the way, and no event of the
window is left out or counted twice. -/
def ReturnsExact (normaliser : Normaliser) (documents : List Document) (aggregate : Aggregate)
    (reading windowSeconds binSeconds : ℤ) (eventType : Option String) : Prop :=
  ∃ summary, liveSummary normaliser aggregate reading windowSeconds binSeconds eventType =
      .ok summary ∧
    ExactHistogram normaliser documents reading windowSeconds binSeconds eventType summary

/-- The code returns a summary when the start of its window is no earlier than the year 1. -/
theorem liveSummary_eq (normaliser : Normaliser) {aggregate : Aggregate} (eventType : Option String)
    (clock : reading < DateTime.endOfTime) (positive : 0 < binSeconds) (window : 0 < windowSeconds)
    (inside : 0 ≤ liveStart reading windowSeconds binSeconds)
    (answered : aggregate (filter normaliser eventType none none
      (some ⟨liveStart reading windowSeconds binSeconds, none⟩) none) binSeconds = .ok rows) :
    liveSummary normaliser aggregate reading windowSeconds binSeconds eventType = .ok {
      since := ⟨liveStart reading windowSeconds binSeconds, none⟩
      last := ⟨liveEnd reading binSeconds, none⟩
      windowSeconds := windowSeconds
      binSeconds := binSeconds
      total := ((series (perType ⟨liveStart reading windowSeconds binSeconds, none⟩ binSeconds
        (windowSeconds / binSeconds) rows)).map SeriesEntry.total).sum
      series := series (perType ⟨liveStart reading windowSeconds binSeconds, none⟩ binSeconds
        (windowSeconds / binSeconds) rows) } := by
  have before := liveEnd_le positive reading
  have started : 0 ≤ liveEnd reading binSeconds := by
    rw [liveStart] at inside
    omega
  have rest : (DateTime.thisSecond reading).second.fmod binSeconds =
      reading / 1000000 % 60 % binSeconds := by
    rw [second_thisSecond, Int.fmod_eq_emod_of_nonneg _ positive.le]
  have last : (DateTime.thisSecond reading).minusSeconds (reading / 1000000 % 60 % binSeconds) =
      .ok ⟨liveEnd reading binSeconds, none⟩ :=
    minusSeconds_ok started (before.trans_lt clock)
  have since : (⟨liveEnd reading binSeconds, none⟩ : DateTime).minusSeconds windowSeconds =
      .ok ⟨liveStart reading windowSeconds binSeconds, none⟩ := by
    apply minusSeconds_ok inside
    dsimp only
    omega
  simp only [liveSummary, if_neg positive.ne', rest, last, since, answered, bind, Except.bind,
    Int.fdiv_eq_ediv_of_nonneg _ positive.le]

section Counting

variable (aligned : Aligned binSeconds since) (positive : 0 < binSeconds)
  (naive : since.offset = none)
  (grouped : Groups (groupKey binSeconds) Row.key Row.count
    (documents.filter fun document =>
      (filter normaliser eventType none none (some since) none).Matches document) rows)

include aligned positive naive grouped

/-- A slot of a type holds the number of its events between the bounds of the slot. -/
theorem given_eq (name : String) {slots : ℤ} {slot : ℕ} (inside : (slot : ℤ) < slots) :
    Histogram.given (rows.filterMap (itemOf since binSeconds slots)) name slot =
      documents.countP fun document => document.eventType = name ∧
        Within normaliser eventType (since.instant + slot * (binSeconds * 1000000))
          (since.instant + (slot + 1) * (binSeconds * 1000000)) document := by
  have start : since.instant = since.wall := by simp [DateTime.instant, naive]
  have width : 0 < binSeconds * 1000000 := by omega
  have counted := sum_items_eq positive aligned grouped naive slots
    fun type index => type = name ∧ index = slot
  rw [Histogram.given, counted, start]
  apply List.countP_congr
  intro document _
  have here := slot_iff positive document.timestamp.instant since.wall slot
  have before : (slot + 1) * (binSeconds * 1000000) ≤ slots * (binSeconds * 1000000) :=
    mul_le_mul_of_nonneg_right inside width.le
  have ahead : 0 ≤ slot * (binSeconds * 1000000) := mul_nonneg (Int.natCast_nonneg slot) width.le
  simp only [decide_eq_true_eq]
  constructor
  · rintro ⟨⟨passes, begun, -⟩, same, index⟩
    have whole : 0 ≤ (document.timestamp.instant - since.wall) / (binSeconds * 1000000) :=
      Int.ediv_nonneg (by omega) width.le
    have quotient : (document.timestamp.instant - since.wall) / (binSeconds * 1000000) = slot := by
      omega
    exact ⟨same, passes, here.mp quotient⟩
  · rintro ⟨same, passes, first, last⟩
    have quotient := here.mpr ⟨first, last⟩
    refine ⟨⟨passes, by omega, by omega⟩, same, ?_⟩
    rw [quotient, Int.toNat_natCast]

/-- The types that have a slot are those of the events in the window. -/
theorem mem_types_iff (slots : ℤ) (name : String) :
    name ∈ (rows.filterMap (itemOf since binSeconds slots)).map Item.key ↔
      ∃ document ∈ documents, document.eventType = name ∧
        Within normaliser eventType since.instant
          (since.instant + slots * (binSeconds * 1000000)) document := by
  have start : since.instant = since.wall := by simp [DateTime.instant, naive]
  have counted := sum_items_eq positive aligned grouped naive slots fun type _ => type = name
  have occurs : (∃ document ∈ documents, document.eventType = name ∧
      Within normaliser eventType since.instant
        (since.instant + slots * (binSeconds * 1000000)) document) ↔
      0 < (((rows.filterMap (itemOf since binSeconds slots)).filter fun item =>
        item.key = name).map Item.count).sum := by
    rw [counted, List.countP_pos_iff, start]
    simp only [decide_eq_true_eq, and_comm]
  rw [occurs]
  apply Histogram.mem_keys_iff
  intro item listed
  obtain ⟨row, member, gives⟩ := List.mem_filterMap.mp listed
  rw [itemOf] at gives
  split at gives
  · rw [← Option.some.inj gives]
    exact grouped.count_pos member
  · cases gives

theorem total_eq (slots : ℤ) :
    ((rows.filterMap (itemOf since binSeconds slots)).map Item.count).sum =
      documents.countP fun document => Within normaliser eventType since.instant
        (since.instant + slots * (binSeconds * 1000000)) document := by
  have start : since.instant = since.wall := by simp [DateTime.instant, naive]
  have counted := sum_items_eq positive aligned grouped naive slots fun _ _ => true
  rw [start]
  simpa using counted

end Counting

theorem itemOf_inside {slots : ℤ} {item : Item String}
    (listed : item ∈ rows.filterMap (itemOf since binSeconds slots)) : item.slot < slots.toNat := by
  obtain ⟨row, -, gives⟩ := List.mem_filterMap.mp listed
  rw [itemOf] at gives
  split at gives
  · rename_i bounds
    rw [← Option.some.inj gives]
    dsimp only
    omega
  · cases gives

/-- A name is in the series when something was counted for it. -/
theorem mem_names_iff (since : DateTime) (binSeconds slots : ℤ) (rows : List Row) (name : String) :
    name ∈ (series (perType since binSeconds slots rows)).map SeriesEntry.eventType ↔
      name ∈ (rows.filterMap (itemOf since binSeconds slots)).map Item.key := by
  rw [perType_eq]
  constructor
  · intro listed
    obtain ⟨entry, member, rfl⟩ := List.mem_map.mp listed
    obtain ⟨counts, stored, -⟩ := mem_series.mp member
    rw [Histogram.get?_tally] at stored
    by_contra absent
    rw [if_neg absent] at stored
    cases stored
  · intro occurs
    have stored := Histogram.get?_tally slots.toNat
      (rows.filterMap (itemOf since binSeconds slots)) name
    rw [if_pos occurs] at stored
    generalize (List.range slots.toNat).map _ = counts at stored
    apply List.mem_map.mpr
    exact ⟨⟨name, counts.sum, counts⟩, mem_series.mpr ⟨counts, stored, rfl⟩, rfl⟩

/-- The counts of an entry, and its total. -/
theorem counts_of_series {slots : ℤ} {entry : SeriesEntry}
    (listed : entry ∈ series (perType since binSeconds slots rows)) :
    entry.total = entry.counts.sum ∧ entry.counts = (List.range slots.toNat).map
      (Histogram.given (rows.filterMap (itemOf since binSeconds slots)) entry.eventType) := by
  rw [perType_eq] at listed
  obtain ⟨counts, stored, same⟩ := mem_series.mp listed
  rw [Histogram.get?_tally] at stored
  split at stored
  · rw [Option.some.injEq] at stored
    rw [same, ← stored]
    exact ⟨rfl, rfl⟩
  · cases stored

/-- The live summary is exact whenever the start of its window is no earlier than the year 1, for
every collection, every reading of the clock, and every window of whole bins that divide the minute. -/
theorem live_summary_is_exact (normaliser : Normaliser) (documents : List Document)
    (aggregate : Aggregate) (aggregates : Aggregates documents aggregate) (reading : ℤ)
    (clock : reading < DateTime.endOfTime) (binSeconds windowSeconds : ℤ)
    (positive : 1 ≤ binSeconds) (divides : binSeconds ∣ 60) (window : 0 < windowSeconds)
    (whole : binSeconds ∣ windowSeconds) (eventType : Option String)
    (inside : 0 ≤ liveStart reading windowSeconds binSeconds) :
    ReturnsExact normaliser documents aggregate reading windowSeconds binSeconds eventType := by
  have width : 0 < binSeconds := positive
  have aligned := aligned_liveStart divides whole reading
  obtain ⟨rows, answered, grouped⟩ := aggregates (filter normaliser eventType none none
    (some ⟨liveStart reading windowSeconds binSeconds, none⟩) none) binSeconds width
  refine ⟨_, liveSummary_eq normaliser eventType clock width window inside answered, ?_⟩
  generalize startsAt : (⟨liveStart reading windowSeconds binSeconds, none⟩ : DateTime) = since
    at aligned grouped ⊢
  have naive : since.offset = none := by rw [← startsAt]
  have spans : (⟨liveEnd reading binSeconds, none⟩ : DateTime).instant =
      since.instant + windowSeconds / binSeconds * (binSeconds * 1000000) := by
    rw [← mul_assoc, Int.ediv_mul_cancel whole, ← startsAt]
    simp only [DateTime.instant, liveStart, Option.getD_none]
    omega
  have positiveSlots : 0 ≤ windowSeconds / binSeconds := Int.ediv_nonneg window.le width.le
  constructor
  case closed => simpa [DateTime.instant] using liveEnd_le width reading
  case spans =>
    dsimp only
    rw [spans, ← mul_assoc, Int.ediv_mul_cancel whole]
    omega
  case sorted => exact series_sorted _
  case occurring =>
    intro name
    dsimp only
    rw [spans, ← mem_types_iff aligned width naive grouped, mem_names_iff]
  case dense =>
    intro entry listed
    obtain ⟨-, counts⟩ := counts_of_series listed
    rw [counts, List.length_map, List.length_range, Int.toNat_of_nonneg positiveSlots]
  case exact =>
    intro entry listed slot short
    obtain ⟨-, counts⟩ := counts_of_series listed
    rw [counts, List.length_map, List.length_range] at short
    rw [counts, List.getElem?_map, List.getElem?_range short, Option.map_some]
    congr 1
    exact given_eq aligned width naive grouped entry.eventType (by omega)
  case totals =>
    intro entry listed
    exact (counts_of_series listed).1
  case total =>
    dsimp only
    rw [spans, ← total_eq aligned width naive grouped, series_total, perType_eq]
    exact Histogram.sum_tally _ _ fun item listed => itemOf_inside listed

/-! ### Runs on concrete inputs -/

/-- The aggregation of a collection, computed. -/
def groupRows (documents : List Document) : Aggregate := fun filter binSize =>
  let matching := documents.filter fun document => filter.Matches document
  .ok ((matching.map (groupKey binSize)).dedup.map fun key =>
    ⟨key.1, key.2, matching.countP fun document => groupKey binSize document = key⟩)

theorem aggregates_groupRows (documents : List Document) :
    Aggregates documents (groupRows documents) := by
  intro filter binSize _
  refine ⟨_, rfl, ?_⟩
  exact Histogram.groups_dedup (groupKey binSize) (fun one count => (⟨one.1, one.2, count⟩ : Row))
    (fun _ _ => rfl) (fun _ _ => rfl) _

/-- Three events of two types around the end of a window that closes at 2026-01-01T00:00:02Z. -/
def threeDocuments : List Document := [
  { (sampleEvent "a").toDocument with timestamp := ⟨63902822401000000, none⟩ },
  { (sampleEvent "b").toDocument with timestamp := ⟨63902822402000000, none⟩ },
  { (sampleEvent "c").toDocument with
    eventType := "signup"
    timestamp := ⟨63902822399000000, none⟩ }]

example : liveSummary asTyped (groupRows threeDocuments) 63902822403000000 4 2 none = .ok
    ⟨⟨63902822398000000, none⟩, ⟨63902822402000000, none⟩, 4, 2, 2,
      [⟨"click", 1, [0, 1]⟩, ⟨"signup", 1, [1, 0]⟩]⟩ := by
  decide +kernel

theorem live_summary_is_exact_three :
    (1 : ℤ) ≤ 2 ∧ (2 : ℤ) ∣ 60 ∧ (2 : ℤ) ∣ 4 ∧ 0 ≤ liveStart 63902822403000000 4 2 ∧
      ReturnsExact asTyped threeDocuments (groupRows threeDocuments) 63902822403000000 4 2 none :=
  ⟨by decide, by decide, by decide, by decide,
    live_summary_is_exact asTyped threeDocuments (groupRows threeDocuments)
      (aggregates_groupRows threeDocuments) 63902822403000000 (by decide) 2 4 (by decide)
      (by decide) (by decide) (by decide) none (by decide)⟩

/-- A window that starts before the year 1 cannot be computed. -/
theorem a_window_before_the_year_one_raises :
    Aggregates [] noRows ∧ (1 : ℤ) ≤ 2 ∧ (2 : ℤ) ∣ 60 ∧ (2 : ℤ) ∣ 1000000000000 ∧
      liveSummary asTyped noRows 63902822403000000 1000000000000 2 none = .error .overflowError ∧
      ¬ ReturnsExact asTyped [] noRows 63902822403000000 1000000000000 2 none := by
  have raises : liveSummary asTyped noRows 63902822403000000 1000000000000 2 none =
      .error .overflowError := by
    decide +kernel
  refine ⟨fun _ _ _ => ⟨[], rfl, ?_⟩, by decide, by decide, by decide, raises, ?_⟩
  · constructor <;> simp
  · rintro ⟨summary, returned, -⟩
    rw [raises] at returned
    cases returned

end EventQueries

end FeathrEvents
