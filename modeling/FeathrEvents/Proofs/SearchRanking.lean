/-
Module: FeathrEvents.Proofs.SearchRanking
Purpose: Which values the search box is offered: the most frequent ones of both fields, the event types
  first as long as nothing is typed, although each field was cut to its own most frequent values before.
Trusted boundary: `Ranks`, what Elasticsearch documents of a terms aggregation over one shard
Main exports: TermIndex.count, Ranks, TermIndex.rank, Offered, EventQueries.merges_seen,
  suggestions_are_the_most_frequent
-/
import Mathlib.Data.Prod.Lex
import FeathrEvents.Lib.Ranking
import FeathrEvents.Proofs.SearchTerms

namespace FeathrEvents

open Collections (OrderedDict)
open Ranking (Top Merges)

/-! ### What is indexed -/

/-- How many documents have a value in a field, where the index lists it once for each of them. -/
def TermIndex.count (index : TermIndex) (field value : String) : ℕ :=
    (index.terms field).count value

/-- Elasticsearch answers an aggregation with the most frequent of the terms that match its `include`, and
with how many documents have them. -/
structure Ranks (index : TermIndex) (aggregate : TermsAgg → List TermBucket) : Prop where
  top : ∀ agg, Top (index.count agg.field) agg.size
    {value | value ∈ index.terms agg.field ∧ ∀ pattern ∈ agg.including, PatternMatches pattern value}
    ((aggregate agg).map TermBucket.key)
  counted : ∀ agg, ∀ bucket ∈ aggregate agg, bucket.docCount = index.count agg.field bucket.key

/-- How high a value ranks: as long as nothing is typed an event type ranks above every other value,
and in either case the more frequent one above the less frequent. -/
def TermIndex.rank (index : TermIndex) (typed : Option String) (value : String) : Bool ×ₗ ℕ :=
  toLex (decide (typed = none ∧ value ∈ index.eventTypes), index.values.count value)

/-- The value can be offered for what was typed: it begins with the cleaned text, which is not
empty.  As long as nothing is typed every value can. -/
def Offered (lower : String → String) (typed : Option String) (value : String) : Prop :=
  ∀ text ∈ typed, cleaned lower text ≠ "" ∧ (cleaned lower text).toList <+: value.toList

theorem rank_le_rank {index : TermIndex} {typed : Option String} {first second : String} :
    index.rank typed first ≤ index.rank typed second ↔
      (typed = none ∧ first ∉ index.eventTypes ∧ second ∈ index.eventTypes) ∨
      ((typed = none → (first ∈ index.eventTypes ↔ second ∈ index.eventTypes)) ∧
        index.values.count first ≤ index.values.count second) := by
  rw [TermIndex.rank, TermIndex.rank, Prod.Lex.toLex_le_toLex]
  by_cases quiet : typed = none <;> by_cases former : first ∈ index.eventTypes <;>
    by_cases latter : second ∈ index.eventTypes <;> simp [quiet, former, latter]

namespace EventQueries

/-- A value is seen with the count of its first bucket. -/
theorem get?_seenTerms (buckets : List TermBucket) (value : String) :
    (seenTerms buckets).get? value =
      (buckets.find? fun bucket => bucket.key = value).map TermBucket.docCount := by
  induction buckets using List.reverseRecOn with
  | nil => rfl
  | append_singleton buckets bucket ih =>
      have stepped : seenTerms (buckets ++ [bucket]) =
          if (seenTerms buckets).get? bucket.key = none then
            (seenTerms buckets).set bucket.key bucket.docCount
          else seenTerms buckets := by
        rw [seenTerms, List.foldl_append, List.foldl_cons, List.foldl_nil]
        rfl
      rw [stepped, List.find?_append, List.find?_singleton]
      by_cases here : bucket.key = value
      · subst here
        split
        · rename_i fresh
          rw [ih, Option.map_eq_none_iff] at fresh
          simp [fresh]
        · rename_i known
          rw [ih, Option.map_eq_none_iff] at known
          obtain ⟨former, found⟩ := Option.ne_none_iff_exists'.mp known
          rw [ih, found]
          rfl
      · have kept : (if (seenTerms buckets).get? bucket.key = none then
            (seenTerms buckets).set bucket.key bucket.docCount
          else seenTerms buckets).get? value = (seenTerms buckets).get? value := by
          split
          · rw [OrderedDict.get?_set, if_neg (Ne.symm here)]
          · rfl
        rw [kept, ih]
        simp [here]

variable {index : TermIndex} {aggregate : TermsAgg → List TermBucket} {limit : ℕ}
  {including : Option String}

/-- The terms of a field that an aggregation is about. -/
def matching (index : TermIndex) (including : Option String) (field : String) : Set String :=
  {value | value ∈ index.terms field ∧ ∀ pattern ∈ including, PatternMatches pattern value}

/-- Where no value is in both fields, each is seen with the number of its documents. -/
theorem seen_counts (ranks : Ranks index aggregate)
    (apart : ∀ value ∈ index.eventTypes, value ∉ index.metadata) {value : String} {count : ℕ}
    (seen : (seenTerms (termBuckets aggregate limit including).1).get? value = some count) :
    count = index.values.count value := by
  rw [get?_seenTerms, Option.map_eq_some_iff] at seen
  obtain ⟨bucket, found, rfl⟩ := seen
  have named : bucket.key = value := by simpa using List.find?_some found
  subst named
  rw [TermIndex.values, List.count_append]
  rcases List.mem_append.mp (List.mem_of_find?_eq_some found) with ofType | ofMetadata
  · have inside := ((ranks.top _).listed _ (List.mem_map_of_mem ofType)).1
    have alone : index.metadata.count bucket.key = 0 :=
      List.count_eq_zero.mpr (apart _ (by simpa [TermIndex.terms] using inside))
    rw [ranks.counted _ bucket ofType, alone]
    rfl
  · have inside := ((ranks.top _).listed _ (List.mem_map_of_mem ofMetadata)).1
    have alone : index.eventTypes.count bucket.key = 0 :=
      List.count_eq_zero.mpr fun known =>
        apart _ known (by simpa [TermIndex.terms] using inside)
    rw [ranks.counted _ bucket ofMetadata, alone, Nat.zero_add]
    rfl

theorem mem_seenTerms_iff (buckets : List TermBucket) (value : String) :
    value ∈ (seenTerms buckets).keys ↔ value ∈ buckets.map TermBucket.key := by
  constructor
  · intro seen
    obtain ⟨bucket, member, named⟩ := mem_seenTerms seen
    exact List.mem_map.mpr ⟨bucket, member, named⟩
  · intro listed
    obtain ⟨bucket, member, rfl⟩ := List.mem_map.mp listed
    have found : (buckets.find? fun other => other.key = bucket.key).isSome :=
      List.find?_isSome.mpr ⟨bucket, member, decide_eq_true rfl⟩
    obtain ⟨first, found⟩ := Option.isSome_iff_exists.mp found
    exact OrderedDict.mem_keys.mpr ⟨first.docCount, by rw [get?_seenTerms, found, Option.map_some]⟩

/-- Sorting what was seen merges the two answers, when the order respects the ranks. -/
theorem merges_seen (ranks : Ranks index aggregate)
    (apart : ∀ value ∈ index.eventTypes, value ∉ index.metadata) (typed : Option String)
    (order : String × ℕ → String × ℕ → Prop) [DecidableRel order] [Std.Total order]
    [IsTrans (String × ℕ) order]
    (respects : ∀ first ∈ (seenTerms (termBuckets aggregate limit including).1).items,
      ∀ second ∈ (seenTerms (termBuckets aggregate limit including).1).items,
        first.2 = index.values.count first.1 → second.2 = index.values.count second.1 →
        order first second → index.rank typed second.1 ≤ index.rank typed first.1) :
    Merges (index.rank typed)
      ((aggregate { field := "event_type", size := limit, including := including }).map TermBucket.key)
      ((aggregate { field := "metadata", size := limit, including := including }).map TermBucket.key)
      (((seenTerms (termBuckets aggregate limit including).1).items.insertionSort order).map
        Prod.fst) where
  mem_iff value := by
    rw [((List.perm_insertionSort order _).map Prod.fst).mem_iff]
    change value ∈ (seenTerms (termBuckets aggregate limit including).1).keys ↔ _
    rw [mem_seenTerms_iff, termBuckets, List.map_append, List.mem_append]
  distinct := ((List.perm_insertionSort order _).map Prod.fst).nodup_iff.mpr
    (OrderedDict.nodup_keys _)
  sorted := by
    rw [List.pairwise_map]
    refine (List.pairwise_insertionSort order _).imp_of_mem fun {first second} early late before => ?_
    rw [List.mem_insertionSort] at early late
    refine respects first early second late ?_ ?_ before
    · exact seen_counts ranks apart (OrderedDict.get?_eq_some.mpr early)
    · exact seen_counts ranks apart (OrderedDict.get?_eq_some.mpr late)

/-- One field's answer, in the order of both. -/
theorem top_of_field (ranks : Ranks index aggregate) (typed : Option String) {field : String}
    (lone : ∀ value ∈ index.terms field, index.values.count value = index.count field value)
    (kind : ∀ first ∈ index.terms field, ∀ second ∈ index.terms field,
      (first ∈ index.eventTypes ↔ second ∈ index.eventTypes)) :
    Top (index.rank typed) limit (matching index including field)
      ((aggregate { field := field, size := limit, including := including }).map TermBucket.key) := by
  refine (ranks.top { field := field, size := limit, including := including }).congr ?_
  intro first former second latter below
  refine rank_le_rank.mpr (.inr ⟨fun _ => kind first former.1 second latter.1, ?_⟩)
  rw [lone first former.1, lone second latter.1]
  exact below

/-- The first of what was seen are the first of both fields, with their counts. -/
theorem top_seen (ranks : Ranks index aggregate)
    (apart : ∀ value ∈ index.eventTypes, value ∉ index.metadata) (typed : Option String)
    {ordered : List (String × ℕ)}
    (same : ∀ item ∈ ordered, item ∈ (seenTerms (termBuckets aggregate limit including).1).items)
    (merges : Merges (index.rank typed)
      ((aggregate { field := "event_type", size := limit, including := including }).map TermBucket.key)
      ((aggregate { field := "metadata", size := limit, including := including }).map TermBucket.key)
      (ordered.map Prod.fst)) :
    Top (index.rank typed) limit
      {value | value ∈ index.values ∧ ∀ pattern ∈ including, PatternMatches pattern value}
      ((limitedTerms limit ordered).map Term.value) ∧
    ∀ term ∈ limitedTerms limit ordered, term.count = index.values.count term.value := by
  have ofType : Top (index.rank typed) limit (matching index including "event_type") _ :=
    top_of_field ranks typed (fun value member => by
      have alone : index.metadata.count value = 0 := List.count_eq_zero.mpr (apart value member)
      rw [TermIndex.values, List.count_append, alone]
      rfl) fun first former second latter => iff_of_true former latter
  have ofMetadata : Top (index.rank typed) limit (matching index including "metadata") _ :=
    top_of_field ranks typed (fun value member => by
      have alone : index.eventTypes.count value = 0 :=
        List.count_eq_zero.mpr fun known => apart value known member
      rw [TermIndex.values, List.count_append, alone, Nat.zero_add]
      rfl) fun first former second latter => iff_of_false (fun known => apart first known former)
        fun known => apart second known latter
  have both : {value | value ∈ index.values ∧ ∀ pattern ∈ including, PatternMatches pattern value} =
      matching index including "event_type" ∪ matching index including "metadata" := by
    ext value
    simp only [matching, TermIndex.values, Set.mem_union, Set.mem_ofPred_eq, List.mem_append]
    exact or_and_right
  rw [both, limitedTerms_values]
  refine ⟨ofType.merge ofMetadata merges, fun term listed => ?_⟩
  obtain ⟨item, member, rfl⟩ := List.mem_map.mp listed
  exact seen_counts ranks apart (OrderedDict.get?_eq_some.mpr (same item (List.mem_of_mem_take member)))

theorem merges_byCount (ranks : Ranks index aggregate)
    (apart : ∀ value ∈ index.eventTypes, value ∉ index.metadata) (text : String) :
    Merges (index.rank (some text))
      ((aggregate { field := "event_type", size := limit, including := including }).map TermBucket.key)
      ((aggregate { field := "metadata", size := limit, including := including }).map TermBucket.key)
      ((byCount (seenTerms (termBuckets aggregate limit including).1)).map Prod.fst) := by
  have total : Std.Total fun first second : String × ℕ => second.2 ≤ first.2 :=
    ⟨fun first second => le_total second.2 first.2⟩
  have transitive : IsTrans (String × ℕ) fun first second => second.2 ≤ first.2 :=
    ⟨fun _ _ _ above below => below.trans above⟩
  refine merges_seen ranks apart (some text) _ fun first _ second _ former latter before => ?_
  exact rank_le_rank.mpr (.inr ⟨fun typed => absurd typed (by simp), former ▸ latter ▸ before⟩)

theorem merges_typesFirst (ranks : Ranks index aggregate)
    (apart : ∀ value ∈ index.eventTypes, value ∉ index.metadata) :
    Merges (index.rank none)
      ((aggregate { field := "event_type", size := limit, including := including }).map TermBucket.key)
      ((aggregate { field := "metadata", size := limit, including := including }).map TermBucket.key)
      ((typesFirst ((termBuckets aggregate limit including).2.map TermBucket.key)
        (seenTerms (termBuckets aggregate limit including).1)).map Prod.fst) := by
  -- among what was seen, the event types are those that the first aggregation lists
  have kinds : ∀ item ∈ (seenTerms (termBuckets aggregate limit including).1).items,
      (item.1 ∈ (termBuckets aggregate limit including).2.map TermBucket.key ↔
        item.1 ∈ index.eventTypes) := by
    intro item seen
    have key : item.1 ∈ (seenTerms (termBuckets aggregate limit including).1).keys :=
      List.mem_map_of_mem seen
    rw [mem_seenTerms_iff, termBuckets, List.map_append, List.mem_append] at key
    constructor
    · exact fun listed => ((ranks.top _).listed _ listed).1
    · intro known
      refine key.resolve_right fun listed => ?_
      exact apart item.1 known ((ranks.top _).listed _ listed).1
  generalize (termBuckets aggregate limit including).2.map TermBucket.key = types at kinds ⊢
  have total : Std.Total fun first second : String × ℕ =>
      (first.1 ∈ types ∧ second.1 ∉ types) ∨
        ((first.1 ∈ types ↔ second.1 ∈ types) ∧ second.2 ≤ first.2) := by
    constructor
    intro first second
    have counts := le_total second.2 first.2
    tauto
  have transitive : IsTrans (String × ℕ) fun first second =>
      (first.1 ∈ types ∧ second.1 ∉ types) ∨
        ((first.1 ∈ types ↔ second.1 ∈ types) ∧ second.2 ≤ first.2) := by
    constructor
    intro first second third above below
    have counts : second.2 ≤ first.2 → third.2 ≤ second.2 → third.2 ≤ first.2 :=
      fun upper lower => lower.trans upper
    tauto
  refine merges_seen ranks apart none _ fun first one second two former latter before => ?_
  rw [kinds first one, kinds second two] at before
  rw [rank_le_rank, ← former, ← latter]
  tauto

end EventQueries

open EventQueries in
/-- What is offered are the most frequent of the indexed values that can be, event types first as long as
nothing is typed, the most frequent first, with how many documents have them, where no value is an event
type and a value in `metadata`. -/
theorem suggestions_are_the_most_frequent (lower : String → String) {index : TermIndex}
    {aggregate : TermsAgg → List TermBucket} (ranks : Ranks index aggregate)
    (apart : ∀ value ∈ index.eventTypes, value ∉ index.metadata) (limit : ℕ) (typed : Option String) :
    Top (index.rank typed) limit {value | value ∈ index.values ∧ Offered lower typed value}
      ((searchTerms lower aggregate limit typed).map Term.value) ∧
    ∀ term ∈ searchTerms lower aggregate limit typed, term.count = index.values.count term.value := by
  cases typed with
  | none =>
      have offered : {value | value ∈ index.values ∧ Offered lower none value} =
          {value | value ∈ index.values ∧ ∀ pattern ∈ (none : Option String),
            PatternMatches pattern value} := by
        simp [Offered]
      rw [offered]
      exact top_seen ranks apart none (fun item member => (List.mem_insertionSort _).mp member)
        (merges_typesFirst ranks apart)
  | some text =>
      by_cases dropped : cleaned lower text = ""
      · have nothing : {value | value ∈ index.values ∧ Offered lower (some text) value} = ∅ := by
          simp [Offered, dropped]
        rw [nothing, searchTerms, if_pos dropped]
        exact ⟨Ranking.top_empty _ _, by simp⟩
      · have offered : {value | value ∈ index.values ∧ Offered lower (some text) value} =
            {value | value ∈ index.values ∧
              ∀ pattern ∈ some (includePattern (cleaned lower text)), PatternMatches pattern value} := by
          simp [Offered, dropped, patternMatches_iff]
        rw [offered, searchTerms, if_neg dropped]
        exact top_seen ranks apart (some text) (fun item member => (List.mem_insertionSort _).mp member)
          (merges_byCount ranks apart text)

/-! ### An Elasticsearch -/

/-- The buckets of some values, the most frequent ones first. -/
def TermIndex.buckets (index : TermIndex) (agg : TermsAgg)
    (fitting : List String) : List TermBucket :=
  ((fitting.insertionSort fun first second =>
    index.count agg.field second ≤ index.count agg.field first).take agg.size).map fun value =>
      { key := value, docCount := index.count agg.field value }

open scoped Classical in
/-- The answer to an aggregation, read off the index. -/
noncomputable def TermIndex.answer (index : TermIndex) (agg : TermsAgg) : List TermBucket :=
  index.buckets agg ((index.terms agg.field).dedup.filter fun value =>
    ∀ pattern ∈ agg.including, PatternMatches pattern value)

theorem ranks_answer (index : TermIndex) : Ranks index index.answer where
  top agg := by
    classical
    have total : Std.Total fun first second : String =>
        index.count agg.field second ≤ index.count agg.field first :=
      ⟨fun first second => le_total (index.count agg.field second) (index.count agg.field first)⟩
    have transitive : IsTrans String fun first second =>
        index.count agg.field second ≤ index.count agg.field first :=
      ⟨fun _ _ _ above below => below.trans above⟩
    rw [TermIndex.answer, TermIndex.buckets, List.map_map, Function.comp_def, List.map_id']
    refine Ranking.top_take ?_ (List.pairwise_insertionSort _ _) fun value => ?_
    · rw [(List.perm_insertionSort _ _).nodup_iff]
      exact (List.nodup_dedup _).filter _
    · rw [List.mem_insertionSort, List.mem_filter, List.mem_dedup, decide_eq_true_eq]
      rfl
  counted agg bucket given := by
    obtain ⟨value, -, rfl⟩ := List.mem_map.mp given
    rfl

/-- A browser that more documents have than any event type. -/
def browserIndex : TermIndex where
  eventTypes := ["signup", "click", "click"]
  metadata := ["firefox", "firefox", "firefox", "chrome"]

/-- As long as nothing is typed, the browser comes after both event types. -/
theorem the_browser_is_offered_last :
    Top (browserIndex.rank none) 3 {value | value ∈ browserIndex.values ∧ Offered asciiLower none value}
      ((EventQueries.searchTerms asciiLower browserIndex.answer 3 none).map Term.value) :=
  (suggestions_are_the_most_frequent asciiLower (ranks_answer browserIndex) (by decide) 3 none).1

/-- An event type that more documents have in `metadata`, and a value whose count is in between. -/
def sharedIndex : TermIndex where
  eventTypes := ["fire"]
  metadata := ["fire", "fire", "fire", "firefox", "firefox"]

/-- The one suggestion for a value in both fields has the count of the event type, and another value that
more documents have is left out. -/
theorem a_shared_value_is_offered_with_its_lower_count :
    EventQueries.searchTerms asciiLower sharedIndex.answer 1 (some "fire") =
        [{ value := "fire", count := 1 }] ∧
      sharedIndex.values.count "firefox" = 2 := by
  have answered : ∀ field, sharedIndex.answer
      ⟨field, 1, some (includePattern (cleaned asciiLower "fire"))⟩ =
        sharedIndex.buckets ⟨field, 1, none⟩
          ((sharedIndex.terms field).dedup.filter fun value => "fire".toList <+: value.toList) := by
    intro field
    rw [TermIndex.answer]
    refine congrArg (sharedIndex.buckets ⟨field, 1, none⟩) (List.filter_congr fun value _ => ?_)
    have same : cleaned asciiLower "fire" = "fire" := by decide
    have begins := patternMatches_iff asciiLower "fire" value
    rw [same] at begins
    apply decide_eq_decide.mpr
    simpa only [Option.mem_some, forall_eq', same] using begins
  have kept : cleaned asciiLower "fire" ≠ "" := by decide
  refine ⟨?_, by decide⟩
  rw [EventQueries.searchTerms, if_neg kept, EventQueries.termBuckets]
  simp only [answered]
  decide

end FeathrEvents
