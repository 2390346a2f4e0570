/-
Module: FeathrEvents.App.SearchTerms
Purpose: The suggestions of the search box as the code computes them from the aggregations of
  Elasticsearch.
Trusted boundary: translation by hand of `search_terms` in `app/queries.py`.  `str.lower` and the
  answers of Elasticsearch are parameters; `Answers` states what it does with `include`.
Main exports: safe, cleaned, includePattern, TermsAgg, TermBucket, Term, EventQueries.searchTerms,
  TermIndex, PatternMatches, Answers
-/
import Mathlib.Data.List.Sort
import Mathlib.Data.String.Basic
import FeathrEvents.Lib.OrderedDict
import FeathrEvents.Lib.Regexp

namespace FeathrEvents

open Collections (OrderedDict)

/-- The characters that `_UNSAFE_IN_PREFIX` lets past. -/
def safe (char : Char) : Bool :=
  ('a' ≤ char && char ≤ 'z') || ('0' ≤ char && char ≤ '9') || char ∈ [' ', '_', '-', '.', '/', ':']

/-- `_UNSAFE_IN_PREFIX.sub("", starts_with.lower())`. -/
def cleaned (lower : String → String) (startsWith : String) : String :=
  String.ofList ((lower startsWith).toList.filter safe)

/-- `cleaned.replace(".", "\\.") + ".*"`. -/
def includePattern (cleaned : String) : String :=
  String.ofList (cleaned.toList.flatMap fun char =>
    if char = '.' then ['\\', '.'] else [char]) ++ ".*"

/-- A terms aggregation; `including` is its key `include`. -/
structure TermsAgg where
  field : String
  size : ℕ
  including : Option String := none
deriving DecidableEq

/-- A bucket of the answer: its `key` and its `doc_count`. -/
structure TermBucket where
  key : String
  docCount : ℕ

structure Term where
  value : String
  count : ℕ
deriving DecidableEq

namespace EventQueries

/-- `seen.setdefault` over the buckets: the first count of a value stays. -/
def seenTerms (buckets : List TermBucket) : OrderedDict String ℕ :=
  buckets.foldl
    (fun seen bucket =>
      if seen.get? bucket.key = none then seen.set bucket.key bucket.docCount else seen)
    .empty

/-- `sorted(seen.items(), key=lambda kv: -kv[1])`, which is stable. -/
def byCount (seen : OrderedDict String ℕ) : List (String × ℕ) :=
  seen.items.insertionSort fun first second => second.2 ≤ first.2

/-- `sorted(seen.items(), key=lambda kv: (kv[0] not in types, -kv[1]))`. -/
def typesFirst (types : List String) (seen : OrderedDict String ℕ) : List (String × ℕ) :=
  seen.items.insertionSort fun first second =>
    (first.1 ∈ types ∧ second.1 ∉ types) ∨
      ((first.1 ∈ types ↔ second.1 ∈ types) ∧ second.2 ≤ first.2)

/-- The buckets of both aggregations in the order in which they are merged, and those of the types. -/
def termBuckets (aggregate : TermsAgg → List TermBucket) (limit : ℕ) (including : Option String) :
    List TermBucket × List TermBucket :=
  let agg : TermsAgg := { field := "metadata", size := limit, including := including }
  let types := aggregate { agg with field := "event_type" }
  (types ++ aggregate agg, types)

def limitedTerms (limit : ℕ) (ordered : List (String × ℕ)) : List Term :=
  (ordered.take limit).map fun term => { value := term.1, count := term.2 }

/-- `search_terms`, given what Elasticsearch answers to each aggregation. -/
def searchTerms (lower : String → String) (aggregate : TermsAgg → List TermBucket) (limit : ℕ) :
    Option String → List Term
  | none =>
      let (buckets, types) := termBuckets aggregate limit none
      limitedTerms limit (typesFirst (types.map TermBucket.key) (seenTerms buckets))
  | some startsWith =>
      let cleaned := cleaned lower startsWith
      if cleaned = "" then []
      else
        let (buckets, _) := termBuckets aggregate limit (some (includePattern cleaned))
        limitedTerms limit (byCount (seenTerms buckets))

end EventQueries

/-! ### Elasticsearch -/

/-- The terms that are indexed: event types, and the values in `metadata`. -/
structure TermIndex where
  eventTypes : List String
  metadata : List String

def TermIndex.values (index : TermIndex) : List String := index.eventTypes ++ index.metadata

def TermIndex.terms (index : TermIndex) (field : String) : List String :=
  if field = "event_type" then index.eventTypes else index.metadata

/-- The pattern matches the whole text. -/
def PatternMatches (pattern text : String) : Prop :=
  ∃ regexp, Regexps.parse pattern.toList = some regexp ∧ text.toList ∈ regexp.language

/-- Elasticsearch answers an aggregation with indexed terms that match its `include`. -/
def Answers (index : TermIndex) (aggregate : TermsAgg → List TermBucket) : Prop :=
  ∀ agg, ∀ bucket ∈ aggregate agg, bucket.key ∈ index.terms agg.field ∧
    ∀ pattern ∈ agg.including, PatternMatches pattern bucket.key

end FeathrEvents
