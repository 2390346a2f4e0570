/-
Module: FeathrEvents.App.Correction
Purpose: What the console offers in place of a query that was a typo: the value among the hits that is
  nearest to it.
Trusted boundary: translation by hand of `domain/correction.ts`.  `toLowerCase` is a parameter.  Of an
  event there are the fields that it reads, `metadata` as the values that `Object.values` lists.
Main exports: distance, FeathrEvent, candidatesOf, nearest, correctionFor
-/
import FeathrEvents.App.UseSearch
import Mathlib.Order.WithBot

namespace FeathrEvents

namespace Correction

/-- `row[j] = ...`: the row has `j` cells so far. -/
def cell (a b : JsString) (prev : List ℕ) (i : ℕ) (row : List ℕ) (j : ℕ) : List ℕ :=
  row ++ [min (prev.getD j 0 + 1) (min (row.getD (j - 1) 0 + 1)
    (prev.getD (j - 1) 0 + if a[i - 1]? = b[j - 1]? then 0 else 1))]

def row (a b : JsString) (prev : List ℕ) (i : ℕ) : List ℕ :=
  (List.range' 1 b.length).foldl (cell a b prev i) [i]

/-- Levenshtein, iterative and single-row. -/
def distance (a b : JsString) : ℕ :=
  if a = b then 0
  else ((List.range' 1 a.length).foldl (row a b) (List.range (b.length + 1))).getD b.length 0

/-- Two edits is the limit that Elasticsearch's own fuzziness allows. -/
def maxEdits : ℕ := 2

/-- A value of `metadata`, which counts when it is a string. -/
inductive MetadataValue where
  | string (text : JsString)
  | other

structure FeathrEvent where
  eventType : JsString
  userId : JsString
  metadata : Option (List MetadataValue)

/-- `Set.add`: a set keeps the order in which its values came. -/
def add (candidates : List JsString) (value : JsString) : List JsString :=
  if value ∈ candidates then candidates else candidates ++ [value]

def addValue (lower : JsString → JsString) (candidates : List JsString) :
    MetadataValue → List JsString
  | .string text => add candidates (lower text)
  | .other => candidates

def addEvent (lower : JsString → JsString) (candidates : List JsString) (e : FeathrEvent) :
    List JsString :=
  (e.metadata.getD []).foldl (addValue lower)
    (add (add candidates (lower e.eventType)) (lower e.userId))

def candidatesOf (lower : JsString → JsString) (items : List FeathrEvent) : List JsString :=
  items.foldl (addEvent lower) []

/-- `best` and `bestDistance`. -/
abbrev Best := Option JsString × WithTop ℕ

def Best.consider (typed : JsString) (best : Best) (candidate : JsString) : Best :=
  let d := WithTop.some (distance typed candidate)
  if d < best.2 then (some candidate, d) else best

/-- What is near enough to be offered. -/
def Best.correction (best : Best) : Option JsString :=
  if best.2 ≤ WithTop.some maxEdits then best.1 else none

def nearest (typed : JsString) (candidates : List JsString) : Best :=
  candidates.foldl (Best.consider typed) (none, ⊤)

/-- The value the hits carry that is nearest to what was typed, or `none` when the query was already exact. -/
def correctionFor (lower : JsString → JsString) (query : JsString) (items : List FeathrEvent) :
    Option JsString :=
  let typed := lower (trim query)
  if typed = [] then none
  else
    let candidates := candidatesOf lower items
    if typed ∈ candidates then none else (nearest typed candidates).correction

end Correction

end FeathrEvents
