/-
Module: FeathrEvents.Proofs.LiveCache
Purpose: What Redis can do to the live summary: which of its answers the route survives.
Trusted boundary: none
Main exports: cachedObject, liveAnswer, ReturnsNoMapping, Harmless, cache_is_harmless_iff
-/
import FeathrEvents.App.LiveSummary

namespace FeathrEvents

open Collections (OrderedDict)

variable {ν : Type}

/-- The value that Redis returns, when it decodes to a JSON object. -/
def cachedObject (loads : String → Option (Loaded ν)) :
    Except Exn (Option String) → Option (OrderedDict String ν)
  | .ok (some raw) =>
      if raw = "" then none
      else match loads raw with
        | some (.mapping members) => some members
        | _ => none
  | _ => none

/-- What the route is to answer: the cached object when there is one, and otherwise what is computed,
each with its two marks. -/
def liveAnswer (loads : String → Option (Loaded ν)) (ttl : ℤ) (read : Except Exn (Option String))
    (summary : Except Exn LiveSummary) : Except RouteError (OrderedDict String (AnswerField ν)) :=
  match cachedObject loads read with
  | some hit => .ok (answered (hit.items.map fun item => (item.1, .decoded item.2)) true ttl)
  | none => (summary.map fun data => answered data.fields false ttl).mapError .raised

/-- Redis returned a text of a JSON value that is neither an object nor null.  `**` spreads objects
only, and null counts as a miss. -/
def ReturnsNoMapping (loads : String → Option (Loaded ν)) (read : Except Exn (Option String)) :
    Prop :=
  ∃ raw typeName, read = .ok (some raw) ∧ raw ≠ "" ∧ loads raw = some (.other typeName)

/-- With what Redis does here, the route answers as it is to: with the summary of the database, or
with the object that was stored for the question. -/
def Harmless (loads : String → Option (Loaded ν)) (ttl : ℤ) (normaliser : Normaliser)
    (aggregate : Aggregate) (read : Except Exn (Option String)) (written : Except Exn Unit)
    (reading : ℤ) (eventType : Option String) : Prop :=
  statsRealtime loads ttl normaliser aggregate read written reading eventType =
    liveAnswer loads ttl read (EventQueries.liveSummary normaliser aggregate reading
      liveWindowSeconds liveBinSeconds eventType)

variable {loads : String → Option (Loaded ν)} {read : Except Exn (Option String)}

/-- The cached object is what `StatsCache.get` returns when that is a mapping. -/
theorem cachedObject_eq (loads : String → Option (Loaded ν)) (read : Except Exn (Option String)) :
    cachedObject loads read =
      match StatsCache.get loads read with
      | .mapping hit => some hit
      | _ => none := by
  rcases read with exn | none | raw
  · rfl
  · rfl
  · simp only [cachedObject, StatsCache.get]
    by_cases blank : raw = ""
    · simp only [if_pos blank]
    · simp only [if_neg blank]
      cases loads raw with
      | none => rfl
      | some value => cases value <;> rfl

/-- `StatsCache.get` returns what is neither a mapping nor `None` exactly when Redis returned such a
text. -/
theorem returnsNoMapping_iff (loads : String → Option (Loaded ν))
    (read : Except Exn (Option String)) :
    ReturnsNoMapping loads read ↔ ∃ typeName, StatsCache.get loads read = .other typeName := by
  constructor
  · rintro ⟨raw, typeName, rfl, some, decoded⟩
    exact ⟨typeName, by simp only [StatsCache.get, if_neg some, decoded, Option.getD_some]⟩
  · rintro ⟨typeName, got⟩
    rcases read with exn | none | raw
    · cases got
    · cases got
    · by_cases blank : raw = ""
      · simp only [StatsCache.get, if_pos blank] at got
        cases got
      · simp only [StatsCache.get, if_neg blank] at got
        cases decoded : loads raw with
        | none =>
            rw [decoded] at got
            cases got
        | some value =>
            rw [decoded] at got
            exact ⟨raw, typeName, rfl, blank, by rw [decoded, ← got, Option.getD_some]⟩

/-- Storing the fresh summary never changes the answer. -/
theorem set_is_silent (written : Except Exn Unit) : StatsCache.set written = .ok () := by
  cases written <;> rfl

/-- A value that is no mapping ends the request, where a summary was to be computed. -/
theorem not_harmless_of_other {typeName : String}
    (got : StatsCache.get loads read = .other typeName) (ttl : ℤ) (normaliser : Normaliser)
    (aggregate : Aggregate) (written : Except Exn Unit) (reading : ℤ) (eventType : Option String) :
    ¬ Harmless loads ttl normaliser aggregate read written reading eventType := by
  rw [Harmless, statsRealtime, liveAnswer, cachedObject_eq, got]
  cases EventQueries.liveSummary normaliser aggregate reading liveWindowSeconds liveBinSeconds
    eventType with
  | error exn => simp [Except.map, Except.mapError]
  | ok data => simp [Except.map, Except.mapError]

variable (loads read)

/-- Redis is harmless exactly when it does not return the text of a JSON value that is neither an object
nor null. -/
theorem cache_is_harmless_iff (ttl : ℤ) (normaliser : Normaliser) (aggregate : Aggregate)
    (written : Except Exn Unit) (reading : ℤ) (eventType : Option String) :
    Harmless loads ttl normaliser aggregate read written reading eventType ↔
      ¬ ReturnsNoMapping loads read := by
  rw [returnsNoMapping_iff]
  cases got : StatsCache.get loads read with
  | other typeName =>
      have breaks := not_harmless_of_other got ttl normaliser aggregate written reading eventType
      simp [breaks]
  | mapping hit => simp [Harmless, statsRealtime, liveAnswer, cachedObject_eq, got]
  | none =>
      simp only [Harmless, statsRealtime, liveAnswer, cachedObject_eq, got, set_is_silent]
      cases EventQueries.liveSummary normaliser aggregate reading liveWindowSeconds liveBinSeconds
        eventType with
      | error exn => simp [Except.map, Except.mapError, bind, Except.bind]
      | ok data => simp [Except.map, Except.mapError, bind, Except.bind]

/-- `json.loads` on three texts: an object, an array, and one that is no JSON. -/
def loadsSome : String → Option (Loaded Json)
  | "{}" => some (.mapping .empty)
  | "[]" => some (.other "list")
  | _ => none

/-- An array at the key, left there by another process, ends the request with a 500. -/
theorem a_cached_array_breaks_the_route :
    cachedObject loadsSome (.ok (some "[]")) = none ∧
      statsRealtime loadsSome 10 asTyped noRows (.ok (some "[]")) (.ok ()) 63900000000000000 none =
        .error (.notAMapping "list") ∧
      ¬ Harmless loadsSome 10 asTyped noRows (.ok (some "[]")) (.ok ()) 63900000000000000 none :=
  have got : StatsCache.get loadsSome (.ok (some "[]")) = .other "list" := rfl
  ⟨rfl, rfl, not_harmless_of_other got 10 asTyped noRows (.ok ()) 63900000000000000 none⟩

end FeathrEvents
