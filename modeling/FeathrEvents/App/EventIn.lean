/-
Module: FeathrEvents.App.EventIn
Purpose: What a client posts and how it is validated: each field by its own bounds and its own validator,
  with the faults of all fields together, or an exception that no validator may raise.
Trusted boundary: translation by hand of `EventIn` in `app/models.py`.  How pydantic decodes a body
  to the types of the fields, `HttpUrl`, `str.strip().lower()` and `json.dumps` are parameters.
Main exports: Payload, FieldFault, FieldError, Pydantic, EventIn.bounded, EventIn.normaliseType,
  EventIn.boundTheMetadata, EventIn.validate
-/
import FeathrEvents.App.LiveSummary

namespace FeathrEvents

/-- A body whose fields have the types that `EventIn` declares, and no others. -/
structure Payload where
  eventType : String
  userId : String
  sourceUrl : String
  timestamp : Option DateTime := none
  metadata : List (String × Json) := []

/-- What is wrong with a field. -/
inductive FieldFault where
  | tooShort (least : ℕ)
  | tooLong (most : ℕ)
  | notAUrl
  | valueError (text : String)
deriving DecidableEq

/-- A fault with the field that it names. -/
structure FieldError where
  field : String
  fault : FieldFault
deriving DecidableEq

/-- What the validators use of Python and pydantic.  `dumpedSize` is `len(json.dumps(v, default=str))`,
`none` where the nesting is too deep for it. -/
structure Pydantic where
  normaliser : Normaliser
  dumpedSize : List (String × Json) → Option ℕ

/-- `MAX_METADATA_BYTES`. -/
def maxMetadataBytes : ℕ := 32768

/-- What becomes of a field.  Pydantic collects the faults; any other exception ends the validation. -/
abbrev Checked (α : Type) := Except Exn (Except FieldFault α)

namespace EventIn

/-- `Field(min_length=least, max_length=most)`. -/
def bounded (least most : ℕ) (v : String) : Except FieldFault String :=
  if v.length < least then .error (.tooShort least)
  else if most < v.length then .error (.tooLong most)
  else .ok v

/-- `_normalise_type`. -/
def normaliseType (normaliser : Normaliser) (v : String) : Except FieldFault String :=
  let v := normaliser.stripLower v
  if v = "" then .error (.valueError "event_type must not be empty") else .ok v

/-- `HttpUrl`, as the text that `from_input` makes of it. -/
def checkedUrl (normaliser : Normaliser) (v : String) : Except FieldFault String :=
  match normaliser.httpUrl v with
  | none => .error .notAUrl
  | some url => .ok url

/-- `_bound_the_future` under pydantic, which takes a `ValueError` as a fault. -/
def checkedTimestamp (reading : ℤ) (v : Option DateTime) : Checked (Option DateTime) :=
  match boundTheFuture reading v with
  | .ok v => .ok (.ok v)
  | .error (.valueError text) => .ok (.error (.valueError text))
  | .error .overflowError => .error .overflowError

/-- `_bound_the_metadata`. -/
def boundTheMetadata (pydantic : Pydantic) (v : List (String × Json)) :
    Checked (List (String × Json)) :=
  match pydantic.dumpedSize v with
  | none => .error (.other "maximum recursion depth exceeded")
  | some size =>
      if maxMetadataBytes < size then
        .ok (.error (.valueError
          s!"metadata is {size} bytes, over the {maxMetadataBytes}-byte limit"))
      else .ok (.ok v)

/-- The error of a field, if it has a fault. -/
def errorsOf {α : Type} (field : String) : Except FieldFault α → List FieldError
  | .ok _ => []
  | .error fault => [⟨field, fault⟩]

/-- `EventIn(**body)`, with the clock reading that it takes: the fields in their order. -/
def validate (pydantic : Pydantic) (reading : ℤ) (body : Payload) :
    Except Exn (Except (List FieldError) EventIn) := do
  let eventType := (bounded 1 64 body.eventType).bind (normaliseType pydantic.normaliser)
  let userId := bounded 1 128 body.userId
  let sourceUrl := checkedUrl pydantic.normaliser body.sourceUrl
  let timestamp ← checkedTimestamp reading body.timestamp
  let metadata ← boundTheMetadata pydantic body.metadata
  match eventType, userId, sourceUrl, timestamp, metadata with
  | .ok eventType, .ok userId, .ok sourceUrl, .ok timestamp, .ok metadata =>
      return .ok ⟨eventType, userId, sourceUrl, timestamp, metadata⟩
  | _, _, _, _, _ =>
      return .error (errorsOf "event_type" eventType ++ errorsOf "user_id" userId ++
        errorsOf "source_url" sourceUrl ++ errorsOf "timestamp" timestamp ++
        errorsOf "metadata" metadata)

end EventIn

end FeathrEvents
