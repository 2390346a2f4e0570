/-
Module: FeathrEvents.App.Host
Purpose: What the program takes from its surroundings: uuid4, pydantic's JSON dumps, the exceptions
  that can be raised, and how `x * 2 ** n` is evaluated.
Trusted boundary: `Host` stands for `uuid.uuid4` and for pydantic; its fields state what the
  program relies on.
Main exports: Exn, Host, Host.Serialises, Arithmetic, timesPowerOfTwo, countingHost, sampleEvent
-/
import Mathlib.Algebra.Order.Field.Rat
import FeathrEvents.App.Models

namespace FeathrEvents

open Collections (OrderedDict)

/-- The exceptions that reach the modelled code.  `serializationError` is pydantic failing to dump
an event, `other` is whatever a collaborator outside the repository raises. -/
inductive Exn where
  | queueFull (text : String)
  | receiptHandleIsInvalid (text : String)
  | keyError (key : String)
  | overflowError
  | serializationError (eventId : String)
  | other (text : String)
deriving DecidableEq

/-- What the process takes from outside the repository.  `uuid4 n` is the `n`-th value that
`uuid.uuid4().hex` returns in this process, and distinctness of these values is the freshness the
code relies on.  `modelDumpJson` is `event.model_dump_json()`, `none` where pydantic raises;
`modelDump` is `event.model_dump(mode="json")`, the body sent to Elasticsearch. -/
structure Host where
  uuid4 : ℕ → String
  fresh : Function.Injective uuid4
  modelDumpJson : Event → Option String
  modelDump : Event → OrderedDict String Json

/-- Serialising an event for a log line never raises. -/
def Host.Serialises (host : Host) : Prop := ∀ event, (host.modelDumpJson event).isSome

/-- The two readings of `x * 2 ** n` for a float `x`.  `float` is Python's: the integer power is
converted to a float first, and from `2 ** 1024` on this raises `OverflowError`.  `exact` is the
idealisation in which every time is an exact rational and nothing is converted. -/
inductive Arithmetic where
  | exact
  | float
deriving DecidableEq

/-- `x * 2 ** exponent`. -/
def timesPowerOfTwo (arithmetic : Arithmetic) (x : ℚ) (exponent : ℤ) : Except Exn ℚ :=
  match arithmetic with
  | .exact => .ok (x * 2 ^ exponent)
  | .float => if 1024 ≤ exponent then .error .overflowError else .ok (x * 2 ^ exponent)

/-- A host whose uuid4 values are strings of ones, each longer than the last, for runs on concrete
inputs. -/
def countingHost (modelDumpJson : Event → Option String) : Host where
  uuid4 index := String.ofList (List.replicate (index + 1) '1')
  fresh first second same := by
    have lengths := congrArg (fun name : String => name.toList.length) same
    simpa using lengths
  modelDumpJson := modelDumpJson
  modelDump _ := .empty

/-- An event with nothing but its id, for runs on concrete inputs. -/
def sampleEvent (eventId : String) : Event where
  eventId := eventId
  eventType := "click"
  userId := "u1"
  sourceUrl := "https://example.com/"
  timestamp := ⟨0, some 0⟩
  receivedAt := ⟨0, some 0⟩
  metadata := []

end FeathrEvents
