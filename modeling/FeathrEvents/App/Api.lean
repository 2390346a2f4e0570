/-
Module: FeathrEvents.App.Api
Purpose: The API in front of the running worker as one machine: requests arrive at the limiter in any
  order, those that it passes on are handled at any later moment, and the worker makes its moves between.
Trusted boundary: translation by hand of `ingest` in `app/main.py` behind the middleware of
  `app/ratelimit.py`, with the limit enabled.  The validation of a body, the stamp and the `send` are one
  move, as nothing in between suspends.  The lines that are logged are left out.  `eventIds` are the
  values that `uuid.uuid4().hex` returns to `from_input`.
Main exports: IngestAnswer, IngestAnswer.status, Surround, sampleSurround, Post, Api, Api.ingest,
  ApiMove, Api.step, Api.next
-/
import FeathrEvents.App.EventIn
import FeathrEvents.App.RateLimit
import FeathrEvents.App.Worker

namespace FeathrEvents

/-- What `POST /events` is answered with. -/
inductive IngestAnswer where
  | accepted (eventId : String)
  | undecodable
  | unprocessable (errors : List FieldError)
  | queueFull
  | rateLimited (retryAfter : ℤ)
  | internalError (exn : Exn)

namespace IngestAnswer

def status : IngestAnswer → ℕ
  | .accepted _ => 202
  | .undecodable | .unprocessable _ => 422
  | .queueFull | .rateLimited _ => 429
  | .internalError _ => 500

/-- The header `Retry-After`. -/
def retryAfter : IngestAnswer → Option ℤ
  | .queueFull => some 1
  | .rateLimited seconds => some seconds
  | .accepted _ | .undecodable | .unprocessable _ | .internalError _ => none

/-- The header `X-Throttle-Reason`. -/
def throttleReason : IngestAnswer → Option String
  | .queueFull => some "queue_full"
  | .rateLimited _ => some "rate_limit"
  | .accepted _ | .undecodable | .unprocessable _ | .internalError _ => none

/-- What the middleware answers itself. -/
def ofLimiter : Answer → Option IngestAnswer
  | .passed => none
  | .refused retryAfter _ => some (.rateLimited retryAfter)

/-- The id in the body of a 202. -/
def eventId? : IngestAnswer → Option String
  | .accepted eventId => some eventId
  | .undecodable | .unprocessable _ | .queueFull | .rateLimited _ | .internalError _ => none

end IngestAnswer

/-- What the process is started with and what it takes from its surroundings. -/
structure Surround where
  setup : Setup
  pydantic : Pydantic
  eventIds : ℕ → String
  distinct : Function.Injective eventIds

/-- Surroundings in which texts are taken as they are, for runs on concrete inputs. -/
def sampleSurround (setup : Setup) : Surround where
  setup := setup
  pydantic := ⟨⟨id, some⟩, fun metadata => some (2 + metadata.length)⟩
  eventIds := setup.host.uuid4
  distinct := setup.host.fresh

/-- A request to `POST /events`.  Its body is `none` when pydantic cannot decode it, and so is its answer
as long as it waits behind the limiter. -/
structure Post where
  client : String
  body : Option Payload
  answer : Option IngestAnswer

/-- The worker, the limiter and the requests in the order of their arrival; `drawn` ids were given to
events so far. -/
structure Api where
  system : System
  limiter : RateLimiter
  posts : List Post
  drawn : ℕ

/-- The moves, with the clock readings that they take.  A `get` is any request that draws from the bucket
of reads. -/
inductive ApiMove where
  | post (client : String) (body : Option Payload) (now loggedAt : ℚ)
  | get (client : String) (now loggedAt : ℚ)
  | handle (post : ℕ) (validatedAt stampedAt : ℤ)
  | worker (move : Move)

namespace Api

/-- A process that has just started. -/
def start (limiter : RateLimiter) : Api where
  system := .create
  limiter := limiter
  posts := []
  drawn := 0

variable (surround : Surround)

/-- The route `ingest`, from the validation of its body on. -/
def ingest (validatedAt stampedAt : ℤ) (body : Payload) (api : Api) : IngestAnswer × Api :=
  match EventIn.validate surround.pydantic validatedAt body with
  | .error exn => (.internalError exn, api)
  | .ok (.error errors) => (.unprocessable errors, api)
  | .ok (.ok data) =>
      let event := Event.fromInput (surround.eventIds api.drawn) stampedAt data
      let (result, system) := api.system.call surround.setup none (.send event)
      let api := { api with system := system, drawn := api.drawn + 1 }
      match result with
      | .ok _ => (.accepted event.eventId, api)
      | .error (.queueFull _) => (.queueFull, api)
      | .error exn => (.internalError exn, api)

/-- A request that the limiter passed on is handled. -/
def handled (validatedAt stampedAt : ℤ) (body : Option Payload) (api : Api) : IngestAnswer × Api :=
  match body with
  | none => (.undecodable, api)
  | some body => api.ingest surround validatedAt stampedAt body

/-- The state after a move, `none` where the move is not possible.  An event is only ever sent by the
route. -/
def step (api : Api) : ApiMove → Option Api
  | .post client body now loggedAt =>
      let (answer, limiter) := api.limiter.answer maxClients ⟨client, .write, now⟩ loggedAt
      some { api with
        limiter := limiter
        posts := api.posts ++ [⟨client, body, IngestAnswer.ofLimiter answer⟩] }
  | .get client now loggedAt =>
      some { api with
        limiter := (api.limiter.answer maxClients ⟨client, .read, now⟩ loggedAt).2 }
  | .handle index validatedAt stampedAt =>
      match api.posts[index]? with
      | some ⟨client, body, none⟩ =>
          let (answer, api) := api.handled surround validatedAt stampedAt body
          some { api with posts := api.posts.set index ⟨client, body, some answer⟩ }
      | _ => none
  | .worker move =>
      match move with
      | .send _ => none
      | _ => (api.system.step surround.setup move).map fun system => { api with system := system }

/-- The machine: a move that is not possible changes nothing. -/
def next (api : Api) (move : ApiMove) : Api := (api.step surround move).getD api

end Api

end FeathrEvents
