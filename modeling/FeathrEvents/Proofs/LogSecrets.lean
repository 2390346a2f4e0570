/-
Module: FeathrEvents.Proofs.LogSecrets
Purpose: The log does not depend on the headers that it redacts: whatever their values are, every run leaves
  the same process and answers the same.
Trusted boundary: none
Main exports: Secret, HeadersAlike, Scope.Alike, decodeHeaders_alike, prepared_alike, wrap_alike,
  Asked, serve, no_secret_reaches_the_log
-/
import FeathrEvents.Lib.Runs
import FeathrEvents.Proofs.ClientIdentity
import FeathrEvents.Proofs.RequestLog

namespace FeathrEvents

open Collections (OrderedDict)

/-! ### What may differ -/

/-- The value of a header of this name is redacted. -/
def Secret (lower : String → String) (name : ByteArray) : Prop :=
  ∃ text, decode name = .ok text ∧ lower text ∈ redactedHeaders

/-- Two headers of one name with the same value, or with two texts that are redacted.  A value that
is no text stops the middleware, so it could be told from one that is. -/
structure HeadersAlike (lower : String → String) (first second : ByteArray × ByteArray) : Prop where
  name : first.1 = second.1
  value : first.2 = second.2 ∨
    (Secret lower first.1 ∧ first.2.IsValidUTF8 ∧ second.2.IsValidUTF8)

/-- Two scopes that differ at most in redacted headers. -/
structure Scope.Alike (lower : String → String) (first second : Scope) : Prop where
  type : first.type = second.type
  method : first.method = second.method
  path : first.path = second.path
  headers : List.Forall₂ (HeadersAlike lower) (first.headers.getD []) (second.headers.getD [])
  queryString : first.queryString = second.queryString
  client : first.client = second.client

/-! ### The dictionaries -/

/-- Two entries that are the same once they are redacted. -/
structure EntriesAlike (first second : String × String) : Prop where
  name : first.1 = second.1
  value : first.1 ∈ redactedHeaders ∨ first.2 = second.2

/-- Two dictionaries of headers that are the same once they are redacted. -/
def DictsAlike (first second : OrderedDict String String) : Prop :=
  List.Forall₂ EntriesAlike first.items second.items

section Entries

variable {first second : List (String × String)}

theorem keys_alike (alike : List.Forall₂ EntriesAlike first second) :
    first.map Prod.fst = second.map Prod.fst := by
  induction alike with
  | nil => rfl
  | cons here _ ih => rw [List.map_cons, List.map_cons, here.name, ih]

theorem find?_alike (alike : List.Forall₂ EntriesAlike first second) {name : String}
    (plain : name ∉ redactedHeaders) :
    (first.find? fun item => item.1 = name).map Prod.snd =
      (second.find? fun item => item.1 = name).map Prod.snd := by
  induction alike with
  | nil => rfl
  | @cons one two _ _ here _ ih =>
      rw [List.find?_cons, List.find?_cons, ← here.name]
      by_cases found : one.1 = name
      · have same := here.value.resolve_left (found ▸ plain)
        simp [found, same]
      · simpa [found] using ih

theorem modified_alike (alike : List.Forall₂ EntriesAlike first second) {name one two : String}
    (values : name ∈ redactedHeaders ∨ one = two) :
    List.Forall₂ EntriesAlike
      (first.map fun item => if item.1 = name then (item.1, one) else item)
      (second.map fun item => if item.1 = name then (item.1, two) else item) := by
  rw [List.forall₂_map_left_iff, List.forall₂_map_right_iff]
  refine alike.imp fun former latter here => ?_
  rw [← here.name]
  by_cases found : former.1 = name
  · rw [if_pos found, if_pos found]
    exact ⟨rfl, found ▸ values⟩
  · rw [if_neg found, if_neg found]
    exact here

end Entries

variable {first second : OrderedDict String String}

theorem DictsAlike.redact (alike : DictsAlike first second) : redact first = redact second := by
  rw [FeathrEvents.redact, FeathrEvents.redact, ← List.forall₂_eq_eq_eq, List.forall₂_map_left_iff,
    List.forall₂_map_right_iff]
  refine alike.imp fun one two here => ?_
  rw [← here.name]
  rcases here.value with secret | same
  · rw [if_pos secret, if_pos secret]
  · rw [same]

theorem DictsAlike.get? (alike : DictsAlike first second) {name : String}
    (plain : name ∉ redactedHeaders) : first.get? name = second.get? name :=
  find?_alike alike plain

theorem DictsAlike.set (alike : DictsAlike first second) {name one two : String}
    (values : name ∈ redactedHeaders ∨ one = two) :
    DictsAlike (first.set name one) (second.set name two) := by
  have keys := keys_alike alike
  rw [OrderedDict.set, OrderedDict.set]
  by_cases present : name ∈ first.items.map Prod.fst
  · rw [dif_pos present, dif_pos (keys ▸ present)]
    exact modified_alike alike values
  · rw [dif_neg present, dif_neg (keys ▸ present)]
    exact List.rel_append alike (.cons ⟨rfl, values⟩ .nil)

/-! ### Reading the headers -/

variable {lower : String → String}

/-- Two outcomes that are the same fault, or two results that are alike. -/
def ResultsAlike {α : Type*} (related : α → α → Prop) (first second : Except Fault α) : Prop :=
  (∃ fault, first = .error fault ∧ second = .error fault) ∨
    ∃ one two, first = .ok one ∧ second = .ok two ∧ related one two

/-- One more header. -/
def addHeader (lower : String → String) (dict : OrderedDict String String)
    (header : ByteArray × ByteArray) : Except Fault (OrderedDict String String) := do
  let name ← decode header.1
  let value ← decode header.2
  return dict.set (lower name) value

theorem addHeader_alike (alike : DictsAlike first second) {header other : ByteArray × ByteArray}
    (headers : HeadersAlike lower header other) :
    ResultsAlike DictsAlike (addHeader lower first header) (addHeader lower second other) := by
  rw [addHeader, addHeader, ← headers.name]
  cases name : decode header.1 with
  | error fault => exact .inl ⟨fault, rfl, rfl⟩
  | ok text =>
      rcases headers.value with same | ⟨⟨known, decoded, secret⟩, one, two⟩
      · rw [← same]
        cases decode header.2 with
        | error fault => exact .inl ⟨fault, rfl, rfl⟩
        | ok value => exact .inr ⟨_, _, rfl, rfl, alike.set (.inr rfl)⟩
      · obtain ⟨value, read⟩ := (decode_ok_iff _).mpr one
        obtain ⟨otherValue, otherRead⟩ := (decode_ok_iff _).mpr two
        cases name.symm.trans decoded
        rw [read, otherRead]
        exact .inr ⟨_, _, rfl, rfl, alike.set (.inl secret)⟩

theorem decodeHeaders_alike {headers others : List (ByteArray × ByteArray)}
    (alike : List.Forall₂ (HeadersAlike lower) headers others) :
    ResultsAlike DictsAlike (decodeHeaders lower headers) (decodeHeaders lower others) := by
  have fromHere : ∀ {dict other : OrderedDict String String}, DictsAlike dict other →
      ResultsAlike DictsAlike (headers.foldlM (addHeader lower) dict)
        (others.foldlM (addHeader lower) other) := by
    induction alike with
    | nil => exact fun started => .inr ⟨_, _, rfl, rfl, started⟩
    | cons here _ ih =>
        intro dict other started
        rw [List.foldlM_cons, List.foldlM_cons]
        rcases addHeader_alike started here with ⟨fault, one, two⟩ | ⟨next, otherNext, one, two, further⟩
        · rw [one, two]
          exact .inl ⟨fault, rfl, rfl⟩
        · rw [one, two]
          exact ih further
  exact fromHere .nil

variable {scope other : Scope}

/-- What the limiter reads of a request. -/
theorem clientOf_alike (alike : Scope.Alike lower scope other) (trustForwardedFor : Bool) :
    clientOf lower trustForwardedFor scope = clientOf lower trustForwardedFor other := by
  have peer : scope.peer = other.peer := by rw [Scope.peer, Scope.peer, alike.client]
  have plain : "x-forwarded-for" ∉ redactedHeaders := by decide
  rw [clientOf, clientOf, peer]
  rcases decodeHeaders_alike alike.headers with ⟨fault, one, two⟩ | ⟨first, second, one, two, dicts⟩
  · rw [one, two]
  · rw [one, two]
    simp only [bind, Except.bind, dicts.get? plain]

/-- What the logger reads of a request. -/
structure PreparedAlike (first second : Prepared) : Prop where
  headers : redact first.headers = redact second.headers
  taskId : first.taskId = second.taskId
  query : first.query = second.query

theorem prepared_alike (texts : Texts) (alike : Scope.Alike texts.lower scope other) :
    ResultsAlike PreparedAlike (prepared texts scope) (prepared texts other) := by
  have plain : "x-agent-task-id" ∉ redactedHeaders := by decide
  rw [prepared, prepared]
  rcases decodeHeaders_alike alike.headers with ⟨fault, one, two⟩ | ⟨first, second, one, two, dicts⟩
  · rw [one, two]
    exact .inl ⟨fault, rfl, rfl⟩
  · have resolved : resolveTaskId texts scope first = resolveTaskId texts other second := by
      rw [resolveTaskId, resolveTaskId, dicts.get? plain, alike.queryString]
    rw [one, two]
    simp only [bind, Except.bind, resolved, alike.queryString]
    cases resolveTaskId texts other second with
    | error fault => exact .inl ⟨fault, rfl, rfl⟩
    | ok taskId =>
        cases decode (other.queryString.getD .empty) with
        | error fault => exact .inl ⟨fault, rfl, rfl⟩
        | ok query => exact .inr ⟨_, _, rfl, rfl, dicts.redact, rfl, rfl⟩

/-! ### The middlewares -/

namespace AgentLoggerMiddleware

theorem requestLine_alike (alike : Scope.Alike lower scope other) {first second : Prepared}
    (prepared : PreparedAlike first second) : requestLine scope first = requestLine other second := by
  simp only [requestLine, kind, target, alike.type, alike.method, alike.path, prepared.headers,
    prepared.taskId, prepared.query]

theorem afterApp_alike (alike : Scope.Alike lower scope other) {first second : Prepared}
    (prepared : PreparedAlike first second) (clock : Clock) (described : Fault → AppError)
    (run : AppRun) :
    afterApp clock described scope first run = afterApp clock described other second run := by
  simp only [afterApp, reraise, responseLine, errorLine, kind, target, alike.type, alike.method,
    alike.path, prepared.taskId]

variable {ρ : Type*} {texts : Texts}

theorem requested_alike (alike : Scope.Alike texts.lower scope other) (clock : Clock)
    (sinks : LogSinks) : requested texts clock scope sinks = requested texts clock other sinks := by
  rw [requested, requested, alike.type]
  split
  · rfl
  · rcases prepared_alike texts alike with ⟨fault, one, two⟩ | ⟨first, second, one, two, read⟩
    · rw [one, two]
    · rw [one, two]
      simp only [requestLine_alike alike read]

/-- What a call of the middleware leaves apart from the scopes that it passed on. -/
theorem call_alike (alike : Scope.Alike texts.lower scope other) (clock : Clock)
    (described : Fault → AppError) (receive : ρ) (run : AppRun) (sinks : LogSinks) :
    (call texts clock described scope receive run sinks).raised =
        (call texts clock described other receive run sinks).raised ∧
      (call texts clock described scope receive run sinks).sinks =
        (call texts clock described other receive run sinks).sinks ∧
      ((call texts clock described scope receive run sinks).invocations = [] ↔
        (call texts clock described other receive run sinks).invocations = []) := by
  rw [call, call, alike.type]
  split
  · simp
  · rcases prepared_alike texts alike with ⟨fault, one, two⟩ | ⟨first, second, one, two, read⟩
    · rw [one, two]
      simp
    · rw [one, two]
      simp only [requestLine_alike alike read, afterApp_alike alike read]
      split <;> simp

theorem wrap_alike (texts : Texts) (alike : Scope.Alike texts.lower scope other)
    (readings : Readings)
    {app otherApp : Handler ρ} {receive : ρ}
    (same : ∀ process, app scope receive process = otherApp other receive process) (process : Process) :
    wrap texts readings app scope receive process =
      wrap texts readings otherApp other receive process := by
  rw [wrap, wrap, requested_alike alike, same]
  generalize otherApp other receive { process with
    sinks := requested texts readings.clock other process.sinks } = inner
  obtain ⟨raised, sinks, invoked⟩ := call_alike alike readings.clock readings.described receive
    ⟨inner.sent, inner.result, inner.process.sinks⟩ process.sinks
  dsimp only
  rw [raised, sinks]
  split <;> split <;> simp_all

end AgentLoggerMiddleware

variable {ρ : Type*}

theorem RateLimitMiddleware.call_alike (middleware : RateLimitMiddleware)
    (alike : Scope.Alike middleware.lower scope other) (bound : ℕ) (now loggedAt : ℚ)
    (limiter : RateLimiter) :
    middleware.call bound now loggedAt scope limiter = middleware.call bound now loggedAt other limiter := by
  simp only [RateLimitMiddleware.call, RateLimitMiddleware.request, alike.type, alike.method, alike.path,
    clientOf_alike alike]

/-- A request as it comes in: what it takes from its surroundings, and what the application would do
with it. -/
structure Asked (ρ : Type*) where
  scope : Scope
  receive : ρ
  app : Handler ρ
  readings : Readings
  unquotePlus : String → String
  hex : String

/-- What the stack makes of a request. -/
def serve (middleware : RateLimitMiddleware) (process : Process) (asked : Asked ρ) : Handled :=
  stack ⟨middleware.lower, asked.unquotePlus, asked.hex⟩ middleware asked.readings asked.app asked.scope
    asked.receive process

/-- Two requests that differ at most in redacted headers, which the application does not tell apart.
The log cannot tell them apart either. -/
structure AskedAlike (lower : String → String) (first second : Asked ρ) : Prop where
  scope : Scope.Alike lower first.scope second.scope
  receive : first.receive = second.receive
  app : ∀ process, first.app first.scope first.receive process =
    second.app second.scope second.receive process
  readings : first.readings = second.readings
  unquotePlus : first.unquotePlus = second.unquotePlus
  hex : first.hex = second.hex

theorem serve_alike (middleware : RateLimitMiddleware) {first second : Asked ρ}
    (alike : AskedAlike middleware.lower first second) (process : Process) :
    serve middleware process first = serve middleware process second := by
  obtain ⟨scope, receive, app, readings, unquotePlus, hex⟩ := first
  obtain ⟨other, _, _, _, _, _⟩ := second
  obtain ⟨scopes, received, apps, read, unquoted, drawn⟩ := alike
  dsimp only at scopes received apps read unquoted drawn
  subst received read unquoted drawn
  simp only [serve, stack, buildStack, List.foldl_cons, List.foldl_nil, RateLimitMiddleware.wrap,
    RateLimitMiddleware.call_alike middleware scopes]
  have passed (limiter : RateLimiter) := AgentLoggerMiddleware.wrap_alike
    ⟨middleware.lower, unquotePlus, hex⟩ scopes readings apps { process with limiter := limiter }
  split
  · rfl
  · exact passed _
  · rfl

/-- Whatever is sent in the headers that are redacted, in every run of requests that the application does
not tell apart by them: the same is answered, the same lines are written to the same files, and the same
process is left. -/
theorem no_secret_reaches_the_log (middleware : RateLimitMiddleware) (process : Process)
    {first second : List (Asked ρ)} (alike : List.Forall₂ (AskedAlike middleware.lower) first second) :
    let next := fun process asked => (serve middleware process asked : Handled).process
    Machine.run next process first = Machine.run next process second ∧
      (Machine.visits next process first).map (fun visit => serve middleware visit.1 visit.2) =
        (Machine.visits next process second).map fun visit => serve middleware visit.1 visit.2 := by
  intro next
  induction alike generalizing process with
  | nil => exact ⟨rfl, rfl⟩
  | @cons one two _ _ here _ ih =>
      have same := serve_alike middleware here process
      have stepped : next process one = next process two := congrArg Handled.process same
      rw [Machine.run_cons, Machine.run_cons, Machine.visits, Machine.visits, List.map_cons,
        List.map_cons, same, stepped]
      obtain ⟨run, answers⟩ := ih (next process two)
      exact ⟨run, by rw [answers]⟩

/-- A request with a token. -/
def authorized (token : String) : Asked Unit where
  scope := { type := .http, method := some "GET", path := some "/events",
             headers := some (encode [("authorization", token)]) }
  receive := ()
  app := accepted.handler
  readings := atOnce
  unquotePlus := id
  hex := "0f1e2d3c"

theorem two_tokens_leave_one_process :
    Machine.run (fun process asked => (serve trusting process asked).process) flooded
        [authorized "Bearer one", authorized "Bearer two"] =
      Machine.run (fun process asked => (serve trusting process asked).process) flooded
        [authorized "Bearer two", authorized ""] := by
  have alike : ∀ one two, AskedAlike trusting.lower (authorized one) (authorized two) := by
    intro one two
    have secret : Secret id "authorization".toUTF8 := ⟨"authorization", decode_toUTF8 _, by decide⟩
    have headers : HeadersAlike id ("authorization".toUTF8, one.toUTF8) ("authorization".toUTF8, two.toUTF8) :=
      ⟨rfl, .inr ⟨secret, one.isValidUTF8, two.isValidUTF8⟩⟩
    exact ⟨⟨rfl, rfl, rfl, .cons headers .nil, rfl, rfl⟩, rfl, fun _ => rfl, rfl, rfl, rfl⟩
  exact (no_secret_reaches_the_log trusting flooded (.cons (alike _ _) (.cons (alike _ _) .nil))).1

end FeathrEvents
