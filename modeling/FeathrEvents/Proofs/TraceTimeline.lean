/-
Module: FeathrEvents.Proofs.TraceTimeline
Purpose: What the trace of an event shows is so: a hop that is done was made, and one that timed out was
  overlooked only because fifty others came first.
Trusted boundary: none
Main exports: UseTrace.Hit, UseTrace.Traced, UseTrace.traced, Finds, UseTrace.Crowded,
  UseTrace.crowded_of_unlisted, UseTrace.the_timeline_is_true
-/
import FeathrEvents.App.UseTrace
import FeathrEvents.Proofs.ApiHealth
import FeathrEvents.Proofs.ApiPayloads

namespace FeathrEvents

namespace UseTrace

/-! ### What the client shows -/

variable {clock : Clock} {posted : Option (Except String String)}
  {lists : List (Polling.Pass ℤ String (List Event))}
  {searches : List (Polling.Pass ℤ String (List String))} {timeline : Timeline} {eventId : String}

/-- A loop ended without an exception, after so many milliseconds if it was hit. -/
inductive Hit {β : Type} (clock : Clock) :
    Option (Polling.Verdict ℤ String β) → Option ℤ → Prop where
  | found (value : β) (foundAt : ℤ) :
      Hit clock (some (.found value foundAt)) (some (foundAt - clock.started))
  | timedOut : Hit clock (some .timedOut) none

/-- The run that is logged once the first loop has ended. -/
def loggedRun (clock : Clock) (mongoMs : Option ℤ) : Run :=
  ⟨1, ((clock.accepted - clock.started : ℤ) : ℚ), mongoMs.map Int.cast, 1, 0, none, 0⟩

/-- Everything that can be on the screen. -/
inductive Traced (clock : Clock) (posted : Option (Except String String))
    (lists : List (Polling.Pass ℤ String (List Event)))
    (searches : List (Polling.Pass ℤ String (List String))) : Timeline → Prop where
  | posting (waits : posted = none) :
      Traced clock posted lists searches ⟨[], true, none, []⟩
  | refused {message : String} (failed : posted = some (.error message)) (atMs : ℤ) :
      Traced clock posted lists searches ⟨[⟨"Failed", message, atMs, .failed⟩], false, none, []⟩
  | listing {eventId : String} (accepted : posted = some (.ok eventId))
      (goes : inMongo clock eventId lists = none) :
      Traced clock posted lists searches
        ⟨[acceptedStep eventId (clock.pushed - clock.started)], true, some eventId, []⟩
  | unlisted {eventId message : String} (accepted : posted = some (.ok eventId))
      (raised : inMongo clock eventId lists = some (.raised message)) (atMs : ℤ) :
      Traced clock posted lists searches
        ⟨[acceptedStep eventId (clock.pushed - clock.started), ⟨"Failed", message, atMs, .failed⟩],
          false, some eventId, []⟩
  | searching {eventId : String} {mongoMs : Option ℤ} (accepted : posted = some (.ok eventId))
      (hit : Hit clock (inMongo clock eventId lists) mongoMs)
      (goes : inES clock eventId searches = none) :
      Traced clock posted lists searches
        ⟨[acceptedStep eventId (clock.pushed - clock.started), mongoStep mongoMs], true, some eventId,
          [loggedRun clock mongoMs]⟩
  | unsearched {eventId message : String} {mongoMs : Option ℤ}
      (accepted : posted = some (.ok eventId)) (hit : Hit clock (inMongo clock eventId lists) mongoMs)
      (raised : inES clock eventId searches = some (.raised message)) (atMs : ℤ) :
      Traced clock posted lists searches
        ⟨[acceptedStep eventId (clock.pushed - clock.started), mongoStep mongoMs,
          ⟨"Failed", message, atMs, .failed⟩], false, some eventId, [loggedRun clock mongoMs]⟩
  | finished {eventId : String} {mongoMs searchMs : Option ℤ}
      (accepted : posted = some (.ok eventId)) (hit : Hit clock (inMongo clock eventId lists) mongoMs)
      (found : Hit clock (inES clock eventId searches) searchMs) :
      Traced clock posted lists searches
        ⟨[acceptedStep eventId (clock.pushed - clock.started), mongoStep mongoMs, searchStep searchMs],
          false, some eventId, [loggedRun clock mongoMs]⟩

/-- The second loop. -/
theorem traced_search {mongoMs : Option ℤ} (accepted : posted = some (.ok eventId))
    (hit : Hit clock (inMongo clock eventId lists) mongoMs) :
    Traced clock posted lists searches
      (afterLoop clock (inES clock eventId searches)
        ⟨[acceptedStep eventId (clock.pushed - clock.started), mongoStep mongoMs], true, some eventId,
          [loggedRun clock mongoMs]⟩
        fun searchMs =>
          ⟨[acceptedStep eventId (clock.pushed - clock.started), mongoStep mongoMs, searchStep searchMs],
            false, some eventId, [loggedRun clock mongoMs]⟩) := by
  cases shape : inES clock eventId searches with
  | none => exact .searching accepted hit shape
  | some verdict =>
      cases verdict with
      | raised message => exact .unsearched accepted hit shape _
      | found value foundAt => exact .finished accepted hit (shape ▸ .found value foundAt)
      | timedOut => exact .finished accepted hit (shape ▸ .timedOut)

theorem traced (clock : Clock) (posted : Option (Except String String))
    (lists : List (Polling.Pass ℤ String (List Event)))
    (searches : List (Polling.Pass ℤ String (List String))) :
    Traced clock posted lists searches (trace clock posted lists searches) := by
  cases came : posted with
  | none => exact .posting rfl
  | some answer =>
      cases answer with
      | error message => exact .refused rfl _
      | ok eventId =>
          rw [trace]
          cases shape : inMongo clock eventId lists with
          | none => exact .listing rfl shape
          | some verdict =>
              cases verdict with
              | raised message => exact .unlisted rfl shape _
              | found value foundAt => exact traced_search rfl (shape ▸ .found value foundAt)
              | timedOut => exact traced_search rfl (shape ▸ .timedOut)

/-! ### The steps by their labels -/

/-- The steps with a label. -/
def labelled (label : String) (timeline : Timeline) : List TraceStep :=
  timeline.steps.filter fun step => step.label = label

@[simp] theorem label_mongoStep (ms : Option ℤ) : (mongoStep ms).label = "In MongoDB" := by
  cases ms <;> rfl

@[simp] theorem label_searchStep (ms : Option ℤ) : (searchStep ms).label = "Searchable" := by
  cases ms <;> rfl

theorem mongoStep_injective {first second : Option ℤ} (same : mongoStep first = mongoStep second) :
    first = second := by
  cases first <;> cases second <;> simp_all [mongoStep, hop]

theorem searchStep_injective {first second : Option ℤ}
    (same : searchStep first = searchStep second) :
    first = second := by
  cases first <;> cases second <;> simp_all [searchStep, hop]

/-- There is a step for MongoDB, and a run in the log, exactly when the first loop ended. -/
theorem Traced.mongo (traced : Traced clock posted lists searches timeline) :
    (labelled "In MongoDB" timeline = [] ∧ timeline.runs = []) ∨
    ∃ eventId mongoMs, posted = some (.ok eventId) ∧ timeline.eventId = some eventId ∧
      Hit clock (inMongo clock eventId lists) mongoMs ∧
      labelled "In MongoDB" timeline = [mongoStep mongoMs] ∧
      timeline.runs = [loggedRun clock mongoMs] := by
  cases traced with
  | posting | refused | listing | unlisted =>
      exact .inl ⟨by simp [labelled, acceptedStep], rfl⟩
  | searching accepted hit | unsearched accepted hit | finished accepted hit =>
      exact .inr ⟨_, _, accepted, rfl, hit, by simp [labelled, acceptedStep], rfl⟩

/-- There is a step for the search exactly when the second loop ended. -/
theorem Traced.search (traced : Traced clock posted lists searches timeline) :
    labelled "Searchable" timeline = [] ∨
    ∃ eventId searchMs, posted = some (.ok eventId) ∧ timeline.eventId = some eventId ∧
      Hit clock (inES clock eventId searches) searchMs ∧
      labelled "Searchable" timeline = [searchStep searchMs] := by
  cases traced with
  | posting | refused | listing | unlisted | searching | unsearched =>
      exact .inl (by simp [labelled, acceptedStep])
  | finished accepted hit found =>
      exact .inr ⟨_, _, accepted, rfl, found, by simp [labelled, acceptedStep]⟩

/-- An id on the screen came from the API. -/
theorem Traced.posted_of_shown (traced : Traced clock posted lists searches timeline)
    (shown : timeline.eventId = some eventId) : posted = some (.ok eventId) := by
  cases traced with
  | posting | refused => cases shown
  | listing accepted | unlisted accepted | searching accepted | unsearched accepted | finished accepted =>
      cases shown
      exact accepted

theorem mem_labelled {step : TraceStep} (member : step ∈ timeline.steps) :
    step ∈ labelled step.label timeline :=
  List.mem_filter.mpr ⟨member, decide_eq_true rfl⟩

theorem Traced.hit_of_mongo (traced : Traced clock posted lists searches timeline) {ms : Option ℤ}
    (member : mongoStep ms ∈ timeline.steps) (shown : timeline.eventId = some eventId) :
    Hit clock (inMongo clock eventId lists) ms := by
  have listed := mem_labelled member
  rw [label_mongoStep] at listed
  rcases traced.mongo with ⟨none, -⟩ | ⟨_, mongoMs, -, same, hit, only, -⟩
  · rw [none] at listed
    cases listed
  · rw [only] at listed
    cases mongoStep_injective (List.mem_singleton.mp listed)
    cases same.symm.trans shown
    exact hit

theorem Traced.hit_of_search (traced : Traced clock posted lists searches timeline) {ms : Option ℤ}
    (member : searchStep ms ∈ timeline.steps) (shown : timeline.eventId = some eventId) :
    Hit clock (inES clock eventId searches) ms := by
  have listed := mem_labelled member
  rw [label_searchStep] at listed
  rcases traced.search with none | ⟨_, searchMs, -, same, hit, only⟩
  · rw [none] at listed
    cases listed
  · rw [only] at listed
    cases searchStep_injective (List.mem_singleton.mp listed)
    cases same.symm.trans shown
    exact hit

/-! ### What a listing leaves out -/

/-- MongoDB's answers to `find` and `sort("timestamp", -1)`, for whatever it has: it chooses the
order of events with one timestamp, anew for each question. -/
def Finds (find : List Document → Filter → List Document) : Prop :=
  ∀ documents filter, Paging.Answers Document.moment
    ((documents.map Document.readBack).filter fun document => filter.readBack.Matches document)
    (find documents filter)

/-- The documents that the listing of the trace selects. -/
def probes (surround : Surround) (api : Api) : List Document :=
  (api.system.mongo.values.map Document.readBack).filter fun document =>
    (ListQuery.filter surround.pydantic.normaliser { userId := some "trace-probe" }).readBack.Matches
      document

/-- If MongoDB has a document under this id, more than fifty that the listing selects are not older, itself
among them. -/
def Crowded (surround : Surround) (eventId : String) (api : Api) : Prop :=
  ∀ document, api.system.mongo.get? eventId = some document →
    50 < Paging.notOlder Document.moment (probes surround api) document.readBack.moment

variable {surround : Surround} {limiter : RateLimiter} {api : Api}
  {find : List Document → Filter → List Document} {tracing : Tracing}

/-- What a listing has is in MongoDB. -/
theorem stored_of_listed (finds : Finds find) (issued : Api.Issued surround api) {event : Event}
    (listed : event ∈ Tracing.listing surround find api) : event.eventId ∈ api.system.ids .mongodb := by
  obtain ⟨document, taken, rfl⟩ := List.mem_map.mp listed
  have found : document ∈ find api.system.mongo.values _ := List.mem_of_mem_take taken
  have selected := (finds _ _).perm.mem_iff.mp found
  obtain ⟨original, there, rfl⟩ := List.mem_map.mp (List.mem_of_mem_filter selected)
  obtain ⟨eventId, stored⟩ := Collections.OrderedDict.mem_values.mp there
  have here : eventId ∈ api.system.ids .mongodb := Collections.OrderedDict.mem_keys.mpr ⟨_, stored⟩
  rw [← issued.id_of_document stored] at here
  exact here

/-- A receipt whose event is not listed is not in MongoDB, or fifty others come first. -/
theorem crowded_of_unlisted (finds : Finds find) (issued : Api.Issued surround api) {post : Post}
    (member : post ∈ api.posts) (answer : post.answer = some (.accepted eventId)) {marker : String}
    (body : post.body = some (traceBody marker))
    (unlisted : ∀ event ∈ Tracing.listing surround find api, event.eventId ≠ eventId) :
    Crowded surround eventId api := by
  intro document stored
  obtain ⟨event, accepted, rfl, validatedAt, stampedAt, payload, data, posted, validated, shape⟩ :=
    issued.answered post member eventId answer
  cases body.symm.trans posted
  have listed : event.eventId ∈ api.system.ids .mongodb :=
    Collections.OrderedDict.mem_keys.mpr ⟨_, stored⟩
  cases stored.symm.trans (issued.documents accepted listed)
  have selected : event.toDocument.readBack ∈ probes surround api := by
    refine List.mem_filter.mpr ⟨List.mem_map_of_mem ?_, decide_eq_true ?_⟩
    · exact Collections.OrderedDict.mem_values.mpr ⟨_, stored⟩
    · rw [shape]
      apply Api.matches_of_asks (EventIn.validate_ok_iff.mp validated) _ stampedAt
      exact ⟨by simp [given], by simp [given, traceBody], by simp [given], by simp, by simp⟩
  have answers := finds api.system.mongo.values
    (ListQuery.filter surround.pydantic.normaliser { userId := some "trace-probe" })
  obtain ⟨before, after, split⟩ := List.append_of_mem (answers.perm.mem_iff.mpr selected)
  rw [split] at answers
  refine lt_of_le_of_lt ?_ answers.position.2
  by_contra early
  refine unlisted (EventQueries.toOutput event.toDocument.readBack) (List.mem_map_of_mem ?_) rfl
  -- it would stand among the first fifty
  rw [List.drop_zero, split]
  have room : before.length < 50 := not_le.mp early
  exact List.mem_take_iff_getElem.mpr ⟨before.length, by simp [maxLimit]; omega, by simp⟩

/-! ### Against the API -/

theorem issued_answered (surround : Surround) (limiter : RateLimiter) (tracing : Tracing) :
    Api.Issued surround (tracing.answered surround limiter) :=
  Api.issued_run surround limiter tracing.posting

theorem issued_listed (surround : Surround) (limiter : RateLimiter) (tracing : Tracing) :
    Api.Issued surround (tracing.listed surround limiter) :=
  (issued_answered surround limiter tracing).goes_on _

theorem issued_last (surround : Surround) (limiter : RateLimiter) (tracing : Tracing) :
    Api.Issued surround (tracing.last surround limiter) :=
  (issued_listed surround limiter tracing).goes_on _

/-- An id came from the answer to the request of the trace. -/
theorem posted_ok (accepted : tracing.posted surround limiter = some (.ok eventId)) :
    ∃ post, (tracing.answered surround limiter).posts[tracing.place surround limiter]? = some post ∧
      post.answer = some (.accepted eventId) ∧ post.body = some (traceBody tracing.marker) := by
  have arrived : ∃ post, (tracing.answered surround limiter).posts[tracing.place surround limiter]? =
      some post ∧ post.body = some (traceBody tracing.marker) := by
    rw [Tracing.answered, Tracing.posting, Machine.run_append, Machine.run_cons]
    have here : ∃ answer, ((Machine.run (Api.next surround) (Api.start limiter) tracing.before).next surround
        (.post tracing.client (some (traceBody tracing.marker)) tracing.arrivedAt
          tracing.loggedAt)).posts[tracing.place surround limiter]? =
        some ⟨tracing.client, some (traceBody tracing.marker), answer⟩ :=
      ⟨_, List.getElem?_concat_length⟩
    obtain ⟨answer, there⟩ := here
    obtain ⟨post, found, body, -⟩ := Api.post_stays tracing.handling there
    exact ⟨post, found, body⟩
  obtain ⟨post, found, body⟩ := arrived
  refine ⟨post, found, ?_, body⟩
  unfold Tracing.posted at accepted
  rw [found, Option.bind_some] at accepted
  split at accepted
  · cases accepted
  · split at accepted
    · cases accepted
    · rename_i answer
      cases accepted
      exact answer
    · cases accepted

/-- A done step of the first loop: MongoDB had the event, and this is when the answer came. -/
theorem mongo_hit (finds : Finds find) {mongoMs : ℤ}
    (hit : Hit tracing.clock (inMongo tracing.clock eventId (Polling.passes (Api.next surround)
      (fun _ => Tracing.listing surround find) (tracing.answered surround limiter) tracing.lists))
      (some mongoMs)) :
    eventId ∈ (tracing.listed surround limiter).system.ids .mongodb ∧
      ∃ question ∈ tracing.lists, mongoMs = question.repliedAt - tracing.clock.started := by
  generalize shape : inMongo tracing.clock eventId _ = verdict at hit
  cases hit with
  | found event foundAt =>
      obtain ⟨earlier, question, later, -, split, -, rfl, liked⟩ := Polling.poll_found shape
      have issued := (issued_answered surround limiter tracing).goes_on
        (Polling.moves earlier ++ question.before)
      have here := stored_of_listed finds issued (List.mem_of_find?_eq_some liked)
      have told := List.find?_some liked
      have named : event.eventId = eventId := of_decide_eq_true told
      have stays := Api.ids_after_question (issued_answered surround limiter tracing) split .mongodb here
      exact ⟨named ▸ stays, question, by simp [split], rfl⟩

/-- A done step of the second loop: the index had the event, and this is when the answer came. -/
theorem search_hit {searchMs : ℤ}
    (hit : Hit tracing.clock (inES tracing.clock eventId (Polling.passes (Api.next surround) Tracing.found
      (tracing.listed surround limiter) tracing.searches)) (some searchMs)) :
    eventId ∈ (tracing.last surround limiter).system.ids .elasticsearch ∧
      ∃ question ∈ tracing.searches, searchMs = question.repliedAt - tracing.clock.started := by
  generalize shape : inES tracing.clock eventId _ = verdict at hit
  cases hit with
  | found other foundAt =>
      obtain ⟨earlier, question, later, visible, split, -, rfl, liked⟩ := Polling.poll_found shape
      have member := List.mem_of_find?_eq_some liked
      have here : other ∈ System.ids _ .elasticsearch := of_decide_eq_true (List.mem_filter.mp member).2
      have told := List.find?_some liked
      have named : other = eventId := of_decide_eq_true told
      have stays := Api.ids_after_question (issued_listed surround limiter tracing) split .elasticsearch here
      exact ⟨named ▸ stays, question, by simp [split], rfl⟩

/-- Each question of the first loop, up to the end of its time, was answered where the event was not in
MongoDB or fifty others came first. -/
def Overlooked (surround : Surround) (limiter : RateLimiter) (tracing : Tracing)
    (eventId : String) : Prop :=
  ∃ earlier question later, tracing.lists = earlier ++ question :: later ∧
    tracing.clock.listsFrom + timeoutMs ≤ question.testedAt ∧
    ∀ first asked rest, earlier = first ++ asked :: rest →
      Crowded surround eventId (Machine.run (Api.next surround) (tracing.answered surround limiter)
        (Polling.moves first ++ asked.before))

theorem overlooked_of_timedOut (finds : Finds find)
    (accepted : tracing.posted surround limiter = some (.ok eventId))
    (hit : Hit tracing.clock (inMongo tracing.clock eventId (Polling.passes (Api.next surround)
      (fun _ => Tracing.listing surround find) (tracing.answered surround limiter) tracing.lists)) none) :
    Overlooked surround limiter tracing eventId := by
  generalize shape : inMongo tracing.clock eventId _ = verdict at hit
  cases hit with
  | timedOut =>
      obtain ⟨earlier, question, later, split, late, answers⟩ := Polling.poll_timedOut shape
      refine ⟨earlier, question, later, split, late, fun first asked rest cut => ?_⟩
      obtain ⟨-, -, disliked⟩ := answers first asked rest cut
      obtain ⟨post, found, answer, body⟩ := posted_ok accepted
      have there := Api.answered_stays surround (Polling.moves first ++ asked.before) found answer
      apply crowded_of_unlisted finds ((issued_answered surround limiter tracing).goes_on _)
        (List.mem_of_getElem? there) answer body
      intro event listed named
      exact List.find?_eq_none.mp disliked event listed (decide_eq_true named)

/-- The readings of the browser's clock, in the order in which they are taken. -/
def readings (tracing : Tracing) : List ℤ :=
  [tracing.clock.started, tracing.clock.pushed, tracing.clock.accepted, tracing.clock.listsFrom] ++
    (tracing.lists.flatMap (fun question => [question.testedAt, question.repliedAt]) ++
      tracing.clock.searchesFrom ::
        tracing.searches.flatMap fun question => [question.testedAt, question.repliedAt])

/-- The order of the readings that the steps show. -/
theorem readings_ordered (ordered : (readings tracing).Pairwise (· ≤ ·)) :
    (∀ listed ∈ tracing.lists, tracing.clock.pushed ≤ listed.repliedAt) ∧
    (∀ searched ∈ tracing.searches, tracing.clock.pushed ≤ searched.repliedAt) ∧
    ∀ listed ∈ tracing.lists, ∀ searched ∈ tracing.searches, listed.repliedAt ≤ searched.repliedAt := by
  obtain ⟨-, later, across⟩ := List.pairwise_append.mp ordered
  obtain ⟨-, -, between⟩ := List.pairwise_append.mp later
  have inList : ∀ {κ : Type} {questions : List (Polling.Question ApiMove ℤ String κ)},
      ∀ question ∈ questions, question.repliedAt ∈
        questions.flatMap fun question => [question.testedAt, question.repliedAt] :=
    fun question member => List.mem_flatMap.mpr ⟨question, member, by simp⟩
  refine ⟨fun listed member => ?_, fun searched member => ?_, fun listed first searched second => ?_⟩
  · exact across _ (by simp) _ (List.mem_append_left _ (inList listed member))
  · exact across _ (by simp) _ (List.mem_append_right _ (List.mem_cons_of_mem _ (inList searched member)))
  · exact between _ (inList listed first) _ (List.mem_cons_of_mem _ (inList searched second))

/-- The steps that are done are in the order of their times, when the clock does not go back. -/
theorem done_in_order (finds : Finds find) (ordered : (readings tracing).Pairwise (· ≤ ·)) :
    ((tracing.timeline surround limiter find).steps.filter fun step => step.state = .done).Pairwise
      fun one two => one.atMs ≤ two.atMs := by
  obtain ⟨pushedListed, pushedSearched, listedSearched⟩ := readings_ordered ordered
  have traced := traced tracing.clock (tracing.posted surround limiter)
    (Polling.passes (Api.next surround) (fun _ => Tracing.listing surround find)
      (tracing.answered surround limiter) tracing.lists)
    (Polling.passes (Api.next surround) Tracing.found (tracing.listed surround limiter) tracing.searches)
  rw [Tracing.timeline]
  have listedAfter : ∀ {eventId mongoMs}, Hit tracing.clock (inMongo tracing.clock eventId
      (Polling.passes (Api.next surround) (fun _ => Tracing.listing surround find)
        (tracing.answered surround limiter) tracing.lists)) (some mongoMs) →
      ∃ question ∈ tracing.lists, mongoMs = question.repliedAt - tracing.clock.started :=
    fun hit => (mongo_hit finds hit).2
  generalize trace tracing.clock _ _ _ = timeline at traced
  cases traced with
  | posting | refused | listing | unlisted =>
      simp [acceptedStep]
  | @searching eventId mongoMs accepted hit | @unsearched eventId _ mongoMs accepted hit =>
      cases mongoMs with
      | none => simp [acceptedStep, mongoStep, hop]
      | some mongoMs =>
          obtain ⟨listed, member, rfl⟩ := listedAfter hit
          simpa [acceptedStep, mongoStep, hop] using pushedListed listed member
  | @finished eventId mongoMs searchMs accepted hit found =>
      cases mongoMs with
      | none =>
          cases searchMs with
          | none => simp [acceptedStep, mongoStep, searchStep, hop]
          | some searchMs =>
              obtain ⟨-, searched, member, rfl⟩ := search_hit found
              simpa [acceptedStep, mongoStep, searchStep, hop] using pushedSearched searched member
      | some mongoMs =>
          obtain ⟨listed, first, rfl⟩ := listedAfter hit
          have early := pushedListed listed first
          cases searchMs with
          | none => simpa [acceptedStep, mongoStep, searchStep, hop] using early
          | some searchMs =>
              obtain ⟨-, searched, second, rfl⟩ := search_hit found
              have late := listedSearched listed first searched second
              simp [acceptedStep, mongoStep, searchStep, hop]
              omega

/-- What the trace shows is so, however the API goes on meanwhile and whatever is lost on the way.  An id is
that of an event which was made from the body of the trace; when its step for MongoDB is done, MongoDB has
its document, and when that for the search is done, both stores have; when the step for MongoDB timed out,
each listing that was asked for came while it was not stored, or behind fifty others.  The run in the log has
the time of the step; and the steps that are done are in order. -/
theorem the_timeline_is_true (surround : Surround) (limiter : RateLimiter)
    {find : List Document → Filter → List Document} (finds : Finds find) (tracing : Tracing) :
    let timeline := tracing.timeline surround limiter find
    let last := tracing.last surround limiter
    (∀ eventId, timeline.eventId = some eventId → ∃ event, event.eventId = eventId ∧
      MadeFrom surround (some (traceBody tracing.marker)) event ∧
      (∀ ms, mongoStep (some ms) ∈ timeline.steps →
        System.Documents surround.setup last.system eventId event .mongodb) ∧
      (∀ ms, searchStep (some ms) ∈ timeline.steps →
        ∀ sink, System.Documents surround.setup last.system eventId event sink) ∧
      (mongoStep none ∈ timeline.steps → Overlooked surround limiter tracing eventId)) ∧
    timeline.runs.map Run.drainMs = (labelled "In MongoDB" timeline).map (fun step =>
      if step.state = .done then some (step.atMs : ℚ) else none) ∧
    ((readings tracing).Pairwise (· ≤ ·) →
      (timeline.steps.filter fun step => step.state = .done).Pairwise
        fun one two => one.atMs ≤ two.atMs) := by
  intro timeline last
  have traced : Traced tracing.clock (tracing.posted surround limiter) _ _ timeline := traced ..
  refine ⟨fun eventId shown => ?_, ?_, done_in_order finds⟩
  · have accepted := traced.posted_of_shown shown
    obtain ⟨post, found, answer, body⟩ := posted_ok accepted
    have listing := Api.answered_stays surround (Polling.moves tracing.lists) found answer
    have there := Api.answered_stays surround (Polling.moves tracing.searches) listing answer
    have issued := issued_last surround limiter tracing
    obtain ⟨event, listed, rfl, made⟩ :=
      issued.answered post (List.mem_of_getElem? there) eventId answer
    rw [body] at made
    refine ⟨event, rfl, made, fun ms member => ?_, fun ms member sink => ?_, fun member => ?_⟩
    · have here := (mongo_hit finds (traced.hit_of_mongo member shown)).1
      exact issued.documents listed
        (Api.ids_grow (issued_listed surround limiter tracing) _ .mongodb here)
    · have here := (search_hit (traced.hit_of_search member shown)).1
      cases sink with
      | mongodb => exact issued.documents listed (issued.stored_of_indexed here)
      | elasticsearch => exact issued.documents listed here
    · exact overlooked_of_timedOut finds accepted (traced.hit_of_mongo member shown)
  · rcases traced.mongo with ⟨none, quiet⟩ | ⟨eventId, mongoMs, -, -, -, only, logged⟩
    · rw [none, quiet]
      rfl
    · rw [only, logged]
      cases mongoMs <;> rfl

/-- A trace whose event is written between its questions. -/
def oneTraced : Tracing where
  marker := "trace-1"
  client := "c"
  before := []
  arrivedAt := 0
  loggedAt := 0
  handling := [.handle 0 0 0]
  lost := none
  clock := ⟨0, 2, 2, 2, 60, 0⟩
  lists := [⟨[.worker .start, .worker (.turn 0 none 0 0 0), .worker (.heartbeat 0 0)], 2, .ok (), 4⟩,
    ⟨[.worker (.land 0), .worker (.returned 0)], 29, .ok (), 31⟩]
  searches := [⟨[], 60, .ok [], 62⟩, ⟨[.worker (.land 1)], 87, .ok ["1"], 90⟩]

/-- What MongoDB finds, with the documents of equal timestamps as they were stored. -/
def sortedFind (documents : List Document) (filter : Filter) : List Document :=
  ((documents.map Document.readBack).filter fun document =>
    filter.readBack.Matches document).insertionSort fun one two => two.moment ≤ one.moment

theorem finds_sortedFind : Finds sortedFind := fun _ _ => Paging.answers_insertionSort Document.moment _

theorem the_traced_event_is_in_both_stores :
    ∃ event, event.eventId = "1" ∧ event.userId = "trace-probe" ∧
      ∀ sink, System.Documents Api.oneConsumer.setup
        (oneTraced.last Api.oneConsumer (.create 100 100 10)).system "1" event sink := by
  obtain ⟨told, -, -⟩ :=
    the_timeline_is_true Api.oneConsumer (.create 100 100 10) finds_sortedFind oneTraced
  obtain ⟨event, named, ⟨validatedAt, stampedAt, payload, data, body, validated, made⟩, -, both, -⟩ :=
    told "1" (by with_unfolding_all rfl)
  cases body
  cases validated
  refine ⟨event, named, by rw [made]; rfl, both 90 ?_⟩
  have shown : (oneTraced.timeline Api.oneConsumer (.create 100 100 10) sortedFind).steps =
      [acceptedStep "1" 2, mongoStep (some 31), searchStep (some 90)] := by with_unfolding_all rfl
  rw [shown]
  simp

/-- A step that timed out can show an earlier time than the one before it. -/
theorem a_timeout_can_seem_to_come_first :
    (trace ⟨0, 1, 1, 2, 21002, 0⟩ (some (.ok "1"))
      [⟨2, .ok [Event.fromInput "1" 0 ⟨"pageview", "trace-probe", "https://a.io/", none, []⟩], 21000⟩]
      [⟨21002, .ok [], 36003⟩, ⟨36028, .ok [], 0⟩]).steps.map TraceStep.atMs = [1, 21000, 15000] := by
  decide

end UseTrace

end FeathrEvents
