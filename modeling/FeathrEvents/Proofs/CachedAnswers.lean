/-
Module: FeathrEvents.Proofs.CachedAnswers
Purpose: What the cache of the live summary can serve: an answer to the same question, computed in the bin in
  which the request arrived or later, whatever Redis fails to do and in whatever order the requests go on.
Trusted boundary: none
Main exports: Decodes, CachedRoute.Coherent, CachedRoute.coherent_run, CachedRoute.undisturbed,
  CachedRoute.cached_answers_are_recent
-/
import FeathrEvents.App.CachedRoute
import FeathrEvents.Lib.Runs
import FeathrEvents.Lib.Traversal

namespace FeathrEvents

open Collections (OrderedDict)

variable {ν : Type}

/-- What is decoded from the text of a summary that was computed is an object, `decode` of it:
`json.loads` undoes `json.dumps` up to what JSON makes of the values. -/
def Decodes (codec : Codec ν) (decode : LiveSummary → OrderedDict String ν)
    (past : List Computation) :
    Prop :=
  ∀ computation ∈ past, codec.dumps computation.summary ≠ "" ∧
    codec.loads (codec.dumps computation.summary) = some (.mapping (decode computation.summary))

/-! ### Slots -/

/-- The slot of a moment is the bin in which it falls. -/
theorem liveSlot_wall {reading : ℤ} {slot : DateTime} (read : liveSlot reading = .ok slot) :
    slot.wall = reading / 2000000 * 2000000 := by
  unfold liveSlot DateTime.minusSeconds at read
  dsimp only at read
  split at read
  · rw [← Except.ok.inj read]
    simp only [DateTime.thisSecond, DateTime.second, liveBinSeconds]
    rw [Int.fmod_eq_emod_of_nonneg _ (by decide)]
    omega
  · cases read

theorem liveSlot_le {first second : ℤ} {one two : DateTime} (forward : first ≤ second)
    (read : liveSlot first = .ok one) (readLater : liveSlot second = .ok two) : one.wall ≤ two.wall := by
  rw [liveSlot_wall read, liveSlot_wall readLater]
  omega

/-- The window of a summary ends with the slot of its clock reading. -/
theorem liveSlot_of_summary {normaliser : Normaliser} {aggregate : Aggregate} {reading : ℤ}
    {eventType : Option String} {summary : LiveSummary}
    (computed : EventQueries.liveSummary normaliser aggregate reading liveWindowSeconds liveBinSeconds
      eventType = .ok summary) : liveSlot reading = .ok summary.last := by
  unfold EventQueries.liveSummary at computed
  simp only [liveBinSeconds] at computed
  obtain ⟨last, read, computed⟩ := Traversal.bind_eq_ok.mp computed
  obtain ⟨since, -, computed⟩ := Traversal.bind_eq_ok.mp computed
  obtain ⟨rows, -, computed⟩ := Traversal.bind_eq_ok.mp computed
  rw [← Except.ok.inj computed]
  exact read

namespace CachedRoute

variable {digest : Digest} {codec : Codec ν} {ttl : ℤ} {normaliser : Normaliser}
  {decode : LiveSummary → OrderedDict String ν} {route later : CachedRoute ν}

/-- What a request asked, when, and in which slot: all that the route goes by when it makes the key
and the summary. -/
def question (route : CachedRoute ν) (index : ℕ) : Option (Option String × ℤ × DateTime) :=
  (route.requests[index]?).map fun request => (request.eventType, request.arrivedAt, request.slot)

/-- The key of a question. -/
def keyOf (digest : Digest) (question : Option String × ℤ × DateTime) : String :=
  liveKey digest question.1 question.2.2

/-- The summary was computed for this question, after it arrived and no later than now, over the
window that the route asks for. -/
def Computed (normaliser : Normaliser) (now : ℤ) (question : Option String × ℤ × DateTime)
    (computation : Computation) : Prop :=
  liveSlot question.2.1 = .ok question.2.2 ∧ question.2.1 ≤ computation.computedAt ∧
    computation.computedAt ≤ now ∧
    EventQueries.liveSummary normaliser computation.aggregate computation.computedAt liveWindowSeconds
      liveBinSeconds question.1 = .ok computation.summary

/-- An answer is an exception of the aggregation or of the clock, or what was computed for the request, or
what was computed for a request with the same key. -/
def Explained (digest : Digest) (ttl : ℤ) (decode : LiveSummary → OrderedDict String ν)
    (route : CachedRoute ν) (index : ℕ) (request : LiveRequest ν)
    (answer : Except RouteError (OrderedDict String (AnswerField ν))) : Prop :=
  (∃ exn, answer = .error (.raised exn)) ∨
  ∃ computation ∈ route.past,
    (computation.request = index ∧ answer = .ok (answered computation.summary.fields false ttl)) ∨
    ((∃ question, route.question computation.request = some question ∧
        keyOf digest question = liveKey digest request.eventType request.slot) ∧
      answer = .ok (answered ((decode computation.summary).items.map fun item =>
        (item.1, .decoded item.2)) true ttl))

/-- What a request says about itself. -/
def Sound (digest : Digest) (ttl : ℤ) (decode : LiveSummary → OrderedDict String ν)
    (route : CachedRoute ν) (index : ℕ) (request : LiveRequest ν) : Prop :=
  request.arrivedAt ≤ route.now ∧
    match request.phase with
    | .reading | .computing => liveSlot request.arrivedAt = .ok request.slot
    | .writing summary => liveSlot request.arrivedAt = .ok request.slot ∧
        ∃ computation ∈ route.past, computation.request = index ∧ computation.summary = summary
    | .done answer => Explained digest ttl decode route index request answer ∧
        ∀ given, answer = .ok given → liveSlot request.arrivedAt = .ok request.slot

/-- What Redis has, what was computed and what the requests say about each other.  Every text in
Redis is that of a computation, under the key of its question. -/
structure Coherent (digest : Digest) (codec : Codec ν) (ttl : ℤ) (normaliser : Normaliser)
    (decode : LiveSummary → OrderedDict String ν) (route : CachedRoute ν) : Prop where
  stored : ∀ key text, route.redis.get? key = some text → ∃ computation ∈ route.past,
    text = codec.dumps computation.summary ∧
      ∃ question, route.question computation.request = some question ∧ key = keyOf digest question
  computed : ∀ computation ∈ route.past, ∃ question,
    route.question computation.request = some question ∧
      Computed normaliser route.now question computation
  sound : ∀ index request, route.requests[index]? = some request →
    Sound digest ttl decode route index request

/-! ### What a move leaves as it was -/

/-- Nothing is taken back. -/
structure Grows (route later : CachedRoute ν) : Prop where
  past : route.past ⊆ later.past
  asked : ∀ index question, route.question index = some question →
    later.question index = some question
  now : route.now ≤ later.now

theorem Computed.mono {now after : ℤ} {question : Option String × ℤ × DateTime}
    {computation : Computation} (forward : now ≤ after)
    (computed : Computed normaliser now question computation) :
    Computed normaliser after question computation :=
  ⟨computed.1, computed.2.1, computed.2.2.1.trans forward, computed.2.2.2⟩

theorem Explained.grown (grows : Grows route later) {index : ℕ} {request : LiveRequest ν}
    {answer : Except RouteError (OrderedDict String (AnswerField ν))}
    (explained : Explained digest ttl decode route index request answer) :
    Explained digest ttl decode later index request answer := by
  rcases explained with raised | ⟨computation, listed, own | ⟨⟨question, asked, same⟩, answer⟩⟩
  · exact .inl raised
  · exact .inr ⟨computation, grows.past listed, .inl own⟩
  · exact .inr ⟨computation, grows.past listed, .inr ⟨⟨question, grows.asked _ _ asked, same⟩, answer⟩⟩

theorem Sound.grown (grows : Grows route later) {index : ℕ} {request : LiveRequest ν}
    (sound : Sound digest ttl decode route index request) :
    Sound digest ttl decode later index request := by
  obtain ⟨arrived, stands⟩ := sound
  refine ⟨arrived.trans grows.now, ?_⟩
  cases phase : request.phase with
  | reading | computing => simpa only [phase] using stands
  | writing summary =>
      simp only [phase] at stands ⊢
      obtain ⟨slot, computation, listed, own⟩ := stands
      exact ⟨slot, computation, grows.past listed, own⟩
  | done answer =>
      simp only [phase] at stands ⊢
      exact ⟨stands.1.grown grows, stands.2⟩

/-- A move that grows the route keeps what it says when what is new is right. -/
theorem Coherent.grown (coherent : Coherent digest codec ttl normaliser decode route)
    (grows : Grows route later)
    (stored : ∀ key text, later.redis.get? key = some text →
      route.redis.get? key = some text ∨ ∃ computation ∈ later.past,
        text = codec.dumps computation.summary ∧
        ∃ question, later.question computation.request = some question ∧ key = keyOf digest question)
    (computed : ∀ computation ∈ later.past, computation ∈ route.past ∨
      ∃ question, later.question computation.request = some question ∧
        Computed normaliser later.now question computation)
    (sound : ∀ index request, later.requests[index]? = some request →
      route.requests[index]? = some request ∨ Sound digest ttl decode later index request) :
    Coherent digest codec ttl normaliser decode later where
  stored key text found := by
    rcases stored key text found with old | new
    · obtain ⟨computation, listed, dumped, question, asked, same⟩ := coherent.stored key text old
      exact ⟨computation, grows.past listed, dumped, question, grows.asked _ _ asked, same⟩
    · exact new
  computed computation listed := by
    rcases computed computation listed with old | new
    · obtain ⟨question, asked, done⟩ := coherent.computed computation old
      exact ⟨question, grows.asked _ _ asked, done.mono grows.now⟩
    · exact new
  sound index request here := by
    rcases sound index request here with old | new
    · exact (coherent.sound index request old).grown grows
    · exact new

theorem question_put {index : ℕ} {request : LiveRequest ν}
    (here : route.requests[index]? = some request) (phase : LivePhase ν) (other : ℕ) :
    (route.put index request phase).question other = route.question other := by
  obtain ⟨inside, rfl⟩ := List.getElem?_eq_some_iff.mp here
  unfold question put
  by_cases same : index = other
  · subst same
    simp [inside]
  · simp [List.getElem?_set_ne same]

/-- After one request has gone on, every request stands where it stood, or is the one that went on. -/
theorem requests_put {index : ℕ} {request : LiveRequest ν} {phase : LivePhase ν} {other : ℕ}
    {found : LiveRequest ν} (there : (route.put index request phase).requests[other]? = some found) :
    route.requests[other]? = some found ∨
      (other = index ∧ found = { request with phase := phase }) := by
  unfold put at there
  by_cases same : index = other
  · subst same
    rw [List.getElem?_set_self' ] at there
    cases shape : route.requests[index]? with
    | none => simp [shape] at there
    | some former =>
        simp only [shape, Option.map_eq_map, Option.map_some, Option.some.injEq] at there
        exact .inr ⟨rfl, there.symm⟩
  · rw [List.getElem?_set_ne same] at there
    exact .inl there

/-! ### The moves -/

/-- A request goes on, and Redis has nothing new but what was computed. -/
theorem Coherent.put (coherent : Coherent digest codec ttl normaliser decode route) {index : ℕ}
    {request : LiveRequest ν} (here : route.requests[index]? = some request) {phase : LivePhase ν}
    (requests : later.requests = (route.put index request phase).requests)
    (redis : ∀ key text, later.redis.get? key = some text → route.redis.get? key = some text ∨
      ∃ computation ∈ route.past, text = codec.dumps computation.summary ∧
        ∃ question, route.question computation.request = some question ∧ key = keyOf digest question)
    (past : route.past ⊆ later.past) (now : route.now ≤ later.now)
    (computed : ∀ computation ∈ later.past, computation ∈ route.past ∨
      ∃ question, route.question computation.request = some question ∧
        Computed normaliser later.now question computation)
    (sound : Sound digest ttl decode later index { request with phase := phase }) :
    Coherent digest codec ttl normaliser decode later := by
  have asked : ∀ other, later.question other = route.question other := by
    intro other
    rw [← question_put here phase other, question, requests]
    rfl
  apply coherent.grown ⟨past, fun other question found => (asked other).trans found, now⟩
  · intro key text found
    refine (redis key text found).imp_right fun new => ?_
    obtain ⟨computation, listed, dumped, question, known, same⟩ := new
    exact ⟨computation, past listed, dumped, question, (asked _).trans known, same⟩
  · intro computation listed
    refine (computed computation listed).imp_right fun new => ?_
    obtain ⟨question, found, done⟩ := new
    exact ⟨question, (asked _).trans found, done⟩
  · intro other found there
    rw [requests] at there
    rcases requests_put there with old | ⟨rfl, rfl⟩
    · exact .inl old
    · exact .inr sound

/-- A request is added, with no effect on the others. -/
theorem Coherent.arrived (coherent : Coherent digest codec ttl normaliser decode route)
    (request : LiveRequest ν) (forward : route.now ≤ request.arrivedAt)
    (sound : Sound digest ttl decode { route with
      now := request.arrivedAt, requests := route.requests ++ [request] } route.requests.length request) :
    Coherent digest codec ttl normaliser decode { route with
      now := request.arrivedAt, requests := route.requests ++ [request] } := by
  refine coherent.grown ⟨List.Subset.refl _, fun other question found => ?_, forward⟩
    (fun key text found => .inl found) (fun computation listed => .inl listed) fun other found there => ?_
  · unfold CachedRoute.question at found ⊢
    cases shape : route.requests[other]? with
    | none => simp [shape] at found
    | some former =>
        obtain ⟨inside, -⟩ := List.getElem?_eq_some_iff.mp shape
        rw [List.getElem?_append_left inside]
        exact found
  · by_cases inside : other < route.requests.length
    · rw [List.getElem?_append_left inside] at there
      exact .inl there
    · have last : other = route.requests.length := by
        have bound := (List.getElem?_eq_some_iff.mp there).1
        rw [List.length_append, List.length_singleton] at bound
        omega
      subst last
      rw [List.getElem?_concat_length, Option.some.injEq] at there
      exact .inr (there ▸ sound)

/-- What is read from Redis was computed for a request with the same key. -/
theorem Coherent.read (coherent : Coherent digest codec ttl normaliser decode route)
    (decodes : Decodes codec decode route.past) {index : ℕ} {request : LiveRequest ν}
    (here : route.requests[index]? = some request) (reads : request.phase = .reading)
    {read : Except Exn (Option String)}
    (given : ∀ raw, read = .ok (some raw) →
      route.redis.get? (liveKey digest request.eventType request.slot) = some raw) :
    Coherent digest codec ttl normaliser decode (route.put index request (afterRead codec ttl read)) := by
  obtain ⟨arrived, slot⟩ := coherent.sound index request here
  simp only [reads] at slot
  refine coherent.put here rfl (fun _ _ found => .inl found) (List.Subset.refl _) le_rfl (fun _ listed => .inl listed) ⟨arrived, ?_⟩
  have missing : StatsCache.get codec.loads read = .none →
      afterRead codec ttl read = .computing := by
    intro got
    simp only [afterRead, got]
  rcases read with exn | none | raw
  · rw [missing rfl]
    exact slot
  · rw [missing rfl]
    exact slot
  · obtain ⟨computation, listed, rfl, question, asked, same⟩ := coherent.stored _ _ (given raw rfl)
    obtain ⟨nonempty, decoded⟩ := decodes computation listed
    have got : StatsCache.get codec.loads (.ok (some (codec.dumps computation.summary))) =
        .mapping (decode computation.summary) := by
      simp only [StatsCache.get, if_neg nonempty, decoded, Option.getD_some]
    simp only [afterRead, got]
    refine ⟨.inr ⟨computation, listed, .inr ⟨⟨question, ?_, same.symm⟩, rfl⟩⟩, fun _ _ => slot⟩
    exact (question_put here _ _).trans asked

theorem Coherent.next (coherent : Coherent digest codec ttl normaliser decode route)
    (decodes : Decodes codec decode route.past) (move : LiveMove) :
    Coherent digest codec ttl normaliser decode (route.next digest codec ttl normaliser move) := by
  unfold CachedRoute.next
  cases move with
  | arrive eventType reading =>
      simp only [step]
      split
      · rename_i forward
        split
        · rename_i slot read
          exact coherent.arrived ⟨eventType, reading, slot, .reading⟩ forward
            ⟨le_rfl, read⟩
        · rename_i exn failed
          exact coherent.arrived ⟨eventType, reading, DateTime.thisSecond reading,
            .done (.error (.raised exn))⟩ forward ⟨le_rfl, .inl ⟨exn, rfl⟩, by simp⟩
      · exact coherent
  | read index fault =>
      simp only [step]
      split
      · rename_i request here
        split
        · rename_i reads
          apply coherent.read decodes here reads
          intro raw given
          cases fault with
          | some exn => cases given
          | none => exact Except.ok.inj given
        · exact coherent
      · exact coherent
  | compute index aggregate reading =>
      simp only [step]
      split
      · rename_i request here
        split
        · rename_i computes
          split
          · rename_i forward
            obtain ⟨arrived, slot⟩ := coherent.sound index request here
            simp only [computes] at slot
            split
            · rename_i summary done
              have asked : route.question index =
                  some (request.eventType, request.arrivedAt, request.slot) := by
                simp [question, here]
              refine coherent.put here rfl (fun _ _ found => .inl found) (List.subset_append_left ..) forward
                (fun computation listed => ?_) ⟨arrived.trans forward, slot, _,
                  List.mem_append_right _ (List.mem_singleton_self _), rfl, rfl⟩
              rcases List.mem_append.mp listed with old | new
              · exact .inl old
              · cases List.mem_singleton.mp new
                exact .inr ⟨_, asked, slot, arrived.trans forward, le_rfl, done⟩
            · rename_i exn failed
              exact coherent.put here rfl (fun _ _ found => .inl found) (List.Subset.refl _) forward
                (fun _ listed => .inl listed) ⟨arrived.trans forward, .inl ⟨exn, rfl⟩, by simp⟩
          · exact coherent
        · exact coherent
      · exact coherent
  | write index lands fault =>
      simp only [step]
      split
      · rename_i request here
        split
        · rename_i summary writes
          obtain ⟨arrived, slot⟩ := coherent.sound index request here
          simp only [writes] at slot
          obtain ⟨slot, computation, listed, own, rfl⟩ := slot
          have known : route.question computation.request =
              some (request.eventType, request.arrivedAt, request.slot) := by
            simp [question, own, here]
          refine coherent.put here rfl (fun key text found => ?_) (List.Subset.refl _) le_rfl
            (fun _ old => .inl old) ⟨arrived, ?_⟩
          · cases lands with
            | false => exact .inl found
            | true =>
                have found : (route.redis.set (liveKey digest request.eventType request.slot)
                    (codec.dumps computation.summary)).get? key = some text := found
                rw [OrderedDict.get?_set] at found
                split at found
                · rename_i same
                  cases found
                  exact .inr ⟨computation, listed, rfl, _, known, same⟩
                · exact .inl found
          · cases fault <;>
              exact ⟨.inr ⟨computation, listed, .inl ⟨own, rfl⟩⟩, fun _ _ => slot⟩
        · exact coherent
      · exact coherent
  | forget key =>
      refine coherent.grown ⟨List.Subset.refl _, fun _ _ found => found, le_rfl⟩
        (fun other text found => .inl ?_) (fun _ listed => .inl listed) fun _ _ there => .inl there
      have found : (route.redis.erase key).get? other = some text := found
      rw [OrderedDict.get?_erase] at found
      split at found
      · cases found
      · exact found

/-! ### Every run -/

/-- The route after some moves, over a Redis that had none of its keys. -/
def run (digest : Digest) (codec : Codec ν) (ttl : ℤ) (normaliser : Normaliser) (now : ℤ)
    (moves : List LiveMove) : CachedRoute ν :=
  Machine.run (CachedRoute.next digest codec ttl normaliser) (start .empty now) moves

theorem coherent_start (digest : Digest) (codec : Codec ν) (ttl : ℤ) (normaliser : Normaliser)
    (decode : LiveSummary → OrderedDict String ν) (now : ℤ) :
    Coherent digest codec ttl normaliser decode (start .empty now) where
  stored _ _ found := by cases found
  computed _ listed := by cases listed
  sound _ _ here := by cases here

/-- What was computed stays. -/
theorem past_next (route : CachedRoute ν) (move : LiveMove) :
    route.past ⊆ (route.next digest codec ttl normaliser move).past := by
  unfold CachedRoute.next
  cases move <;> simp only [step]
  all_goals repeat' split
  all_goals first
    | exact List.Subset.refl _
    | exact List.subset_append_left ..

theorem coherent_run (digest : Digest) (ttl : ℤ) (normaliser : Normaliser) (now : ℤ)
    (moves : List LiveMove)
    (decodes : Decodes codec decode (run digest codec ttl normaliser now moves).past) :
    Coherent digest codec ttl normaliser decode (run digest codec ttl normaliser now moves) := by
  induction moves using List.reverseRecOn with
  | nil => exact coherent_start digest codec ttl normaliser decode now
  | append_singleton moves move ih =>
      unfold run at decodes ⊢
      rw [Machine.run_snoc] at decodes ⊢
      have before : Decodes codec decode (run digest codec ttl normaliser now moves).past :=
        fun computation listed => decodes computation (past_next _ move listed)
      exact (ih before).next before move

/-- No two questions that were asked have the same key.  The key ends in a digest cut short, and two
types whose digests agree would be given each other's answers. -/
def Distinguishes (digest : Digest) (route : CachedRoute ν) : Prop :=
  ∀ first second one two, route.question first = some one → route.question second = some two →
    keyOf digest one = keyOf digest two → one.1 = two.1 ∧ one.2.2 = two.2.2

/-- An answer was computed for the same question, at most one bin before the request arrived or any time
later, and its window ends no earlier than that of the request. -/
def Recent (normaliser : Normaliser) (request : LiveRequest ν) (computation : Computation) : Prop :=
  EventQueries.liveSummary normaliser computation.aggregate computation.computedAt liveWindowSeconds
      liveBinSeconds request.eventType = .ok computation.summary ∧
    request.arrivedAt < computation.computedAt + liveBinSeconds * 1000000 ∧
    request.slot.wall ≤ computation.summary.last.wall

theorem Computed.recent {now : ℤ} {question : Option String × ℤ × DateTime}
    {computation : Computation}
    (computed : Computed normaliser now question computation) {request : LiveRequest ν}
    (same : question.1 = request.eventType ∧ question.2.2 = request.slot)
    (slot : liveSlot request.arrivedAt = .ok request.slot) : Recent normaliser request computation := by
  obtain ⟨asked, arrived, slotted⟩ := question
  obtain ⟨rfl, rfl⟩ := same
  obtain ⟨read, earlier, -, done⟩ := computed
  refine ⟨done, ?_, liveSlot_le earlier read (liveSlot_of_summary done)⟩
  have own := liveSlot_wall slot
  have other := liveSlot_wall read
  dsimp only at own other earlier
  unfold liveBinSeconds
  omega

/-- Every answer of the live route is recent, cached or not, in every order of the requests and whatever
Redis fails to do or forgets, as long as no two questions share a key and `datetime.now` does not go back;
and the cache ends no request. -/
theorem cached_answers_are_recent (digest : Digest) (codec : Codec ν) (ttl : ℤ)
    (normaliser : Normaliser) {decode : LiveSummary → OrderedDict String ν} (now : ℤ)
    (moves : List LiveMove)
    (decodes : Decodes codec decode (run digest codec ttl normaliser now moves).past)
    (distinct : Distinguishes digest (run digest codec ttl normaliser now moves)) {index : ℕ}
    {request : LiveRequest ν}
    (here : (run digest codec ttl normaliser now moves).requests[index]? = some request) :
    (∀ answer, request.phase = .done (.ok answer) →
      ∃ computation ∈ (run digest codec ttl normaliser now moves).past,
        Recent normaliser request computation ∧
        ((computation.request = index ∧ answer = answered computation.summary.fields false ttl) ∨
          answer = answered ((decode computation.summary).items.map fun item =>
            (item.1, .decoded item.2)) true ttl)) ∧
    ∀ error, request.phase = .done (.error error) → ∃ exn, error = .raised exn := by
  have coherent := coherent_run digest ttl normaliser now moves decodes
  generalize run digest codec ttl normaliser now moves = route at *
  have sound := (coherent.sound index request here).2
  have asked : route.question index = some (request.eventType, request.arrivedAt, request.slot) := by
    simp [question, here]
  refine ⟨fun answer done => ?_, fun error done => ?_⟩
  · simp only [done] at sound
    obtain ⟨explained, slot⟩ := sound
    have slot := slot answer rfl
    rcases explained with ⟨exn, raised⟩ | ⟨computation, listed, ⟨own, same⟩ | ⟨⟨other, known, key⟩, same⟩⟩
    · cases raised
    · obtain ⟨other, known, computed⟩ := coherent.computed computation listed
      rw [own, asked] at known
      cases known
      exact ⟨computation, listed, computed.recent ⟨rfl, rfl⟩ slot, .inl ⟨own, Except.ok.inj same⟩⟩
    · obtain ⟨first, first_known, computed⟩ := coherent.computed computation listed
      cases known.symm.trans first_known
      exact ⟨computation, listed, computed.recent (distinct _ _ _ _ known asked key) slot,
        .inr (Except.ok.inj same)⟩
  · simp only [done] at sound
    rcases sound.1 with ⟨exn, raised⟩ | ⟨computation, -, ⟨-, same⟩ | ⟨-, same⟩⟩
    · exact ⟨exn, Except.error.inj raised⟩
    · cases same
    · cases same

/-- 2025-11-29T08:00:00. -/
def eightOClock : DateTime := ⟨63900000000000000, none⟩

/-- The key of a request without a type at eight o'clock. -/
def sampleDigest : Digest where
  dumps params :=
    if params = [("slot", .moment eightOClock), ("view", .text "live")] then
      "\x7b\"slot\": \"2025-11-29T08:00:00\", \"view\": \"live\"\x7d"
    else ""
  hexdigest text :=
    if text = "\x7b\"slot\": \"2025-11-29T08:00:00\", \"view\": \"live\"\x7d" then "3427a87072d4420d"
    else "e3b0c44298fc1c14"

/-- The summary of an empty collection at eight o'clock. -/
def emptySummary : LiveSummary :=
  ⟨⟨63899999700000000, none⟩, eightOClock, liveWindowSeconds, liveBinSeconds, 0, []⟩

def emptyText : String :=
  "\x7b\"since\": \"2025-11-29T07:55:00\", \"until\": \"2025-11-29T08:00:00\", \"window_seconds\": 300, " ++
    "\"bin_seconds\": 2, \"total\": 0, \"series\": []\x7d"

def emptyDecoded : OrderedDict String Json :=
  (((((OrderedDict.empty.set "since" (.string "2025-11-29T07:55:00")).set
    "until" (.string "2025-11-29T08:00:00")).set "window_seconds" (.number 300)).set
    "bin_seconds" (.number 2)).set "total" (.number 0)).set "series" (.array [])

/-- `json.dumps` of that summary, and `json.loads` of its text. -/
def sampleCodec : Codec Json where
  dumps summary := if summary = emptySummary then emptyText else ""
  loads text := if text = emptyText then some (.mapping emptyDecoded) else none

/-- Two requests in one bin: the second reads what the first wrote. -/
def twoReaders : List LiveMove :=
  [.arrive none 63900000000000000, .read 0 none, .compute 0 noRows 63900000000300000,
    .write 0 true none, .arrive none 63900000001500000, .read 1 none]

theorem the_second_reader_is_served :
    ∃ computation ∈ (run sampleDigest sampleCodec 10 asTyped 63900000000000000 twoReaders).past,
      Recent asTyped ⟨none, 63900000001500000, eightOClock,
        .done (.ok (answered (emptyDecoded.items.map fun item => (item.1, .decoded item.2)) true 10))⟩
        computation := by
  have past : (run sampleDigest sampleCodec 10 asTyped 63900000000000000 twoReaders).past =
      [⟨0, 63900000000300000, noRows, emptySummary⟩] := rfl
  have here : (run sampleDigest sampleCodec 10 asTyped 63900000000000000 twoReaders).requests[1]? =
      some ⟨none, 63900000001500000, eightOClock, .done (.ok (answered
        (emptyDecoded.items.map fun item => (item.1, .decoded item.2)) true 10))⟩ := rfl
  have decodes : Decodes sampleCodec (fun _ => emptyDecoded)
      (run sampleDigest sampleCodec 10 asTyped 63900000000000000 twoReaders).past := by
    rw [past]
    rintro computation listed
    cases List.mem_singleton.mp listed
    exact ⟨by decide, rfl⟩
  have distinct : Distinguishes sampleDigest
      (run sampleDigest sampleCodec 10 asTyped 63900000000000000 twoReaders) := by
    have asked : ∀ index question,
        (run sampleDigest sampleCodec 10 asTyped 63900000000000000 twoReaders).question index =
          some question → question.1 = none ∧ question.2.2 = eightOClock := by
      rintro (_ | _ | index) question found
      · exact Option.some.inj found ▸ ⟨rfl, rfl⟩
      · exact Option.some.inj found ▸ ⟨rfl, rfl⟩
      · cases found
    intro first second one two known other _
    rw [(asked _ _ known).1, (asked _ _ known).2, (asked _ _ other).1, (asked _ _ other).2]
    exact ⟨rfl, rfl⟩
  obtain ⟨computation, listed, recent, -⟩ := (cached_answers_are_recent sampleDigest sampleCodec 10 asTyped
    63900000000000000 twoReaders decodes distinct here).1 _ rfl
  exact ⟨computation, listed, recent⟩

/-! ### The plain route -/

theorem requests_put_self {index : ℕ} (inside : index < route.requests.length)
    (request : LiveRequest ν) (phase : LivePhase ν) :
    (route.put index request phase).requests[index]? = some { request with phase := phase } := by
  simp only [CachedRoute.put, List.getElem?_set_self inside]

/-- A request that is answered stays as it is. -/
theorem step_done {index : ℕ} {request : LiveRequest ν}
    (here : route.requests[index]? = some request)
    {answer : Except RouteError (OrderedDict String (AnswerField ν))} (done : request.phase = .done answer)
    (aggregate : Aggregate) (reading : ℤ) (lands : Bool) (fault : Option Exn) :
    route.next digest codec ttl normaliser (.compute index aggregate reading) = route ∧
      route.next digest codec ttl normaliser (.write index lands fault) = route := by
  simp only [CachedRoute.next, step, here, done, Option.getD_none, and_self]

/-- A request that nothing disturbs is answered as the route is written. -/
theorem undisturbed {index : ℕ} {request : LiveRequest ν}
    (here : route.requests[index]? = some request) (reads : request.phase = .reading)
    (lost : Option Exn) (aggregate : Aggregate) {reading : ℤ} (forward : route.now ≤ reading)
    (lands : Bool) (fault : Option Exn) :
    (Machine.run (CachedRoute.next digest codec ttl normaliser) route
        [.read index lost, .compute index aggregate reading, .write index lands fault]).requests[index]? =
      some { request with phase := .done (statsRealtime codec.loads ttl normaliser aggregate
        (readOf digest route request lost) (attempt fault ()) reading request.eventType) } := by
  obtain ⟨inside, -⟩ := List.getElem?_eq_some_iff.mp here
  have first : route.next digest codec ttl normaliser (.read index lost) =
      route.put index request (afterRead codec ttl (readOf digest route request lost)) := by
    simp only [CachedRoute.next, step, here, reads, Option.getD_some]
  rw [Machine.run_cons, Machine.run_cons, Machine.run_cons, Machine.run_nil, first]
  generalize readOf digest route request lost = read
  unfold statsRealtime afterRead
  -- Each of the three ends of the route: a hit, a hit that is no object, and a summary.
  cases StatsCache.get codec.loads read with
  | mapping hit =>
      have there := requests_put_self inside request
        (.done (.ok (answered (hit.items.map fun item => (item.1, .decoded item.2)) true ttl)))
      rw [(step_done there rfl aggregate reading lands fault).1,
        (step_done there rfl aggregate reading lands fault).2]
      exact there
  | other typeName =>
      have there := requests_put_self inside request (.done (.error (.notAMapping typeName)))
      rw [(step_done there rfl aggregate reading lands fault).1,
        (step_done there rfl aggregate reading lands fault).2]
      exact there
  | none =>
      have there := requests_put_self inside request .computing
      have inside' : index < (route.put index request .computing).requests.length := by
        simpa only [CachedRoute.put, List.length_set] using inside
      have second : (route.put index request .computing).now ≤ reading := forward
      generalize route.put index request .computing = route at there inside' second ⊢
      unfold CachedRoute.next step
      simp only [there, if_pos second]
      cases EventQueries.liveSummary normaliser aggregate reading liveWindowSeconds liveBinSeconds
          request.eventType with
      | error exn =>
          have last := requests_put_self inside' { request with phase := .computing }
            (.done (.error (.raised exn)))
          simp only [Option.getD_some, last, Option.getD_none]
          rfl
      | ok summary =>
          have last := requests_put_self inside' { request with phase := .computing } (.writing summary)
          simp only [Option.getD_some, last]
          refine (requests_put_self ?_ _ _).trans ?_
          · simpa only [CachedRoute.put, List.length_set] using inside'
          · cases fault <;> rfl

end CachedRoute

end FeathrEvents
