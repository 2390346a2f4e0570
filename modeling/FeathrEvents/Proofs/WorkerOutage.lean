/-
Module: FeathrEvents.Proofs.WorkerOutage
Purpose: What an outage costs: while the circuit stays open, every delivery is paid for by a pause.
Trusted boundary: none
Main exports: received, credit, Coherent, coherent_run, StaysOpen, outage_spends_one_delivery_per_pause
-/
import FeathrEvents.Proofs.WorkerCalls

namespace FeathrEvents

open InMemoryEventQueue (Linked)

def Happening.isReceived : Happening → Bool
  | .received .. => true
  | _ => false

/-- The number of messages that the consumers have received. -/
def received (past : List Happening) : ℕ := past.countP Happening.isReceived

@[simp] theorem received_nil : received [] = 0 := rfl

@[simp] theorem received_cons (happening : Happening) (past : List Happening) :
    received (happening :: past) = received past + if happening.isReceived then 1 else 0 :=
  List.countP_cons

@[simp] theorem received_append (first second : List Happening) :
    received (first ++ second) = received first + received second :=
  List.countP_append

@[simp] theorem received_messages (consumer : ℕ) (probe : Bool) (messages : List Message) :
    received (messages.map (.received consumer probe)) = messages.length := by
  rw [received, List.countP_map, List.countP_eq_length]
  exact fun _ _ => rfl

/-- A circuit that is not probing can still let one message through.  A grant uses this up, and only
the next pause gives it back, so that messages and pauses can be counted against each other. -/
def SinkCircuit.credit (circuit : SinkCircuit) : ℕ := if circuit.probing then 0 else 1

namespace System

variable {setup : Setup} {system later : System} {move : Move}

/-- A closed circuit has counted no pause and holds no probe; an open one has counted a pause and
the failures that opened it; and a probe was granted when its pause was over. -/
structure Coherent (setup : Setup) (system : System) : Prop where
  closed : system.sink.openUntil = none → system.sink.probing = false ∧ system.sink.pauses = 0
  spent : system.sink.openUntil ≠ none →
    setup.worker.sink.threshold ≤ system.sink.failures.card ∧ 1 ≤ system.sink.pauses
  due : ∀ openUntil, system.sink.openUntil = some openUntil → system.sink.probing = true →
    openUntil ≤ system.now

theorem coherent_create : Coherent setup System.create where
  closed _ := ⟨rfl, rfl⟩
  spent opened := absurd rfl opened
  due _ opened := nomatch opened

theorem Coherent.keep (coherent : Coherent setup system) (sink : later.sink = system.sink)
    (forward : system.now ≤ later.now) : Coherent setup later where
  closed := sink ▸ coherent.closed
  spent := sink ▸ coherent.spent
  due openUntil opened probing := by
    rw [sink] at opened probing
    exact (coherent.due openUntil opened probing).trans forward

theorem Coherent.abandon (coherent : Coherent setup system)
    (sink : later.sink = system.sink.abandonProbe) : Coherent setup later where
  closed shape := by
    rw [sink] at shape ⊢
    exact ⟨rfl, (coherent.closed shape).2⟩
  spent opened := by
    rw [sink] at opened ⊢
    exact coherent.spent opened
  due _ _ probing := by
    rw [sink] at probing
    cases probing

/-- A failure never closes the circuit, and it opens the circuit with the first pause. -/
theorem Coherent.report (coherent : Coherent setup system) {eventId : String}
    {checkedAt openedAt : ℚ}
    (sink : later.sink = (system.sink.recordFailure setup.worker.sink eventId checkedAt openedAt).2) :
    Coherent setup later := by
  have grows : (system.sink.failures.card : ℤ) ≤
      ((insert eventId system.sink.failures).card : ℕ) := by
    exact_mod_cast Finset.card_le_card (Finset.subset_insert eventId system.sink.failures)
  rcases recordFailure_cases setup.worker.sink eventId checkedAt openedAt system.sink with
    ⟨-, shape⟩ | ⟨-, many, ⟨delay, -, shape⟩ | ⟨-, late, shape⟩⟩
  all_goals rw [shape] at sink
  · refine ⟨?_, ?_, ?_⟩
    all_goals rw [sink]
    · exact fun closed => ⟨rfl, (coherent.closed closed).2⟩
    · exact fun opened => ⟨(coherent.spent opened).1.trans grows, (coherent.spent opened).2⟩
    · exact fun _ _ probing => nomatch probing
  · refine ⟨?_, ?_, ?_⟩
    all_goals rw [sink]
    · exact fun closed => nomatch closed
    · exact fun _ => ⟨many, Nat.succ_pos _⟩
    · exact fun _ _ probing => nomatch probing
  · refine ⟨?_, ?_, ?_⟩
    all_goals rw [sink]
    · -- a closed circuit has counted no pause, and the first one is too short to overflow
      intro closed
      rw [(coherent.closed closed).2] at late
      omega
    · exact fun opened => ⟨many, Nat.succ_pos _⟩
    · exact fun _ _ probing => nomatch probing

/-- What a move can do to the circuit. -/
theorem Moved.sink (moved : Moved setup system move later) :
    later.sink = system.sink ∨ later.sink = system.sink.abandonProbe ∨
    (∃ openUntil, system.sink.openUntil = some openUntil ∧ openUntil ≤ later.now ∧
      later.sink = { system.sink with probing := true }) ∨
    later.sink = system.sink.recordSuccess ∨
    ∃ eventId checkedAt openedAt,
      later.sink = (system.sink.recordFailure setup.worker.sink eventId checkedAt openedAt).2 := by
  cases moved with
  | faulted | found => exact .inr (.inl rfl)
  | @fetched _ _ askedAt _ _ _ _ _ stands ordered asked granted answer =>
      obtain ⟨-, second, third⟩ := ordered
      rcases allowance_cases setup.worker.batchSize askedAt system.sink with
        ⟨-, shape⟩ | ⟨openUntil, opened, past, -, shape⟩ | ⟨-, shape⟩
      all_goals
        rw [asked] at shape
        cases shape
      · exact .inl rfl
      · exact .inr (.inr (.inl ⟨openUntil, opened, past.trans (second.trans third), rfl⟩))
      · exact .inl rfl
  | @landed _ write =>
      obtain ⟨sink, event, landed⟩ := write
      cases sink <;> exact .inl rfl
  | indexed => exact .inr (.inr (.inr (.inl rfl)))
  | overflowed _ _ raised =>
      exact .inr (.inr (.inr (.inr ⟨_, _, _, (congrArg Prod.snd raised).symm⟩)))
  | failed _ _ recorded =>
      exact .inr (.inr (.inr (.inr ⟨_, _, _, (congrArg Prod.snd recorded).symm⟩)))
  | backoffOverflowed _ _ recorded =>
      exact .inr (.inr (.inr (.inr ⟨_, _, _, (congrArg Prod.snd recorded).symm⟩)))
  | _ => exact .inl rfl

theorem Coherent.moved (coherent : Coherent setup system) (moved : Moved setup system move later) :
    Coherent setup later := by
  rcases moved.sink with same | same | ⟨openUntil, opened, past, same⟩ | same |
    ⟨eventId, checkedAt, openedAt, same⟩
  · exact coherent.keep same moved.calls.1
  · exact coherent.abandon same
  · refine ⟨fun closed => ?_, fun _ => ?_, fun again shape _ => ?_⟩
    all_goals rw [same] at *
    · cases opened.symm.trans closed
    · exact coherent.spent (by simp [opened])
    · cases opened.symm.trans shape
      exact past
  · exact ⟨fun _ => by simp [same, SinkCircuit.recordSuccess],
      fun opened => by simp [same, SinkCircuit.recordSuccess] at opened,
      fun _ opened => by simp [same, SinkCircuit.recordSuccess] at opened⟩
  · exact coherent.report same

/-- A circuit that stays open counts one pause more, or none. -/
theorem Moved.pauses (moved : Moved setup system move later) (still : later.sink.isOpen = true) :
    later.sink.pauses = system.sink.pauses ∨ later.sink.pauses = system.sink.pauses + 1 := by
  rcases moved.sink with same | same | ⟨openUntil, opened, past, same⟩ | same |
    ⟨eventId, checkedAt, openedAt, same⟩
  · exact .inl (by rw [same])
  · exact .inl (by rw [same]; rfl)
  · exact .inl (by rw [same])
  · rw [same] at still
    cases still
  · rcases recordFailure_cases setup.worker.sink eventId checkedAt openedAt system.sink with
      ⟨-, shape⟩ | ⟨-, -, ⟨delay, -, shape⟩ | ⟨-, -, shape⟩⟩
    · exact .inl (by rw [same, shape])
    · exact .inr (by rw [same, shape])
    · exact .inr (by rw [same, shape])

theorem credit_le (circuit : SinkCircuit) : circuit.credit ≤ 1 := by
  unfold SinkCircuit.credit
  split <;> decide

/-- A failure that finds the circuit open while a probe is out enters a pause. -/
theorem Coherent.report_paid (coherent : Coherent setup system) {eventId : String}
    {checkedAt openedAt : ℚ} {circuit : SinkCircuit} {result : Except Exn Unit}
    (recorded : system.sink.recordFailure setup.worker.sink eventId checkedAt openedAt =
      (result, circuit)) (opened : system.sink.isOpen = true) (forward : system.now ≤ checkedAt) :
    circuit.credit + system.sink.pauses ≤ system.sink.credit + circuit.pauses := by
  obtain ⟨openUntil, shape⟩ := Option.isSome_iff_exists.mp opened
  have grows : (system.sink.failures.card : ℤ) ≤
      ((insert eventId system.sink.failures).card : ℕ) := by
    exact_mod_cast Finset.card_le_card (Finset.subset_insert eventId system.sink.failures)
  have bounded := credit_le circuit
  rcases recordFailure_cases setup.worker.sink eventId checkedAt openedAt system.sink with
    ⟨ignored, noted⟩ | ⟨-, -, ⟨delay, -, entered⟩ | ⟨-, -, entered⟩⟩
  · rw [recorded] at noted
    cases noted
    have idle : system.sink.probing = false := by
      rw [Bool.eq_false_iff]
      intro probing
      have past := coherent.due openUntil shape probing
      rcases ignored with ⟨again, same, early⟩ | few
      · cases shape.symm.trans same
        exact absurd (past.trans forward) (not_le.mpr early)
      · have many := (coherent.spent (by simp [shape])).1
        omega
    simp [SinkCircuit.credit, idle]
  · rw [recorded] at entered
    cases entered
    dsimp only at bounded ⊢
    omega
  · rw [recorded] at entered
    cases entered
    dsimp only at bounded ⊢
    omega

/-- While the circuit stays open, every message received is paid for: with the credit, which is one
message, or with a pause, which gives the credit back. -/
theorem Moved.paid (moved : Moved setup system move later) (coherent : Coherent setup system)
    (linked : Linked setup.host system.queue) (opened : system.sink.isOpen = true)
    (still : later.sink.isOpen = true) :
    received later.past + later.sink.credit + system.sink.pauses ≤
      received system.past + system.sink.credit + later.sink.pauses := by
  have unspent : later.sink = system.sink → received later.past = received system.past →
      received later.past + later.sink.credit + system.sink.pauses ≤
        received system.past + system.sink.credit + later.sink.pauses :=
    fun sink past => by rw [sink, past]
  have granted : ∀ {askedAt allowance circuit},
      system.sink.allowance setup.worker.batchSize askedAt = (allowance, circuit) →
      allowance ≠ 0 → allowance = 1 ∧ system.sink.probing = false ∧
        circuit = { system.sink with probing := true } := by
    intro askedAt allowance circuit asked positive
    rcases allowance_cases setup.worker.batchSize askedAt system.sink with
      ⟨closed, -⟩ | ⟨openUntil, -, -, idle, shape⟩ | ⟨-, shape⟩
    · simp [SinkCircuit.isOpen, closed] at opened
    · rw [asked] at shape
      cases shape
      exact ⟨rfl, idle, rfl⟩
    · rw [asked] at shape
      cases shape
      exact absurd rfl positive
  cases moved with
  | faulted stands ordered positive =>
      obtain ⟨-, idle, -⟩ := granted rfl positive
      simp [SinkCircuit.credit, SinkCircuit.abandonProbe, withSink, tick, idle]
  | found stands ordered asked positive =>
      obtain ⟨-, idle, -⟩ := granted asked positive
      simp [SinkCircuit.credit, SinkCircuit.abandonProbe, withSink, tick, made,
        Happening.isReceived, idle]
  | fetched stands ordered asked positive answer =>
      obtain ⟨rfl, idle, rfl⟩ := granted asked positive
      have one := InMemoryEventQueue.receive_length linked (by decide) answer
      simp [SinkCircuit.credit, withSink, tick, made, note, put, Happening.isReceived, idle]
      omega
  | @landed _ write =>
      obtain ⟨sink, event, landed⟩ := write
      cases sink <;> exact unspent rfl rfl
  | indexed => cases still
  | overflowed stands ordered raised =>
      have paid := coherent.report_paid raised opened ordered.1
      simp [reported, put, Happening.isReceived]
      omega
  | failed stands ordered recorded =>
      have paid := coherent.report_paid recorded opened ordered.1
      simp [reported, made, put, Happening.isReceived]
      omega
  | backoffOverflowed stands ordered recorded =>
      have paid := coherent.report_paid recorded opened ordered.1
      simp [reported, made, put, Happening.isReceived]
      omega
  | _ => exact unspent rfl (by simp [made, note, begin, put, tick, Happening.isReceived])

theorem coherent_run (setup : Setup) (moves : List Move) :
    Driven setup (run setup moves) ∧ Coherent setup (run setup moves) :=
  Machine.run_invariant (System.next setup)
    (fun system => Driven setup system ∧ Coherent setup system) (fun _ => True)
    ⟨driven_create, coherent_create⟩
    (fun _ move _ ⟨driven, coherent⟩ =>
      ⟨driven.next move, coherent.moved (next_moved driven.linked move)⟩)
    moves fun _ _ => trivial

/-! ### An interval -/

/-- The circuit is open before the moves, after them and all the time between.  This is what an
outage looks like to the consumers. -/
def StaysOpen (setup : Setup) : System → List Move → Prop
  | system, [] => system.sink.isOpen = true
  | system, move :: moves => system.sink.isOpen = true ∧ StaysOpen setup (system.next setup move) moves

instance (setup : Setup) : (system : System) → (moves : List Move) →
    Decidable (StaysOpen setup system moves)
  | _, [] => inferInstanceAs (Decidable (_ = true))
  | system, move :: moves =>
      have : Decidable (StaysOpen setup (system.next setup move) moves) :=
        instDecidableStaysOpen setup (system.next setup move) moves
      inferInstanceAs (Decidable (_ ∧ _))

/-- The number of pauses entered during some moves: the moves that raise `_pauses`, whichever
consumer's report is the cause. -/
def pausesEntered (setup : Setup) (system : System) (moves : List Move) : ℕ :=
  (Machine.visits (System.next setup) system moves).countP fun visit =>
    visit.1.sink.pauses < (visit.1.next setup visit.2).sink.pauses

theorem StaysOpen.head {moves : List Move} (opened : StaysOpen setup system moves) :
    system.sink.isOpen = true := by
  cases moves with
  | nil => exact opened
  | cons => exact opened.1

theorem StaysOpen.visited {moves : List Move} (opened : StaysOpen setup system moves) :
    ∀ visit ∈ Machine.visits (System.next setup) system moves, visit.1.sink.isOpen = true := by
  induction moves generalizing system with
  | nil => simp
  | cons move moves ih =>
      intro visit member
      rcases List.mem_cons.mp member with rfl | later
      · exact opened.1
      · exact ih opened.2 visit later

theorem pausesEntered_cons (move : Move) (moves : List Move) :
    pausesEntered setup system (move :: moves) =
      pausesEntered setup (system.next setup move) moves +
        if system.sink.pauses < (system.next setup move).sink.pauses then 1 else 0 := by
  rw [pausesEntered, Machine.visits, List.countP_cons, pausesEntered]
  simp

/-- The account of an interval: what was received, against the pauses entered. -/
theorem StaysOpen.paid {moves : List Move} (opened : StaysOpen setup system moves)
    (driven : Driven setup system) (coherent : Coherent setup system) :
    let finish := Machine.run (System.next setup) system moves
    finish.sink.pauses = system.sink.pauses + pausesEntered setup system moves ∧
      received finish.past + finish.sink.credit ≤
        received system.past + system.sink.credit + pausesEntered setup system moves := by
  induction moves generalizing system with
  | nil => exact ⟨rfl, le_rfl⟩
  | cons move moves ih =>
      have moved := next_moved driven.linked move
      obtain ⟨first, rest⟩ := opened
      obtain ⟨counted, paid⟩ := ih rest (driven.next move) (coherent.moved moved)
      have step := moved.paid coherent driven.linked first rest.head
      rw [pausesEntered_cons, Machine.run_cons]
      rcases moved.pauses rest.head with same | more
      · rw [same] at counted step ⊢
        rw [if_neg (Nat.lt_irrefl _)]
        dsimp only at counted paid ⊢
        omega
      · rw [more] at counted step ⊢
        rw [if_pos (Nat.lt_succ_self _)]
        dsimp only at counted paid ⊢
        omega

/-- The move that opens the circuit receives nothing and enters the first pause. -/
theorem Moved.opens (moved : Moved setup system move later) (coherent : Coherent setup system)
    (closed : system.sink.isOpen = false) (opened : later.sink.isOpen = true) :
    system.sink.pauses = 0 ∧ later.sink.pauses = 1 ∧ received later.past = received system.past := by
  have unset : system.sink.openUntil = none := by simpa [SinkCircuit.isOpen] using closed
  have none := (coherent.closed unset).2
  have set : later.sink.openUntil ≠ .none := by
    intro shape
    simp [SinkCircuit.isOpen, shape] at opened
  refine ⟨none, ?_, ?_⟩
  · rcases moved.sink with same | same | ⟨openUntil, shape, -⟩ | same |
      ⟨eventId, checkedAt, openedAt, same⟩
    · exact absurd (same ▸ unset) set
    · exact absurd (same ▸ unset) set
    · cases unset.symm.trans shape
    · exact absurd (same ▸ rfl) set
    · rcases recordFailure_cases setup.worker.sink eventId checkedAt openedAt system.sink with
        ⟨-, shape⟩ | ⟨-, -, ⟨delay, -, shape⟩ | ⟨-, -, shape⟩⟩
      all_goals rw [shape] at same
      · exact absurd (same ▸ unset) set
      · rw [same, none]
      · exact absurd (same ▸ unset) set
  · cases moved with
    | @fetched _ _ askedAt _ _ _ _ _ stands ordered asked granted answer =>
        rcases allowance_cases setup.worker.batchSize askedAt system.sink with
          ⟨-, shape⟩ | ⟨openUntil, shape, -⟩ | ⟨wasOpen, -⟩
        · rw [asked] at shape
          cases shape
          exact absurd unset set
        · cases unset.symm.trans shape
        · exact absurd unset wasOpen
    | @landed _ write =>
        obtain ⟨sink, event, landed⟩ := write
        cases sink <;> rfl
    | _ => simp [made, note, begin, put, tick, withSink, reported, Happening.isReceived]

/-- What a move of an interval receives: one message at most, through a `receive` that asks for one,
after the pause is over. -/
theorem Moved.receives (moved : Moved setup system move later)
    (linked : Linked setup.host system.queue) (opened : system.sink.isOpen = true) :
    received later.past ≤ received system.past + 1 ∧
      ∀ consumer maxN visibilityTimeout sweptAt now,
        callsBy later.past = callsBy system.past ++
          [(consumer, .receive maxN visibilityTimeout sweptAt now)] →
        maxN = 1 ∧ ∃ openUntil, system.sink.openUntil = some openUntil ∧ openUntil ≤ sweptAt := by
  have granted : ∀ {askedAt allowance circuit},
      system.sink.allowance setup.worker.batchSize askedAt = (allowance, circuit) →
      allowance ≠ 0 → allowance = 1 ∧
        ∃ openUntil, system.sink.openUntil = some openUntil ∧ openUntil ≤ askedAt := by
    intro askedAt allowance circuit asked positive
    rcases allowance_cases setup.worker.batchSize askedAt system.sink with
      ⟨closed, -⟩ | ⟨openUntil, shape, past, -, granted⟩ | ⟨-, denied⟩
    · simp [SinkCircuit.isOpen, closed] at opened
    · rw [asked] at granted
      cases granted
      exact ⟨rfl, openUntil, shape, past⟩
    · rw [asked] at denied
      cases denied
      exact absurd rfl positive
  cases moved with
  | found stands ordered asked positive =>
      obtain ⟨rfl, openUntil, shape, past⟩ := granted asked positive
      refine ⟨by simp [made, withSink, tick, Happening.isReceived], ?_⟩
      intro consumer maxN visibilityTimeout sweptAt now call
      simp only [made, withSink, tick, callsBy_append, callsBy_cons, callsBy_nil,
        Happening.call?, Option.toList_some, List.append_nil, List.append_cancel_left_eq] at call
      cases call
      exact ⟨rfl, openUntil, shape, past.trans ordered.2.1⟩
  | fetched stands ordered asked positive answer =>
      obtain ⟨rfl, openUntil, shape, past⟩ := granted asked positive
      have one := InMemoryEventQueue.receive_length linked (by decide) answer
      refine ⟨?_, ?_⟩
      · simp only [made, withSink, tick, note, put, received_append, received_messages,
          received_cons, received_nil, Happening.isReceived, Bool.false_eq_true, if_false]
        omega
      · intro consumer maxN visibilityTimeout sweptAt now call
        simp only [made, withSink, tick, note, put, callsBy_append, callsBy_received, callsBy_cons,
          callsBy_nil, Happening.call?, Option.toList_some, List.append_nil,
          List.append_cancel_left_eq] at call
        cases call
        exact ⟨rfl, openUntil, shape, past.trans ordered.2.1⟩
  | @landed _ write =>
      obtain ⟨sink, event, landed⟩ := write
      cases sink
      all_goals
        refine ⟨Nat.le_succ _, fun consumer maxN visibilityTimeout sweptAt now call => ?_⟩
        simp [System.land] at call
  | _ =>
      refine ⟨by simp [made, note, begin, put, tick, withSink, reported, Happening.isReceived], ?_⟩
      intro consumer maxN visibilityTimeout sweptAt now call
      simp [made, note, begin, put, tick, withSink, reported, Happening.call?] at call

/-- An outage spends at most one new delivery per pause.  In an interval throughout which the circuit
is open, the messages received are at most the pauses that `_pauses` counts at its end; where the
interval begins with the move that opens the circuit, these are the pauses entered in it.  One that
begins later can take in the probe of the pause that was running then, and no more than that; each
`receive` asks for one message, when the pause is over. -/
theorem outage_spends_one_delivery_per_pause (setup : Setup) (before interval : List Move)
    (opened : StaysOpen setup (run setup before) interval) :
    let start := run setup before
    let finish := run setup (before ++ interval)
    received finish.past ≤ received start.past + finish.sink.pauses ∧
    finish.sink.pauses = start.sink.pauses + pausesEntered setup start interval ∧
    received finish.past ≤ received start.past + pausesEntered setup start interval + 1 ∧
    (∀ earlier move, before = earlier ++ [move] → (run setup earlier).sink.isOpen = false →
      received finish.past ≤ received (run setup earlier).past +
        pausesEntered setup (run setup earlier) (move :: interval)) ∧
    ∀ visit ∈ Machine.visits (System.next setup) start interval,
      received (visit.1.next setup visit.2).past ≤ received visit.1.past + 1 ∧
      ∀ consumer maxN visibilityTimeout sweptAt now,
        callsBy (visit.1.next setup visit.2).past = callsBy visit.1.past ++
          [(consumer, .receive maxN visibilityTimeout sweptAt now)] →
        maxN = 1 ∧ ∃ openUntil, visit.1.sink.openUntil = some openUntil ∧ openUntil ≤ sweptAt := by
  intro start finish
  have opened : StaysOpen setup start interval := opened
  obtain ⟨driven, coherent⟩ : Driven setup start ∧ Coherent setup start := coherent_run setup before
  have finished : finish = Machine.run (System.next setup) start interval :=
    Machine.run_append ..
  obtain ⟨counted, paid⟩ := opened.paid driven coherent
  rw [← finished] at counted paid
  obtain ⟨openUntil, shape⟩ := Option.isSome_iff_exists.mp opened.head
  have entered := (coherent.spent (by simp [shape])).2
  have bounded := credit_le start.sink
  refine ⟨by omega, counted, by omega, ?_, ?_⟩
  · rintro earlier move rfl closed
    have moved := next_moved (driven_run setup earlier).linked move
    have next : (run setup earlier).next setup move = start := (run_snoc ..).symm
    rw [next] at moved
    obtain ⟨none, one, same⟩ := moved.opens (coherent_run setup earlier).2 closed opened.head
    rw [pausesEntered_cons, next, none, one, if_pos Nat.zero_lt_one]
    omega
  · intro visit member
    obtain ⟨first, second, -, here⟩ := Machine.mem_visits_split _ member
    have reachedHere : visit.1 = run setup (before ++ first) := here.trans (Machine.run_append ..).symm
    have linked : Linked setup.host visit.1.queue := by
      rw [reachedHere]
      exact (driven_run setup (before ++ first)).linked
    exact (next_moved linked visit.2).receives linked (opened.visited visit member)

/-- One consumer whose circuit opens with the first failure. -/
def oneFailureSetup : Setup :=
  sampleSetup {} { concurrency := 1, circuit := some { threshold := 1 } }

/-- That failure. -/
def oneFailure : List Move :=
  [.send (sampleEvent "a"), .start, .turn 0 none 0 0 0, .heartbeat 0 0, .raised 0 0 0 0]

theorem an_outage_with_one_probe :
    received (run oneFailureSetup (oneFailure ++ [.turn 0 none 40 40 40])).past ≤
      received (run oneFailureSetup oneFailure).past +
        (run oneFailureSetup (oneFailure ++ [.turn 0 none 40 40 40])).sink.pauses :=
  (outage_spends_one_delivery_per_pause oneFailureSetup oneFailure [.turn 0 none 40 40 40]
    (by decide +kernel)).1

/-- An interval that begins after a pause has begun takes in the probe of that pause: one message is
received here and no pause is entered. -/
theorem a_probe_of_an_earlier_pause :
    StaysOpen oneFailureSetup (run oneFailureSetup oneFailure) [.turn 0 none 40 40 40] ∧
      ¬ received (run oneFailureSetup (oneFailure ++ [.turn 0 none 40 40 40])).past ≤
        received (run oneFailureSetup oneFailure).past +
          pausesEntered oneFailureSetup (run oneFailureSetup oneFailure)
            [.turn 0 none 40 40 40] := by
  constructor <;> decide +kernel

end FeathrEvents.System
