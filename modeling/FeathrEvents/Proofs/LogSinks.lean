/-
Module: FeathrEvents.Proofs.LogSinks
Purpose: The handlers of the log: at every moment each one ever opened is closed or is the only handler of
  one logger of the table, which is bounded.
Trusted boundary: none
Main exports: Tidy, tidy_closeOldest, tidy_loggerFor, tidy_log, afterLog, loggedRun, tidy_run, HandlesKept,
  no_handle_leaks
-/
import FeathrEvents.App.Observability
import FeathrEvents.Lib.Runs

namespace FeathrEvents

open Collections (OrderedDict)
open Paths (Directory)

namespace LogSinks

/-- The logger of a sink is in the table. -/
def Listed (sinks : LogSinks) (sink logger : String) : Prop :=
  sinks.loggers.get? sink = some (some logger)

/-- Loggers in the table have one handler each, the others have none, no handler belongs to two
loggers, and exactly the attached handlers are open. -/
structure Tidy (sinks : LogSinks) : Prop where
  bounded : sinks.loggers.size ≤ maxSinks
  named : ∀ sink logger, sinks.Listed sink logger → logger = "agent." ++ sink
  single : ∀ sink logger, sinks.Listed sink logger → ∃ handler, sinks.handlersOf logger = [handler]
  bare : ∀ logger, (∀ sink, ¬ sinks.Listed sink logger) → sinks.handlersOf logger = []
  apart : ∀ first second handler, handler ∈ sinks.handlersOf first →
    handler ∈ sinks.handlersOf second → first = second
  known : ∀ logger handler, handler ∈ sinks.handlersOf logger →
    handler < sinks.files.length ∧ handler ∉ sinks.closed
  past : ∀ handler ∈ sinks.closed, handler < sinks.files.length
  accounted : ∀ handler < sinks.files.length, handler ∈ sinks.closed ∨
    ∃ logger, handler ∈ sinks.handlersOf logger

variable {sinks : LogSinks}

theorem tidy_start : Tidy {} := by
  constructor
  case bounded => exact Nat.zero_le _
  all_goals simp [Listed, handlersOf]

theorem agent_injective {first second : String} (same : "agent." ++ first = "agent." ++ second) :
    first = second := by
  have chars := congrArg String.toList same
  rw [String.toList_append, String.toList_append] at chars
  exact String.toList_injective (List.append_cancel_left chars)

/-- A logger belongs to one sink. -/
theorem Tidy.sink_unique (tidy : Tidy sinks) {first second logger : String}
    (one : sinks.Listed first logger) (two : sinks.Listed second logger) : first = second :=
  agent_injective ((tidy.named first logger one).symm.trans (tidy.named second logger two))

/-- A table that lists the same loggers. -/
theorem Tidy.relisted (tidy : Tidy sinks) {loggers : OrderedDict String (Option String)}
    (bounded : loggers.size ≤ maxSinks)
    (listed : ∀ sink logger, loggers.get? sink = some (some logger) ↔ sinks.Listed sink logger) :
    Tidy { sinks with loggers := loggers } where
  bounded := bounded
  named sink logger here := tidy.named sink logger ((listed sink logger).mp here)
  single sink logger here := tidy.single sink logger ((listed sink logger).mp here)
  bare logger gone := tidy.bare logger fun sink here => gone sink ((listed sink logger).mpr here)
  apart := tidy.apart
  known := tidy.known
  past := tidy.past
  accounted := tidy.accounted

/-! ### Evicting a sink -/

/-- The table without its first sink, whose logger is closed. -/
def evicted (sinks : LogSinks) (logger : Option String) : LogSinks :=
  { sinks with loggers := sinks.loggers.dropFirst 1 }.closeLogger logger

theorem evicted_loggers (sinks : LogSinks) (logger : Option String) :
    (sinks.evicted logger).loggers = sinks.loggers.dropFirst 1 := by
  cases logger <;> rfl

theorem evicted_files (sinks : LogSinks) (logger : Option String) :
    (sinks.evicted logger).files = sinks.files := by
  cases logger <;> rfl

theorem evicted_closed (sinks : LogSinks) (logger : Option String) :
    (sinks.evicted logger).closed = sinks.closed ++ (logger.map sinks.handlersOf).getD [] := by
  cases logger with
  | none => simp [evicted, closeLogger]
  | some logger => rfl

theorem evicted_handlersOf (sinks : LogSinks) (logger : Option String) (other : String) :
    (sinks.evicted logger).handlersOf other =
      if some other = logger then [] else sinks.handlersOf other := by
  cases logger with
  | none => simp [evicted, closeLogger, handlersOf]
  | some logger =>
      simp only [evicted, closeLogger, handlersOf, OrderedDict.get?_set, Option.some.injEq]
      split <;> rfl

theorem held_of_evicted {logger : Option String} {other : String} {handler : ℕ}
    (held : handler ∈ (sinks.evicted logger).handlersOf other) :
    some other ≠ logger ∧ handler ∈ sinks.handlersOf other := by
  rw [evicted_handlersOf] at held
  split at held
  · cases held
  · rename_i different
    exact ⟨different, held⟩

/-- Evicting the least recently used sink keeps order. -/
theorem Tidy.evicted (tidy : Tidy sinks) {sink : String} {logger : Option String}
    {rest : List (String × Option String)} (shape : sinks.loggers.items = (sink, logger) :: rest) :
    Tidy (sinks.evicted logger) := by
  have first : sinks.loggers.get? sink = some logger := by
    rw [OrderedDict.get?_eq_some, shape]
    exact List.mem_cons_self ..
  have listed : ∀ other name, (sinks.evicted logger).Listed other name ↔
      other ≠ sink ∧ sinks.Listed other name := by
    intro other name
    rw [Listed, evicted_loggers, OrderedDict.get?_dropFirst_one shape]
    by_cases same : other = sink <;> simp [same, Listed]
  -- the evicted logger is the one that is no longer in the table
  have remaining : ∀ other name, (sinks.evicted logger).Listed other name → some name ≠ logger := by
    rintro other name here rfl
    obtain ⟨different, before⟩ := (listed other name).mp here
    exact different (tidy.sink_unique before first)
  constructor
  case bounded =>
    have few : sinks.loggers.items.length ≤ maxSinks := tidy.bounded
    rw [evicted_loggers, OrderedDict.size, OrderedDict.dropFirst, List.length_drop]
    omega
  case named =>
    intro other name here
    exact tidy.named other name ((listed other name).mp here).2
  case single =>
    intro other name here
    rw [evicted_handlersOf, if_neg (remaining other name here)]
    exact tidy.single other name ((listed other name).mp here).2
  case bare =>
    intro name gone
    rw [evicted_handlersOf]
    split
    · rfl
    · rename_i different
      apply tidy.bare
      intro other before
      apply gone other
      apply (listed other name).mpr
      refine ⟨?_, before⟩
      rintro rfl
      exact different (Option.some.inj (before.symm.trans first))
  case apart =>
    intro one two handler here there
    exact tidy.apart one two handler (held_of_evicted here).2 (held_of_evicted there).2
  case known =>
    intro name handler here
    obtain ⟨different, before⟩ := held_of_evicted here
    obtain ⟨small, opened⟩ := tidy.known name handler before
    refine ⟨(evicted_files sinks logger).symm ▸ small, ?_⟩
    rw [evicted_closed]
    intro closed
    rcases List.mem_append.mp closed with already | now
    · exact opened already
    · cases logger with
      | none => cases now
      | some logger => exact different (congrArg some (tidy.apart name logger handler before now))
  case past =>
    intro handler closed
    rw [evicted_files]
    rw [evicted_closed] at closed
    rcases List.mem_append.mp closed with before | now
    · exact tidy.past handler before
    · cases logger with
      | none => cases now
      | some logger => exact (tidy.known logger handler now).1
  case accounted =>
    intro handler small
    rw [evicted_files] at small
    rw [evicted_closed]
    rcases tidy.accounted handler small with closed | ⟨name, attached⟩
    · exact .inl (List.mem_append_left _ closed)
    · by_cases own : some name = logger
      · left
        subst own
        exact List.mem_append_right _ attached
      · right
        refine ⟨name, ?_⟩
        rw [evicted_handlersOf, if_neg own]
        exact attached

/-- The loop leaves room for one more sink, and brings none in. -/
theorem tidy_closeOldest {items : List (String × Option String)} (tidy : Tidy sinks)
    (own : sinks.loggers.items = items) :
    Tidy (closeOldest items sinks) ∧ (closeOldest items sinks).loggers.size < maxSinks ∧
      (closeOldest items sinks).files = sinks.files ∧
      ∀ sink, sinks.loggers.get? sink = none →
        (closeOldest items sinks).loggers.get? sink = none := by
  induction items generalizing sinks with
  | nil =>
      refine ⟨tidy, ?_, rfl, fun _ absent => absent⟩
      have none : sinks.loggers.size = 0 := by rw [OrderedDict.size, own, List.length_nil]
      rw [closeOldest, none]
      decide
  | cons item items ih =>
      obtain ⟨sink, logger⟩ := item
      rw [closeOldest]
      split
      · have fewer : (sinks.evicted logger).loggers.items = items := by
          rw [evicted_loggers]
          simp [OrderedDict.dropFirst, own]
        obtain ⟨kept, room, files, absent⟩ := ih (tidy.evicted own) fewer
        refine ⟨kept, room, files.trans (evicted_files sinks logger), ?_⟩
        intro other before
        apply absent
        rw [evicted_loggers, OrderedDict.get?_dropFirst_one own, before]
        split <;> rfl
      · rename_i room
        exact ⟨tidy, not_le.mp room, rfl, fun _ absent => absent⟩

/-! ### A new sink -/

/-- A sink that could not be opened is remembered without a logger. -/
theorem Tidy.disabled (tidy : Tidy sinks) (room : sinks.loggers.size < maxSinks) {sink : String}
    (absent : sinks.loggers.get? sink = none) :
    Tidy { sinks with loggers := sinks.loggers.set sink none } := by
  apply tidy.relisted
  · rw [OrderedDict.size_set_of_get?_eq_none _ absent]
    exact room
  · intro other name
    by_cases same : other = sink <;> simp [Listed, same, absent]

/-- The table with a new sink, whose logger is given a handler. -/
def withSink (sinks : LogSinks) (sink : String) (file : LogFile) : LogSinks :=
  { sinks with
    loggers := sinks.loggers.set sink (some ("agent." ++ sink))
    handlers := sinks.handlers.set ("agent." ++ sink)
      (sinks.handlersOf ("agent." ++ sink) ++ [sinks.files.length])
    files := sinks.files ++ [file] }

theorem withSink_listed (sinks : LogSinks) (sink : String) (file : LogFile) (other name : String) :
    (sinks.withSink sink file).Listed other name ↔
      (other = sink ∧ name = "agent." ++ sink) ∨ (other ≠ sink ∧ sinks.Listed other name) := by
  by_cases same : other = sink
  · simp [withSink, Listed, same, eq_comm]
  · simp [withSink, Listed, same]

theorem withSink_handlersOf (sinks : LogSinks) {sink : String} (file : LogFile)
    (bare : sinks.handlersOf ("agent." ++ sink) = []) (other : String) :
    (sinks.withSink sink file).handlersOf other =
      if other = "agent." ++ sink then [sinks.files.length] else sinks.handlersOf other := by
  rw [withSink, bare, List.nil_append]
  simp only [handlersOf, OrderedDict.get?_set]
  split <;> rfl

theorem held_of_withSink {sink : String} {file : LogFile}
    (bare : sinks.handlersOf ("agent." ++ sink) = []) {other : String} {handler : ℕ}
    (held : handler ∈ (sinks.withSink sink file).handlersOf other) :
    (other = "agent." ++ sink ∧ handler = sinks.files.length) ∨
      (other ≠ "agent." ++ sink ∧ handler ∈ sinks.handlersOf other) := by
  rw [withSink_handlersOf sinks file bare] at held
  split at held
  · rename_i own
    exact .inl ⟨own, List.mem_singleton.mp held⟩
  · rename_i different
    exact .inr ⟨different, held⟩

/-- The logger of a sink that is not in the table has no handlers. -/
theorem Tidy.unattached (tidy : Tidy sinks) {sink : String}
    (absent : sinks.loggers.get? sink = none) :
    sinks.handlersOf ("agent." ++ sink) = [] := by
  apply tidy.bare
  intro other here
  rw [Listed, ← agent_injective (tidy.named other _ here), absent] at here
  cases here

/-- A sink that is opened gets a logger with one new handler. -/
theorem Tidy.opened (tidy : Tidy sinks) (room : sinks.loggers.size < maxSinks) {sink : String}
    (absent : sinks.loggers.get? sink = none) (file : LogFile) : Tidy (sinks.withSink sink file) := by
  have bare := tidy.unattached absent
  have attached := sinks.withSink_handlersOf file bare
  have listed := sinks.withSink_listed sink file
  have size : (sinks.withSink sink file).files.length = sinks.files.length + 1 := List.length_append
  set logger := "agent." ++ sink with logger_eq
  have gone : ∀ other, ¬ sinks.Listed other logger := by
    intro other here
    obtain ⟨handler, own⟩ := tidy.single other logger here
    rw [bare] at own
    cases own
  constructor
  case bounded =>
    change (sinks.loggers.set sink (some logger)).size ≤ maxSinks
    rw [OrderedDict.size_set_of_get?_eq_none _ absent]
    exact room
  case named =>
    intro other name here
    rcases (listed other name).mp here with ⟨rfl, rfl⟩ | ⟨-, before⟩
    · rfl
    · exact tidy.named other name before
  case single =>
    intro other name here
    rw [attached]
    rcases (listed other name).mp here with ⟨-, rfl⟩ | ⟨-, before⟩
    · exact ⟨_, if_pos rfl⟩
    · have different : name ≠ logger := fun same => gone other (same ▸ before)
      rw [if_neg different]
      exact tidy.single other name before
  case bare =>
    intro name unlisted
    have different : name ≠ logger := by
      intro same
      exact unlisted sink ((listed sink name).mpr (.inl ⟨rfl, same⟩))
    rw [attached, if_neg different]
    apply tidy.bare
    intro other before
    apply unlisted other
    apply (listed other name).mpr
    refine .inr ⟨?_, before⟩
    rintro rfl
    rw [Listed, absent] at before
    cases before
  case apart =>
    intro one two handler here there
    rcases held_of_withSink bare here with ⟨own, new⟩ | ⟨-, old⟩ <;>
      rcases held_of_withSink bare there with ⟨also, newer⟩ | ⟨-, older⟩
    · exact own.trans also.symm
    · exact absurd (tidy.known two handler older).1 (by omega)
    · exact absurd (tidy.known one handler old).1 (by omega)
    · exact tidy.apart one two handler old older
  case known =>
    intro name handler here
    rw [size]
    rcases held_of_withSink bare here with ⟨-, rfl⟩ | ⟨-, old⟩
    · exact ⟨Nat.lt_succ_self _, fun closed => Nat.lt_irrefl _ (tidy.past _ closed)⟩
    · obtain ⟨small, opened⟩ := tidy.known name handler old
      exact ⟨Nat.lt_succ_of_lt small, opened⟩
  case past =>
    intro handler closed
    rw [size]
    exact Nat.lt_succ_of_lt (tidy.past handler closed)
  case accounted =>
    intro handler small
    rw [size] at small
    rcases Nat.lt_succ_iff_lt_or_eq.mp small with old | rfl
    · rcases tidy.accounted handler old with closed | ⟨name, before⟩
      · exact .inl closed
      · have different : name ≠ logger := by
          rintro rfl
          rw [bare] at before
          cases before
        refine .inr ⟨name, ?_⟩
        rw [attached, if_neg different]
        exact before
    · refine .inr ⟨logger, ?_⟩
      rw [attached, if_pos rfl]
      exact List.mem_singleton_self _

/-! ### One line -/

/-- A sink that is there is only moved to the end of the table. -/
theorem Tidy.moved (tidy : Tidy sinks) (sink : String) :
    Tidy { sinks with loggers := sinks.loggers.moveToEnd sink } := by
  apply tidy.relisted
  · rw [OrderedDict.size_moveToEnd]
    exact tidy.bounded
  · intro other name
    simp [Listed]

theorem tidy_loggerFor (tidy : Tidy sinks) (day : Directory) (opening : Opening)
    (taskId : String) : Tidy (sinks.loggerFor day opening taskId).2 := by
  cases known : sinks.loggers.get? (sinkOf taskId) with
  | some logger =>
      simp only [loggerFor, known]
      exact tidy.moved _
  | none =>
      obtain ⟨kept, room, -, still⟩ := tidy_closeOldest tidy rfl
      have gone := still _ known
      simp only [loggerFor, known]
      cases opening with
      | valueError => exact kept
      | osError => exact kept.disabled room gone
      | opened => exact kept.opened room gone _

theorem Tidy.emit (tidy : Tidy sinks) (logger : String) (record : LogRecord) :
    Tidy (sinks.emit logger record) :=
  ⟨tidy.bounded, tidy.named, tidy.single, tidy.bare, tidy.apart, tidy.known, tidy.past,
    tidy.accounted⟩

theorem tidy_log (tidy : Tidy sinks) (moment : Moment) (call : LogCall) :
    Tidy (sinks.log moment call).2 := by
  have opened := tidy_loggerFor tidy moment.day moment.opening call.tid
  unfold log
  split <;> rename_i result
  · rw [result] at opened
    exact opened
  · rw [result] at opened
    exact opened
  · rw [result] at opened
    exact opened.emit ..

/-! ### Every run -/

/-- The sinks after a call of `log`. -/
def afterLog (sinks : LogSinks) (call : Moment × LogCall) : LogSinks := (sinks.log call.1 call.2).2

/-- The sinks of a process after a list of calls of `log`. -/
def loggedRun (calls : List (Moment × LogCall)) : LogSinks := Machine.run afterLog {} calls

theorem tidy_run (calls : List (Moment × LogCall)) : Tidy (loggedRun calls) :=
  Machine.run_invariant afterLog Tidy (fun _ => True) tidy_start
    (fun _ call _ tidy => tidy_log tidy call.1 call.2) calls fun _ _ => trivial

/-- The sinks are bounded, and every handler ever opened is closed or is the only handler of exactly one
logger of the table. -/
structure HandlesKept (sinks : LogSinks) : Prop where
  bounded : sinks.loggers.size ≤ maxSinks
  single : ∀ sink logger, sinks.Listed sink logger → ∃ handler, sinks.handlersOf logger = [handler]
  accounted : ∀ handler < sinks.files.length, handler ∉ sinks.closed →
    ∃! sink, ∃ logger, sinks.Listed sink logger ∧ sinks.handlersOf logger = [handler]
  shared : ∀ taskId other, sinkOf (generatedPrefix ++ taskId) = sinkOf (generatedPrefix ++ other)

theorem sinkOf_generated (taskId : String) : sinkOf (generatedPrefix ++ taskId) = sharedSink := by
  have generated : startsWith (generatedPrefix ++ taskId) generatedPrefix = true := by
    rw [startsWith, String.toList_append]
    exact List.isPrefixOf_iff_prefix.mpr (List.prefix_append ..)
  rw [sinkOf, if_pos generated]

theorem Tidy.handlesKept (tidy : Tidy sinks) : HandlesKept sinks where
  bounded := tidy.bounded
  single := tidy.single
  accounted handler small opened := by
    obtain ⟨logger, attached⟩ := (tidy.accounted handler small).resolve_left opened
    have listed : ∃ sink, sinks.Listed sink logger := by
      by_contra gone
      rw [tidy.bare logger (not_exists.mp gone)] at attached
      cases attached
    obtain ⟨sink, here⟩ := listed
    obtain ⟨only, alone⟩ := tidy.single sink logger here
    rw [alone, List.mem_singleton] at attached
    subst attached
    refine ⟨sink, ⟨logger, here, alone⟩, ?_⟩
    rintro other ⟨name, there, held⟩
    have same : name = logger := by
      apply tidy.apart name logger handler
      · rw [held]
        exact List.mem_singleton_self _
      · rw [alone]
        exact List.mem_singleton_self _
    exact tidy.sink_unique (same ▸ there) here
  shared taskId other := by rw [sinkOf_generated, sinkOf_generated]

/-- No sequence of log lines leaks a handle, whatever becomes of the attempts to open a sink: what
was opened is in use or closed, however often a sink is dropped and made again. -/
theorem no_handle_leaks (calls : List (Moment × LogCall)) : HandlesKept (loggedRun calls) :=
  (tidy_run calls).handlesKept

end LogSinks

end FeathrEvents
