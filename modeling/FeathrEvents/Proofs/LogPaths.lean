/-
Module: FeathrEvents.Proofs.LogPaths
Purpose: Where the log files are: in the directory of the day exactly when what a task id says before its
  last slash leads back to that directory.
Trusted boundary: none
Main exports: Opens, Stays, Confined, logFile_directChild_iff, files_log, files_run, confined_iff_stays,
  stays_of_plain
-/
import FeathrEvents.Proofs.LogSinks

namespace FeathrEvents.LogSinks

open Collections (OrderedDict)
open Paths (Directory DirectChild)

/-- The sink of a line is not in the table, and its file can be opened.  A line of any other kind
opens no file, so its task id cannot lead anywhere. -/
def Opens (sinks : LogSinks) (call : Moment × LogCall) : Prop :=
  sinks.loggers.get? (sinkOf call.2.tid) = none ∧ call.1.opening = .opened

instance (sinks : LogSinks) (call : Moment × LogCall) : Decidable (sinks.Opens call) :=
  inferInstanceAs (Decidable (sinks.loggers.get? (sinkOf call.2.tid) = none ∧
    call.1.opening = .opened))

/-- What a sink says before its last slash, if it has one, leads from the directory, or from the root,
back to the directory. -/
def Stays (day : Directory) (sink : String) : Prop :=
  Paths.resolve (Paths.join day.path (Paths.folderPart sink.toList)) = day.path

instance (day : Directory) (sink : String) : Decidable (Stays day sink) :=
  inferInstanceAs (Decidable
    (Paths.resolve (Paths.join day.path (Paths.folderPart sink.toList)) = day.path))

/-- Every file that was opened is an entry of the directory of its day: no task id has led out of
it, and none has made a directory inside it. -/
def Confined (sinks : LogSinks) : Prop := ∀ file ∈ sinks.files, DirectChild file.day file.path

variable {sinks : LogSinks}

/-! ### One file -/

/-- A task id without slashes stays in the directory. -/
theorem stays_of_plain (day : Directory) {sink : String} (plain : '/' ∉ sink.toList) :
    Stays day sink :=
  Paths.resolve_join_folderPart_of_plain day plain

theorem logFile_directChild_iff (day : Directory) (sink : String) :
    DirectChild day (logFile day sink).path ↔ Stays day sink := by
  have suffix : '/' ∉ ".log".toList := by decide
  have split : (sink ++ ".log").toList =
      Paths.folderPart sink.toList ++ (Paths.namePart sink.toList ++ ".log".toList) := by
    rw [String.toList_append, ← List.append_assoc, Paths.folderPart_append_namePart]
  have plain : '/' ∉ Paths.namePart sink.toList ++ ".log".toList := by
    rw [List.mem_append]
    rintro (name | ending)
    · exact Paths.not_mem_namePart _ name
    · exact suffix ending
  -- the suffix makes the last component a name
  have long : 4 ≤ (Paths.namePart sink.toList ++ ".log".toList).length := by
    rw [List.length_append]
    exact Nat.le_add_left ..
  rw [logFile, split]
  apply Paths.directChild_iff day plain <;> intro short <;> rw [short] at long <;>
    exact absurd long (by decide)

/-! ### One line -/

theorem files_closeOldest (items : List (String × Option String)) (sinks : LogSinks) :
    (closeOldest items sinks).files = sinks.files := by
  induction items generalizing sinks with
  | nil => rfl
  | cons item items ih =>
      rw [closeOldest]
      split
      · exact (ih _).trans (evicted_files sinks item.2)
      · rfl

/-- The file that a line opens. -/
def openedBy (sinks : LogSinks) (call : Moment × LogCall) : Option LogFile :=
  if sinks.Opens call then some (logFile call.1.day (sinkOf call.2.tid)) else none

theorem files_loggerFor (sinks : LogSinks) (day : Directory) (opening : Opening) (taskId : String) :
    (sinks.loggerFor day opening taskId).2.files = sinks.files ++
      if sinks.loggers.get? (sinkOf taskId) = none ∧ opening = .opened then
        [logFile day (sinkOf taskId)] else [] := by
  cases known : sinks.loggers.get? (sinkOf taskId) with
  | some logger => simp [loggerFor, known]
  | none =>
      cases opening <;> simp [loggerFor, known, files_closeOldest]

/-- A line opens at most one file. -/
theorem files_log (call : Moment × LogCall) :
    (afterLog sinks call).files = sinks.files ++ (openedBy sinks call).toList := by
  have opened := files_loggerFor sinks call.1.day call.1.opening call.2.tid
  have same : (afterLog sinks call).files =
      (sinks.loggerFor call.1.day call.1.opening call.2.tid).2.files := by
    unfold afterLog log
    split <;> rename_i result
    · rw [result]
    · rw [result]
    · rw [result]
      rfl
  rw [same, opened]
  by_cases opens : sinks.loggers.get? (sinkOf call.2.tid) = none ∧ call.1.opening = .opened
  · have own : openedBy sinks call = some (logFile call.1.day (sinkOf call.2.tid)) := if_pos opens
    rw [if_pos opens, own]
    rfl
  · have none : openedBy sinks call = none := if_neg opens
    rw [if_neg opens, none]
    rfl

/-! ### Every run -/

/-- The files of a run are those that its lines opened. -/
theorem files_run (calls : List (Moment × LogCall)) :
    (loggedRun calls).files =
      (Machine.visits afterLog {} calls).filterMap fun visit => openedBy visit.1 visit.2 := by
  induction calls using List.reverseRecOn with
  | nil => rfl
  | append_singleton calls call ih =>
      rw [loggedRun] at ih
      rw [loggedRun, Machine.run_snoc, files_log, Machine.visits_snoc, Machine.filterMap_snoc, ih]

/-- All files of a run are entries of the directory of their day exactly when every line that opened
one has a task id that stays there. -/
theorem confined_iff_stays (calls : List (Moment × LogCall)) :
    Confined (loggedRun calls) ↔ ∀ visit ∈ Machine.visits afterLog {} calls,
      visit.1.Opens visit.2 → Stays visit.2.1.day (sinkOf visit.2.2.tid) := by
  simp only [Confined, files_run, List.mem_filterMap]
  constructor
  · intro confined visit member opens
    rw [← logFile_directChild_iff]
    exact confined (logFile visit.2.1.day (sinkOf visit.2.2.tid))
      ⟨visit, member, by rw [openedBy, if_pos opens]⟩
  · rintro stays file ⟨visit, member, opened⟩
    rw [openedBy] at opened
    split at opened
    · rename_i opens
      rw [← Option.some.inj opened]
      exact (logFile_directChild_iff ..).mpr (stays visit member opens)
    · cases opened

/-! ### A task id that leaves the directory -/

/-- A request whose header names a task two directories up. -/
def escaping : Scope where
  type := .http
  method := some "GET"
  path := some "/events"
  headers := some [("x-agent-task-id".toUTF8, "../../x".toUTF8)]

/-- The first line of that request. -/
def escapingLine : Option (Moment × LogCall) :=
  (prepared sampleTexts escaping).toOption.map fun request =>
    (⟨sampleDay, .opened⟩, AgentLoggerMiddleware.requestLine escaping request)

theorem a_task_id_escapes :
    escapingLine.isSome ∧ ¬ Confined (loggedRun escapingLine.toList) := by
  have file : (loggedRun escapingLine.toList).files = [logFile sampleDay "../../x"] := rfl
  refine ⟨rfl, ?_⟩
  intro confined
  have child := confined (logFile sampleDay "../../x") (by rw [file]; exact List.mem_singleton_self _)
  have leaves : ¬ Stays sampleDay "../../x" := by decide
  exact leaves ((logFile_directChild_iff ..).mp child)

end FeathrEvents.LogSinks
