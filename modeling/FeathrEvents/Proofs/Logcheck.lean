/-
Module: FeathrEvents.Proofs.Logcheck
Purpose: Which output the log harness takes in whole, line by line, and when a line that no parser knows is
  among what it shows.
Trusted boundary: none (fully proved)
Main exports: Digestible, parse_ok_iff, level_mem_of_parse, Keeps, keeps_iff, an_array_crashes, Recognised,
  Surfaced, surfaced_iff, a_traceback_is_hidden
-/
import FeathrEvents.App.Logcheck
import FeathrEvents.Lib.Traversal

open Traversal

namespace FeathrEvents

namespace Logcheck

variable {python : Python}

/-! ### Levels -/

theorem normLevel_mem (raw : String) : normLevel python raw ∈ levels := by
  unfold normLevel
  dsimp only
  split
  · assumption
  · decide

/-- A value of a table of levels, or the fallback. -/
theorem lookup_mem {table : List (String × String)} (known : ∀ entry ∈ table, entry.2 ∈ levels)
    (key : String) : (table.lookup key).getD "UNKNOWN" ∈ levels := by
  cases found : table.lookup key with
  | none => decide
  | some level =>
      obtain ⟨before, after, rfl, -⟩ := List.lookup_eq_some_iff.mp found
      exact known (key, level) (by simp)

/-! ### One line -/

/-- The decoder refuses the line, or gives an object that meets this.  Another value, such as a
list, has no `get`, and the parsers do not ask. -/
def Decodes (python : Python) (line : String) (meets : List (String × Json) → Prop) : Prop :=
  python.loads line = .error .decodeError ∨ ∃ d, python.loads line = .ok (.object d) ∧ meets d

/-- The parser of a service raises nothing on the line.  Those of Redis and of the API go by
patterns and never raise; the other two read JSON. -/
def Digestible (python : Python) : Service → String → Prop
  | .mongo, line =>
      Decodes python line fun d => ∀ t, d.lookup "t" = some t → ∃ members, t = .object members
  | .elasticsearch, line => Decodes python line fun _ => True
  | .redis, _ => True
  | .api, _ => True

theorem parseMongo_ok_iff (line : String) :
    (∃ parsed, parseMongo python line = .ok parsed) ↔ Digestible python .mongo line := by
  simp only [Digestible, Decodes, parseMongo, load]
  cases python.loads line with
  | error failure => cases failure <;> simp [bind, Except.bind, pure, Except.pure]
  | ok value =>
      cases value with
      | object d =>
          -- the method `get` is called on the value of `t`, or on its default
          cases found : d.lookup "t" with
          | none => simp [bind, Except.bind, pure, Except.pure, members, get, found]
          | some t => cases t <;> simp [bind, Except.bind, pure, Except.pure, members, get, found]
      | _ => simp [bind, Except.bind, members]

theorem parseElasticsearch_ok_iff (line : String) :
    (∃ parsed, parseElasticsearch python line = .ok parsed) ↔
      Digestible python .elasticsearch line := by
  simp only [Digestible, Decodes, parseElasticsearch, load]
  cases python.loads line with
  | error failure => cases failure <;> simp [bind, Except.bind, pure, Except.pure]
  | ok value => cases value <;> simp [bind, Except.bind, pure, Except.pure, members]

theorem parseApi_ok (line : String) : ∃ parsed, parseApi python line = .ok parsed := by
  unfold parseApi
  split <;> exact ⟨_, rfl⟩

theorem parse_ok_iff (service : Service) (line : String) :
    (∃ parsed, parse python service line = .ok parsed) ↔ Digestible python service line := by
  cases service with
  | mongo => exact parseMongo_ok_iff line
  | elasticsearch => exact parseElasticsearch_ok_iff line
  | redis => exact iff_of_true ⟨_, rfl⟩ trivial
  | api => exact iff_of_true (parseApi_ok line) trivial

theorem parseMongo_level {line : String} {parsed : Parsed}
    (done : parseMongo python line = .ok (some parsed)) : parsed.level ∈ levels := by
  obtain ⟨value, -, done⟩ := bind_eq_ok.mp done
  cases value with
  | none => cases done
  | some value =>
      obtain ⟨d, -, done⟩ := bind_eq_ok.mp done
      obtain ⟨t, -, done⟩ := bind_eq_ok.mp done
      cases done
      dsimp only
      exact lookup_mem (by decide) _

theorem parseElasticsearch_level {line : String} {parsed : Parsed}
    (done : parseElasticsearch python line = .ok (some parsed)) : parsed.level ∈ levels := by
  obtain ⟨value, -, done⟩ := bind_eq_ok.mp done
  cases value with
  | none => cases done
  | some value =>
      obtain ⟨d, -, done⟩ := bind_eq_ok.mp done
      cases done
      exact normLevel_mem _

theorem parseRedis_level {line : String} {parsed : Parsed}
    (done : parseRedis python line = .ok (some parsed)) : parsed.level ∈ levels := by
  obtain ⟨groups, -, rfl⟩ := Option.map_eq_some_iff.mp (Except.ok.inj done)
  exact lookup_mem (by decide) _

theorem parseApi_level {line : String} {parsed : Parsed}
    (done : parseApi python line = .ok (some parsed)) : parsed.level ∈ levels := by
  unfold parseApi at done
  split at done
  · cases done
    exact normLevel_mem _
  · obtain ⟨groups, -, rfl⟩ := Option.map_eq_some_iff.mp (Except.ok.inj done)
    exact normLevel_mem _

/-- Every level that a parser gives is one of the levels. -/
theorem level_mem_of_parse {service : Service} {line : String} {parsed : Parsed}
    (done : parse python service line = .ok (some parsed)) : parsed.level ∈ levels := by
  cases service with
  | mongo => exact parseMongo_level done
  | elasticsearch => exact parseElasticsearch_level done
  | redis => exact parseRedis_level done
  | api => exact parseApi_level done

theorem record_ok_iff (service : Service) (line : String) :
    (∃ entry, record python service line = .ok entry) ↔ Digestible python service line := by
  rw [← parse_ok_iff, record]
  cases parse python service line with
  | error crash => simp [bind, Except.bind]
  | ok parsed => simp [bind, Except.bind, pure, Except.pure]

theorem record_spec {service : Service} {line : String} {entry : Record}
    (done : record python service line = .ok entry) :
    entry.raw = line ∧ entry.level ∈ levels := by
  unfold record at done
  cases found : parse python service line with
  | error crash =>
      rw [found] at done
      cases done
  | ok parsed =>
      rw [found] at done
      cases done
      refine ⟨rfl, ?_⟩
      cases parsed with
      | none => exact (by decide : "UNKNOWN" ∈ levels)
      | some parsed => exact level_mem_of_parse found

/-! ### All lines -/

/-- The lines that are read of what comes of a service. -/
def Outcome.lines : Outcome → List String
  | .unreadable => []
  | .exited returncode stdout => if returncode ≠ 0 then [] else nonBlank stdout

theorem lines_exited (stdout : String) : (Outcome.exited 0 stdout).lines = nonBlank stdout := by
  simp [Outcome.lines]

theorem collect_eq (service : Service) (outcome : Outcome) :
    collect python service outcome = outcome.lines.mapM (record python service) := by
  cases outcome with
  | unreadable => rfl
  | exited returncode stdout =>
      rw [collect, Outcome.lines]
      split <;> rfl

/-- The collection is one record for each line that is not blank, in order, with a level of the
table, and no exception has cut it short. -/
def Keeps (stdout : String) (collected : Except Crash (List Record)) : Prop :=
  ∃ records, collected = .ok records ∧ records.map Record.raw = nonBlank stdout ∧
    ∀ entry ∈ records, entry.level ∈ levels

/-- The output of a service is taken in line by line exactly when its parser raises on none of them.
One line that it raises on loses all of them, those of the other services too. -/
theorem keeps_iff (python : Python) (service : Service) (stdout : String) :
    Keeps stdout (collect python service (.exited 0 stdout)) ↔
      ∀ line ∈ nonBlank stdout, Digestible python service line := by
  have each : (∀ line ∈ nonBlank stdout, Digestible python service line) ↔
      ∃ records, (nonBlank stdout).mapM (record python service) = .ok records := by
    simp only [mapM_ok_iff, record_ok_iff]
  rw [each, Keeps, collect_eq, lines_exited]
  constructor
  · rintro ⟨records, collected, -, -⟩
    exact ⟨records, collected⟩
  · rintro ⟨records, collected⟩
    refine ⟨records, collected, ?_, ?_⟩
    · rw [map_of_mapM collected (fun line entry done => (record_spec done).1), List.map_id']
    · intro entry member
      obtain ⟨line, -, done⟩ := (mem_of_mapM collected).mp member
      exact (record_spec done).2

/-- What is used of Python for lines in ASCII without times. -/
def ascii (loads : String → Except LoadsError Json) : Python where
  loads := loads
  str _ := ""
  upper text := String.ofList (text.toList.map Char.toUpper)
  strptime _ _ := none
  digit := Char.isDigit
  word char := char.isAlphanum || char = '_'

/-- A decoder that knows the empty list. -/
def emptyList (text : String) : Except LoadsError Json :=
  if text = "[]" then .ok (.array []) else .error .decodeError

/-- A line that is valid JSON but not an object takes the harness down. -/
theorem an_array_crashes :
    ¬ Keeps "[]\n" (collect (ascii emptyList) .mongo (.exited 0 "[]\n")) := by
  have lines : (Outcome.exited 0 "[]\n").lines = ["[]"] := by decide +kernel
  rintro ⟨records, collected, -, -⟩
  rw [collect_eq, lines] at collected
  cases collected

/-! ### What is shown -/

/-- A parser knows the line and its level.  Whatever it does not know gets the level `UNKNOWN`, so
as not to be taken for harmless. -/
def Recognised (python : Python) (service : Service) (line : String) : Prop :=
  ∃ parsed, parse python service line = .ok (some parsed) ∧ parsed.level ≠ "UNKNOWN"

/-- The records without a known level are shown wherever warnings are, and nothing is shown at the level of a
warning only when every record is known and ranks below it. -/
structure Surfaced (records : List Record) : Prop where
  unknown : ∀ level ∈ levels, rank level ≤ rank "WARN" →
    ∀ entry ∈ records, entry.level = "UNKNOWN" → entry ∈ hits level records
  clean : hits "WARN" records = [] →
    ∀ entry ∈ records, entry.level ≠ "UNKNOWN" ∧ rank entry.level < rank "WARN"

theorem surfaced_iff_levels (records : List Record) :
    Surfaced records ↔ ∀ entry ∈ records, entry.level ≠ "UNKNOWN" := by
  constructor
  · intro surfaced entry member unknown
    -- 2 is the rank of `UNKNOWN` and 3 the one of `WARN`
    have shown := surfaced.unknown "WARN" (by decide) le_rfl entry member unknown
    have ranked := of_decide_eq_true (List.mem_filter.mp shown).2
    rw [unknown] at ranked
    exact absurd ranked (by decide)
  · intro known
    constructor
    · intro level _ _ entry member unknown
      exact absurd unknown (known entry member)
    · intro nothing entry member
      refine ⟨known entry member, ?_⟩
      have hidden := List.filter_eq_nil_iff.mp nothing entry member
      simpa using hidden

theorem recognised_iff {service : Service} {line : String} {entry : Record}
    (done : record python service line = .ok entry) :
    Recognised python service line ↔ entry.level ≠ "UNKNOWN" := by
  obtain ⟨parsed, found, done⟩ := bind_eq_ok.mp done
  cases done
  unfold Recognised
  rw [found]
  cases parsed with
  | none =>
      refine iff_of_false ?_ fun known => known rfl
      rintro ⟨parsed, same, -⟩
      cases same
  | some parsed => simp

/-- The records are those of the lines of the services that are wanted. -/
theorem mem_allRecords {run : Service → Outcome} {wanted : List Service} {records : List Record}
    (collected : allRecords python run wanted = .ok records) {entry : Record} :
    entry ∈ records ↔ ∃ service ∈ wanted, ∃ line ∈ (run service).lines,
      record python service line = .ok entry := by
  obtain ⟨parts, done, joined⟩ := bind_eq_ok.mp collected
  cases joined
  rw [List.mem_flatten]
  constructor
  · rintro ⟨part, member, inside⟩
    obtain ⟨service, wanted, collected⟩ := (mem_of_mapM done).mp member
    rw [collect_eq] at collected
    exact ⟨service, wanted, (mem_of_mapM collected).mp inside⟩
  · rintro ⟨service, member, inside⟩
    obtain ⟨part, collected⟩ := mapM_ok_iff.mp ⟨parts, done⟩ service member
    refine ⟨part, (mem_of_mapM done).mpr ⟨service, member, collected⟩, ?_⟩
    rw [collect_eq] at collected
    exact (mem_of_mapM collected).mpr inside

theorem record_of_line {run : Service → Outcome} {wanted : List Service} {records : List Record}
    (collected : allRecords python run wanted = .ok records) {service : Service}
    (member : service ∈ wanted) {line : String} (inside : line ∈ (run service).lines) :
    ∃ entry, record python service line = .ok entry := by
  obtain ⟨parts, done, -⟩ := bind_eq_ok.mp collected
  obtain ⟨part, collected⟩ := mapM_ok_iff.mp ⟨parts, done⟩ service member
  rw [collect_eq] at collected
  exact mapM_ok_iff.mp ⟨part, collected⟩ line inside

/-- Unknown lines are shown wherever warnings are, and a clean verdict means what it says, exactly when there
are no unknown lines. -/
theorem surfaced_iff (python : Python) (run : Service → Outcome) (wanted : List Service)
    (records : List Record) (collected : allRecords python run wanted = .ok records) :
    Surfaced records ↔
      ∀ service ∈ wanted, ∀ line ∈ (run service).lines, Recognised python service line := by
  rw [surfaced_iff_levels]
  constructor
  · intro known service wanted line inside
    obtain ⟨entry, done⟩ := record_of_line collected wanted inside
    have member := (mem_allRecords collected).mpr ⟨service, wanted, line, inside, done⟩
    exact (recognised_iff done).mpr (known entry member)
  · intro recognised entry member
    obtain ⟨service, wanted, line, inside, done⟩ := (mem_allRecords collected).mp member
    exact (recognised_iff done).mp (recognised service wanted line inside)

/-- The log of the API is one line. -/
def printed (line : String) : Service → Outcome := fun _ => .exited 0 (line ++ "\n")

def startup : Record where
  ts := .string ""
  level := "INFO"
  msg := .string "up"
  src := .string "uvicorn"
  service := "api"
  raw := "INFO:     up"

theorem a_known_line_is_clean : Surfaced [startup] := by
  have collected : allRecords (ascii emptyList) (printed "INFO:     up") [.api] = .ok [startup] := by
    rfl
  have lines : (printed "INFO:     up" .api).lines = ["INFO:     up"] := by decide +kernel
  refine (surfaced_iff _ _ _ _ collected).mpr ?_
  rintro service member line inside
  obtain rfl := List.mem_singleton.mp member
  have only : line ∈ ["INFO:     up"] := lines ▸ inside
  obtain rfl := List.mem_singleton.mp only
  have parsed : parse (ascii emptyList) .api "INFO:     up" = .ok (some startup.toParsed) := by rfl
  have known : startup.level ≠ "UNKNOWN" := by decide
  exact ⟨startup.toParsed, parsed, known⟩

def traceback : Record where
  ts := .string ""
  level := "UNKNOWN"
  msg := .string "Traceback (most recent call last):"
  src := .string "?"
  service := "api"
  raw := "Traceback (most recent call last):"

/-- A traceback is not shown at the default level, and the stack is declared clean. -/
theorem a_traceback_is_hidden :
    allRecords (ascii emptyList) (printed "Traceback (most recent call last):") [.api] =
        .ok [traceback] ∧
      hits "WARN" [traceback] = [] ∧ ¬ Surfaced [traceback] := by
  refine ⟨by rfl, by rfl, ?_⟩
  rw [surfaced_iff_levels]
  intro known
  exact known traceback (List.mem_singleton_self _) rfl

end Logcheck

end FeathrEvents
