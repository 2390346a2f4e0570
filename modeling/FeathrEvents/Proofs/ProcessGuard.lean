/-
Module: FeathrEvents.Proofs.ProcessGuard
Purpose: When the guard against several processes agrees with the parser of the command line: always when the
  last argument that it takes for the option is the last option, and not where it overlooks the one that counts.
Trusted boundary: none (fully proved)
Main exports: Integers, workers, lastFlag, seen, scan_eq, raises_iff, MustRefuse, MustPass, Guards,
  guards_of_plain, not_guards_of_unseen, an_attached_count_passes
-/
import FeathrEvents.App.ProcessGuard

open CommandLine

namespace FeathrEvents

namespace ProcessGuard

/-- The texts that `int` takes for integers.  Of these only three are needed: `"1"` is one, and the
mark for a missing value and the empty text are none. -/
structure Integers where
  int : String → Option ℤ
  one : int "1" = some 1
  question : int "?" = none
  empty : int "" = none

/-- The option as the parsers of the servers have it; which other options take a value is up to them. -/
def workers (takesValue : String → Bool) : Grammar where
  long := "--workers"
  short := "-w"
  takesValue := takesValue
  longPlain := by decide
  shortPlain := by decide

/-! ### What the guard sees -/

/-- The argument is the option, with its value after `=` or in the next argument. -/
def LooksLikeFlag (arg : String) : Prop := (partition arg).1 ∈ flagNames

instance (arg : String) : Decidable (LooksLikeFlag arg) :=
  inferInstanceAs (Decidable ((partition arg).1 ∈ flagNames))

/-- The rest of the arguments from the last one on that looks like the option, wherever it stands.
The guard looks for a word, not for an option. -/
def lastFlag : List String → Option (List String)
  | [] => none
  | arg :: rest => (lastFlag rest).or (if LooksLikeFlag arg then some (arg :: rest) else none)

/-- What the guard reads at an argument. -/
def seen : List String → String
  | [] => "?"
  | arg :: rest => inlineOr (partition arg).2 rest

theorem lastFlag_looks {argv : List String} {found : List String}
    (last : lastFlag argv = some found) :
    ∃ arg rest, found = arg :: rest ∧ LooksLikeFlag arg := by
  induction argv with
  | nil => cases last
  | cons arg rest ih =>
      rw [lastFlag, Option.or_eq_some_iff] at last
      rcases last with later | ⟨-, here⟩
      · exact ih later
      · split at here
        · rename_i looks
          cases here
          exact ⟨arg, rest, rfl, looks⟩
        · cases here

/-- The loop ends with what it reads at the last argument that looks like the option. -/
theorem scan_eq (requested : Option String) (argv : List String) :
    scan requested argv = ((lastFlag argv).map seen).or requested := by
  induction argv generalizing requested with
  | nil => rfl
  | cons arg rest ih =>
      rw [scan, lastFlag]
      dsimp only
      rw [ih]
      cases lastFlag rest with
      | some found => rfl
      | none =>
          by_cases looks : LooksLikeFlag arg
          · have named : (partition arg).1 ∈ flagNames := looks
            rw [if_pos named, if_pos looks]
            rfl
          · have other : (partition arg).1 ∉ flagNames := looks
            rw [if_neg other, if_neg looks]
            rfl

/-- What the guard goes by: the text at the last argument that looks like the option, and the
variable where that is empty or there is none. -/
def reading (argv : List String) (webConcurrency : Option String) : Option String :=
  (((lastFlag argv).map seen).filter (· ≠ "")).or webConcurrency

theorem raises_iff (argv : List String) (webConcurrency : Option String) :
    (∃ message, refuseMultipleProcesses argv webConcurrency = .error message) ↔
      ∃ requested, reading argv webConcurrency = some requested ∧ ¬ Passable requested := by
  unfold refuseMultipleProcesses requestedWorkers
  rw [scan_eq, Option.or_none]
  change _ ↔ ∃ requested, (((lastFlag argv).map seen).filter (· ≠ "")).or webConcurrency =
    some requested ∧ _
  cases (((lastFlag argv).map seen).filter (· ≠ "")).or webConcurrency with
  | none => simp
  | some requested => by_cases passable : Passable requested <;> simp [passable]

/-! ### What the parser sees -/

section Guard

variable (integers : Integers) (takesValue : String → Bool) (argv : List String)
  (webConcurrency : Option String)

/-- The last occurrence of the option, after the name of the program. -/
def lastWorkers : Option (List String) := (workers takesValue).lastOption argv.tail

/-- The text of the effective count of workers: the last occurrence overrides the variable.  This is
what uvicorn goes by. -/
def asked : Option String :=
  match lastWorkers takesValue argv with
  | some found => (workers takesValue).value found
  | none => webConcurrency

/-- Several processes are asked for. -/
def MustRefuse : Prop :=
  ∃ text count, asked takesValue argv webConcurrency = some text ∧ integers.int text = some count ∧
    1 < count

/-- Nothing is asked for, or one process by the option.  These are the ordinary ways to start, and
have to pass. -/
def MustPass : Prop :=
  (lastWorkers takesValue argv = none ∧ webConcurrency = none) ∨
    ∃ found, lastWorkers takesValue argv = some found ∧ (workers takesValue).value found = some "1"

/-- The guard raises where several processes are asked for, and does not where one is.  What it does
with a count of zero, or with one that is no integer, is left open. -/
structure Guards : Prop where
  refuses : MustRefuse integers takesValue argv webConcurrency →
    ∃ message, refuseMultipleProcesses argv webConcurrency = .error message
  passes : MustPass takesValue argv webConcurrency →
    ¬ ∃ message, refuseMultipleProcesses argv webConcurrency = .error message

variable {integers takesValue argv webConcurrency}

/-- An integer above 1 is neither of the texts that pass, nor empty. -/
theorem not_passable_of_int {text : String} {count : ℤ} (int : integers.int text = some count)
    (several : 1 < count) : ¬ Passable text ∧ text ≠ "" := by
  refine ⟨?_, ?_⟩
  · rintro (rfl | rfl)
    · rw [integers.one] at int
      cases int
      exact absurd several (lt_irrefl 1)
    · rw [integers.question] at int
      cases int
  · rintro rfl
    rw [integers.empty] at int
    cases int

/-- Where the parser and the guard look at one argument they read the same, unless it is empty. -/
theorem seen_of_value {found : List String} {text : String} (last : lastFlag argv = some found)
    (given : (workers takesValue).value found = some text) (filled : text ≠ "") :
    seen found = text := by
  obtain ⟨arg, rest, rfl, looks⟩ := lastFlag_looks last
  have named : (partition arg).1 = "--workers" ∨ (partition arg).1 = "-w" := by
    simpa [LooksLikeFlag, flagNames] using looks
  rw [Grammar.value] at given
  rw [seen, inlineOr]
  rcases (workers takesValue).form_of_partition named with ⟨separate, empty⟩ | inline
  · rw [separate] at given
    have next : rest.head? = some text := given
    rw [empty, if_neg (not_not.mpr rfl), next]
    rfl
  · rw [inline] at given
    have same : (partition arg).2 = text := Option.some.inj given
    rw [same, if_pos filled]

/-- Where the last argument that looks like the option is the last option, or there is neither, the guard
goes by the text that counts for the parser. -/
theorem reading_of_asked (plain : lastWorkers takesValue argv = lastFlag argv) {text : String}
    (asks : asked takesValue argv webConcurrency = some text) (filled : text ≠ "") :
    reading argv webConcurrency = some text := by
  cases last : lastFlag argv with
  | none =>
      rw [last] at plain
      have same : webConcurrency = some text := by simpa [asked, plain] using asks
      simp [reading, last, same]
  | some found =>
      rw [last] at plain
      have given : (workers takesValue).value found = some text := by
        simpa [asked, plain] using asks
      simp [reading, last, seen_of_value last given filled, filled]

/-- Where the scan and the parser look at the same argument the guard is right, whatever else stands on
the command line and in the environment.  Elsewhere it goes by an argument that does not count, and is
right only when the two texts happen to ask for the same. -/
theorem guards_of_plain (integers : Integers) (takesValue : String → Bool) (argv : List String)
    (webConcurrency : Option String) (plain : lastWorkers takesValue argv = lastFlag argv) :
    Guards integers takesValue argv webConcurrency := by
  constructor
  · rintro ⟨text, count, asks, int, several⟩
    obtain ⟨impassable, filled⟩ := not_passable_of_int int several
    exact (raises_iff argv webConcurrency).mpr
      ⟨text, reading_of_asked plain asks filled, impassable⟩
  · intro must raised
    obtain ⟨text, read, impassable⟩ := (raises_iff argv webConcurrency).mp raised
    rcases must with ⟨absent, unset⟩ | ⟨found, occurs, one⟩
    · -- neither the option nor the variable is there to be read
      have silent : reading argv webConcurrency = none := by simp [reading, ← plain, absent, unset]
      cases silent.symm.trans read
    · have asks : asked takesValue argv webConcurrency = some "1" := by simpa [asked, occurs] using one
      cases (reading_of_asked plain asks (by decide)).symm.trans read
      exact impassable (.inl rfl)

/-- Where nothing looks like the option to the scan and the variable is unset, several processes pass. -/
theorem not_guards_of_unseen (unseen : lastFlag argv = none)
    (several : MustRefuse integers takesValue argv none) : ¬ Guards integers takesValue argv none := by
  intro guards
  obtain ⟨text, read, -⟩ := (raises_iff argv none).mp (guards.refuses several)
  have silent : reading argv none = none := by simp [reading, unseen]
  cases silent.symm.trans read

end Guard

/-! ### An attached count -/

/-- Integers in decimal digits. -/
def decimal : Integers where
  int text :=
    if text ≠ "" ∧ text.toList.all Char.isDigit then
      some (text.toList.foldl (fun number digit => number * 10 + (digit.toNat - 48 : ℕ)) 0)
    else none
  one := by decide
  question := by decide
  empty := by decide

/-- The guard on `gunicorn --workers 2`, whatever the variable says. -/
theorem two_spelled_out_are_refused :
    ∃ message, refuseMultipleProcesses ["gunicorn", "--workers", "2"] (some "1") = .error message :=
  (guards_of_plain decimal (fun _ => false) ["gunicorn", "--workers", "2"] (some "1")
    (by decide +kernel)).refuses ⟨"2", 2, by decide +kernel, by decide +kernel, by decide⟩

/-- `gunicorn -w2` starts two processes and passes the guard. -/
theorem an_attached_count_passes :
    ¬ Guards decimal (fun _ => false) ["gunicorn", "-w2"] none :=
  not_guards_of_unseen (by decide +kernel)
    ⟨"2", 2, by decide +kernel, by decide +kernel, by decide⟩

end ProcessGuard

end FeathrEvents
