/-
Module: FeathrEvents.Lib.CommandLine
Purpose: What a parser of command lines makes of one option that takes a value: in which forms an argument
  gives it, and where the last one that counts stands.
Trusted boundary: `Grammar` states by hand what such a parser does
Main exports: after, Form, Grammar, Grammar.form, Grammar.lastOption, Grammar.value, partition,
  Grammar.form_of_partition
-/
import Mathlib.Data.List.Basic
import Mathlib.Data.String.Basic

namespace CommandLine

/-- What follows a beginning of a text. -/
def after (start text : String) : Option String :=
  (text.toList.dropPrefix? start.toList).map String.ofList

/-- What an argument is for the option: its name, with its value in the next argument; its name with a
value after `=`; its short name with a value attached; or something else. -/
inductive Form where
  | separate
  | inline (value : String)
  | attached (value : String)
  | other
deriving DecidableEq

/-- The names of the option, without `=`, and which other arguments take the next one as their value. -/
structure Grammar where
  long : String
  short : String
  takesValue : String → Bool
  longPlain : '=' ∉ long.toList
  shortPlain : '=' ∉ short.toList

namespace Grammar

variable (grammar : Grammar)

def form (arg : String) : Form :=
  if arg = grammar.long ∨ arg = grammar.short then .separate
  else
    match after (grammar.long ++ "=") arg, after (grammar.short ++ "=") arg,
        after grammar.short arg with
    | some value, _, _ => .inline value
    | none, some value, _ => .inline value
    | none, none, some value => .attached value
    | none, none, none => .other

/-- The rest of the arguments from the last occurrence of the option on.  Nothing after `--` is an option,
and neither is the value of one. -/
def lastOption : List String → Option (List String)
  | [] => none
  | arg :: rest =>
      if arg = "--" then none
      else
        match grammar.form arg with
        | .separate =>
            match rest with
            | [] => some [arg]
            | value :: rest => (lastOption rest).or (some (arg :: value :: rest))
        | .inline _ => (lastOption rest).or (some (arg :: rest))
        | .attached _ => (lastOption rest).or (some (arg :: rest))
        | .other =>
            if grammar.takesValue arg then
              match rest with
              | [] => none
              | _ :: rest => lastOption rest
            else lastOption rest

/-- The value of the option at the first of the arguments: attached to its name, or the argument
after it. -/
def value : List String → Option String
  | [] => none
  | arg :: rest =>
      match grammar.form arg with
      | .separate => rest.head?
      | .inline value => some value
      | .attached value => some value
      | .other => none

end Grammar

/-! ### Cutting an argument in two -/

/-- `text.partition("=")`, without the separator. -/
def partition (text : String) : String × String :=
  (String.ofList (text.toList.takeWhile (· ≠ '=')),
    String.ofList ((text.toList.dropWhile (· ≠ '=')).drop 1))

theorem after_append (start rest : String) : after start (start ++ rest) = some rest := by
  have cut : (start ++ rest).toList.dropPrefix? start.toList = some rest.toList := by
    rw [List.dropPrefix?_eq_some_iff]
    exact ⟨start.toList, String.toList_append, by simp⟩
  rw [after, cut, Option.map_some, String.ofList_toList]

theorem after_eq_some {start text rest : String} (cut : after start text = some rest) :
    text = start ++ rest := by
  obtain ⟨chars, dropped, rfl⟩ := Option.map_eq_some_iff.mp cut
  obtain ⟨front, split, same⟩ := List.dropPrefix?_eq_some_iff.mp dropped
  apply String.toList_injective
  rw [split, eq_of_beq same, String.toList_append, String.toList_ofList]

/-- What is cut at the first `=`: nothing, or the text. -/
theorem partition_cases (text : String) :
    (text = (partition text).1 ∧ (partition text).2 = "") ∨
      text = (partition text).1 ++ "=" ++ (partition text).2 := by
  have whole := List.takeWhile_append_dropWhile (p := (· ≠ '=')) (l := text.toList)
  unfold partition
  cases rest : text.toList.dropWhile (· ≠ '=') with
  | nil =>
      rw [rest, List.append_nil] at whole
      left
      rw [whole, String.ofList_toList]
      exact ⟨rfl, rfl⟩
  | cons char chars =>
      have cut : char = '=' := by
        have stops := List.head?_dropWhile_not (· ≠ '=') text.toList
        rw [rest] at stops
        simpa using stops
      right
      apply String.toList_injective
      rw [rest, cut] at whole
      simpa using whole.symm

theorem partition_append {name : String} (plain : '=' ∉ name.toList) (rest : String) :
    partition (name ++ "=" ++ rest) = (name, rest) := by
  have passes : ∀ char ∈ name.toList, (char ≠ '=' : Bool) = true := by
    intro char member
    have other : char ≠ '=' := fun same => plain (same ▸ member)
    simpa using other
  have shape : (name ++ "=" ++ rest).toList = name.toList ++ '=' :: rest.toList := by
    simp [String.toList_append]
  unfold partition
  rw [shape, List.takeWhile_append_of_pos passes, List.dropWhile_append_of_pos passes]
  simp

/-- An argument that is cut into a name of the option and a value gives the option, in its next argument or
this value. -/
theorem Grammar.form_of_partition (grammar : Grammar) {arg : String}
    (named : (partition arg).1 = grammar.long ∨ (partition arg).1 = grammar.short) :
    (grammar.form arg = .separate ∧ (partition arg).2 = "") ∨
      grammar.form arg = .inline (partition arg).2 := by
  rcases partition_cases arg with ⟨whole, empty⟩ | split
  · left
    rw [← whole] at named
    exact ⟨if_pos named, empty⟩
  · right
    generalize (partition arg).1 = name at named split
    generalize (partition arg).2 = rest at split
    subst split
    have cut : ¬ (name ++ "=" ++ rest = grammar.long ∨ name ++ "=" ++ rest = grammar.short) := by
      have inside : '=' ∈ (name ++ "=" ++ rest).toList := by simp [String.toList_append]
      rintro (same | same)
      · exact grammar.longPlain (same ▸ inside)
      · exact grammar.shortPlain (same ▸ inside)
    rw [form, if_neg cut]
    rcases named with rfl | rfl
    · rw [after_append]
    · cases long : after (grammar.long ++ "=") (grammar.short ++ "=" ++ rest) with
      | some value =>
          have same := after_eq_some long
          have first := partition_append grammar.shortPlain rest
          rw [same, partition_append grammar.longPlain] at first
          have same_value : value = rest := (Prod.mk.inj first).2
          rw [same_value]
      | none => rw [after_append]

end CommandLine
