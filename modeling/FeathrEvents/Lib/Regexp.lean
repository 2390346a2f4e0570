/-
Module: FeathrEvents.Lib.Regexp
Purpose: Regular expressions in the syntax of Lucene with the language of each, and what is read from a
  text whose operators are quoted, followed by `.*`: the words that begin with the text.
Trusted boundary: `parse` reads literals, `.`, quoted operators, `*`, `+`, `?`, `|` and groups; a pattern
  with another operator is not read.
Main exports: Regexp, Regexp.language, operators, Reader, Reader.read, parse, quote, read_quote,
  mem_language_beginning, parse_beginning
-/
import Mathlib.Computability.Language

namespace Regexps

/-- A regular expression over characters. -/
inductive Regexp where
  | epsilon
  | char (literal : Char)
  | any
  | seq (first second : Regexp)
  | alt (first second : Regexp)
  | star (inner : Regexp)
deriving DecidableEq

namespace Regexp

/-- The words that an expression matches. -/
def language : Regexp → Language Char
  | epsilon => 1
  | char literal => ({[literal]} : Set (List Char))
  | any => {word : List Char | word.length = 1}
  | seq first second => first.language * second.language
  | alt first second => first.language + second.language
  | star inner => KStar.kstar inner.language

/-- One atom after the other. -/
def concat (atoms : List Regexp) : Regexp := atoms.foldr seq epsilon

end Regexp

open Regexp

/-! ### Reading a pattern -/

/-- The characters that mean something else than themselves. -/
def operators : List Char :=
  ['.', '?', '+', '*', '|', '{', '}', '[', ']', '(', ')', '"', '\\', '#', '@', '&', '<', '>', '~']

/-- The part of a group that was read: the alternatives before the last bar, and the atoms since, the
last one first. -/
structure Frame where
  alternatives : List Regexp := []
  atoms : List Regexp := []

/-- The expression of a whole group.  An alternative without atoms is an error, unless the group is
empty. -/
def Frame.close (frame : Frame) : Option Regexp :=
  match frame.atoms with
  | [] => if frame.alternatives = [] then some epsilon else none
  | atoms => some (frame.alternatives.foldl (fun second first => alt first second)
      (concat atoms.reverse))

def Frame.push (frame : Frame) (atom : Regexp) : Frame :=
  { frame with atoms := atom :: frame.atoms }

/-- The last atom with an operator that follows it. -/
def Frame.repeated (frame : Frame) (operator : Regexp → Regexp) : Option Frame :=
  match frame.atoms with
  | [] => none
  | atom :: atoms => some { frame with atoms := operator atom :: atoms }

/-- What was read of a pattern: the groups that are open, the innermost of them or the pattern itself,
and whether a backslash was read last. -/
structure Reader where
  outer : List Frame := []
  frame : Frame := {}
  quoted : Bool := false

namespace Reader

def push (reader : Reader) (atom : Regexp) : Reader :=
  { reader with frame := reader.frame.push atom, quoted := false }

/-- The end of a group, which becomes an atom of the one around it. -/
def closeGroup (reader : Reader) : Option Reader :=
  match reader.outer with
  | [] => none
  | around :: outer =>
      reader.frame.close.map fun group => { outer := outer, frame := around.push group }

/-- The end of an alternative. -/
def bar (reader : Reader) : Option Reader :=
  match reader.frame.atoms with
  | [] => none
  | atoms =>
      some { reader with
        frame := { alternatives := concat atoms.reverse :: reader.frame.alternatives } }

/-- One character further. -/
def read (reader : Reader) (char : Char) : Option Reader :=
  if reader.quoted then
    if char ∈ operators then some (reader.push (.char char)) else none
  else
    match char with
    | '\\' => some { reader with quoted := true }
    | '.' => some (reader.push .any)
    | '*' => (reader.frame.repeated star).map fun frame => { reader with frame := frame }
    | '+' => (reader.frame.repeated fun atom => seq atom (star atom)).map fun frame =>
        { reader with frame := frame }
    | '?' => (reader.frame.repeated fun atom => alt atom epsilon).map fun frame =>
        { reader with frame := frame }
    | '|' => reader.bar
    | '(' => some { outer := reader.frame :: reader.outer }
    | ')' => reader.closeGroup
    | char => if char ∈ operators then none else some (reader.push (.char char))

/-- The expression of a whole pattern. -/
def finish (reader : Reader) : Option Regexp :=
  if reader.quoted ∨ reader.outer.length ≠ 0 then none else reader.frame.close

end Reader

/-- The expression that a pattern denotes, `none` when it is malformed. -/
def parse (pattern : List Char) : Option Regexp :=
  (pattern.foldlM Reader.read {}).bind Reader.finish

/-! ### Quoted texts -/

/-- A text with a backslash before each operator. -/
def quote (text : List Char) : List Char :=
  text.flatMap fun char => if char ∈ operators then ['\\', char] else [char]

/-- A character that is no operator is read as itself. -/
theorem read_literal {reader : Reader} (ready : reader.quoted = false) {char : Char}
    (plain : char ∉ operators) : reader.read char = some (reader.push (.char char)) := by
  have other : ∀ operator ∈ operators, char ≠ operator := fun operator member same =>
    plain (same ▸ member)
  unfold Reader.read
  rw [ready]
  split
  · contradiction
  · split <;> first | exact absurd rfl (other _ (by decide)) | exact if_neg plain

/-- A quoted operator is read as itself. -/
theorem read_quoted {reader : Reader} (ready : reader.quoted = false) {char : Char}
    (operator : char ∈ operators) :
    ['\\', char].foldlM Reader.read reader = some (reader.push (.char char)) := by
  have first : reader.read '\\' = some { reader with quoted := true } := by
    rw [Reader.read, ready]
    rfl
  rw [List.foldlM_cons, first]
  simp [Reader.read, operator, Reader.push]

/-- A quoted text is read as its characters, one atom each. -/
theorem read_quote {reader : Reader} (ready : reader.quoted = false) (text : List Char) :
    (quote text).foldlM Reader.read reader =
      some (text.foldl (fun reader char => reader.push (.char char)) reader) := by
  induction text generalizing reader with
  | nil => rfl
  | cons char text ih =>
      have later : (quote text).foldlM Reader.read (reader.push (.char char)) = _ := ih rfl
      rw [List.foldl_cons, ← later]
      by_cases operator : char ∈ operators
      · have shape : quote (char :: text) = ['\\', char] ++ quote text := by
          simp [quote, operator]
        rw [shape, List.foldlM_append, read_quoted ready operator]
        rfl
      · have shape : quote (char :: text) = char :: quote text := by
          simp [quote, operator]
        rw [shape, List.foldlM_cons, read_literal ready operator]
        rfl

/-- The atoms of a reader after some literals. -/
theorem foldl_push (text : List Char) (reader : Reader) (ready : reader.quoted = false) :
    text.foldl (fun reader char => reader.push (.char char)) reader =
      { reader with
        frame := { reader.frame with
          atoms := (text.map Regexp.char).reverse ++ reader.frame.atoms } } := by
  induction text generalizing reader with
  | nil => rfl
  | cons char text ih =>
      rw [List.foldl_cons, ih _ rfl]
      simp [Reader.push, Frame.push, ready]

/-! ### Languages -/

theorem concat_cons (atom : Regexp) (atoms : List Regexp) :
    concat (atom :: atoms) = .seq atom (concat atoms) := rfl

/-- Every word is a repetition of arbitrary characters. -/
theorem mem_language_anything (word : List Char) : word ∈ (Regexp.star .any).language := by
  have parts : word = (word.map fun char => [char]).flatten := by
    induction word with
    | nil => rfl
    | cons char word ih => simpa using ih
  rw [Regexp.language, Language.mem_kstar]
  refine ⟨word.map fun char => [char], parts, ?_⟩
  intro part member
  obtain ⟨char, -, rfl⟩ := List.mem_map.mp member
  exact List.length_singleton

/-- Literals match themselves, and what follows them the rest. -/
theorem mem_language_literals (text : List Char) (rest : List Regexp) (word : List Char) :
    word ∈ (concat (text.map Regexp.char ++ rest)).language ↔
      ∃ tail ∈ (concat rest).language, word = text ++ tail := by
  induction text generalizing word with
  | nil => simp
  | cons char text ih =>
      rw [List.map_cons, List.cons_append, concat_cons, Regexp.language, Language.mem_mul]
      constructor
      · rintro ⟨first, rfl, second, member, rfl⟩
        obtain ⟨tail, matched, rfl⟩ := (ih second).mp member
        exact ⟨tail, matched, rfl⟩
      · rintro ⟨tail, matched, rfl⟩
        exact ⟨[char], rfl, text ++ tail, (ih _).mpr ⟨tail, matched, rfl⟩, rfl⟩

/-- The expression of a text followed by anything. -/
def beginning (text : List Char) : Regexp := concat (text.map Regexp.char ++ [.star .any])

theorem mem_language_beginning (text word : List Char) :
    word ∈ (beginning text).language ↔ text <+: word := by
  have anything : ∀ tail, tail ∈ (concat [.star .any]).language := by
    intro tail
    rw [concat_cons, Regexp.language, Language.mem_mul]
    exact ⟨tail, mem_language_anything tail, [], rfl, List.append_nil tail⟩
  rw [beginning, mem_language_literals]
  constructor
  · rintro ⟨tail, -, rfl⟩
    exact List.prefix_append ..
  · rintro ⟨tail, rfl⟩
    exact ⟨tail, anything tail, rfl⟩

/-- A quoted text with `.*` after it is the expression of the text followed by anything. -/
theorem parse_beginning (text : List Char) :
    parse (quote text ++ ['.', '*']) = some (beginning text) := by
  have start : ({} : Reader).quoted = false := rfl
  rw [parse, List.foldlM_append, read_quote start, foldl_push text {} start]
  simp [List.foldlM_cons, Reader.read, Reader.push, Frame.push, Frame.repeated, Reader.finish,
    Frame.close, beginning]

end Regexps
