/-
Module: FeathrEvents.Lib.Paths
Purpose: Absolute paths as lists of components: joining a directory with a text, resolving `..`, and when
  the result is a direct child of the directory.
Trusted boundary: none
Main exports: components, join, resolve, Name, Directory, Directory.child, folderPart, namePart,
  resolve_join, directChild_iff
-/
import Mathlib.Data.List.TakeWhile

namespace Paths

/-- A component of a path. -/
abbrev Component := List Char

/-- The components that a text names; empty ones and `.` say nothing. -/
def components (text : List Char) : List Component :=
  (text.splitOn '/').filter fun part => part ≠ [] ∧ part ≠ ['.']

/-- A text joined to a directory; an absolute one replaces it. -/
def join (directory : List Component) (text : List Char) : List Component :=
  if text.head? = some '/' then components text else directory ++ components text

/-- One component further, or back. -/
def enter (path : List Component) (part : Component) : List Component :=
  if part = ['.', '.'] then path.dropLast else path ++ [part]

/-- The path with its `..` components resolved. -/
def resolve (path : List Component) : List Component := path.foldl enter []

/-- A component that names an entry of a directory. -/
structure Name where
  chars : Component
  some : chars ≠ []
  notHere : chars ≠ ['.']
  notParent : chars ≠ ['.', '.']
  plain : '/' ∉ chars

/-- A directory under its resolved path, which has no `.`, no `..` and no empty component in it. -/
structure Directory where
  path : List Component
  resolved : resolve path = path

/-- The path is an entry of the directory. -/
def DirectChild (directory : Directory) (path : List Component) : Prop :=
  ∃ name, path = directory.path ++ [name]

/-- A text up to its last slash. -/
def folderPart (text : List Char) : List Char := (text.reverse.dropWhile (· ≠ '/')).reverse

/-- A text after its last slash. -/
def namePart (text : List Char) : List Char := (text.reverse.takeWhile (· ≠ '/')).reverse

variable {directory : List Component} {text name rest : List Char}

/-! ### Resolving -/

theorem resolve_append (path : List Component) {part : Component} (further : part ≠ ['.', '.']) :
    resolve (path ++ [part]) = resolve path ++ [part] := by
  rw [resolve, List.foldl_append, List.foldl_cons, List.foldl_nil, enter, if_neg further, resolve]

def Directory.child (directory : Directory) (name : Name) : Directory where
  path := directory.path ++ [name.chars]
  resolved := by
    rw [resolve_append _ name.notParent, directory.resolved]

/-! ### The parts of a text -/

theorem folderPart_append_namePart
    (text : List Char) : folderPart text ++ namePart text = text := by
  rw [folderPart, namePart, ← List.reverse_append, List.takeWhile_append_dropWhile,
    List.reverse_reverse]

theorem not_mem_namePart (text : List Char) : '/' ∉ namePart text := by
  intro member
  have plain := List.mem_takeWhile_imp (List.mem_reverse.mp member)
  simp at plain

/-- The part up to the last slash ends with that slash. -/
theorem folderPart_cases (text : List Char) :
    folderPart text = [] ∨ ∃ front, folderPart text = front ++ ['/'] := by
  rw [folderPart]
  cases left : text.reverse.dropWhile (· ≠ '/') with
  | nil => exact .inl rfl
  | cons char chars =>
      right
      have slash : char = '/' := by
        have first := List.head?_dropWhile_not (· ≠ '/') text.reverse
        rw [left] at first
        simpa using first
      exact ⟨chars.reverse, by rw [List.reverse_cons, slash]⟩

/-- An ending without slashes belongs to the name. -/
theorem parts_append (text : List Char) (plain : '/' ∉ rest) :
    folderPart (text ++ rest) = folderPart text ∧ namePart (text ++ rest) = namePart text ++ rest := by
  have passed : ∀ char ∈ rest.reverse, decide (char ≠ '/') = true := by
    intro char member
    apply decide_eq_true
    rintro rfl
    exact plain (List.mem_reverse.mp member)
  constructor
  · rw [folderPart, List.reverse_append, List.dropWhile_append_of_pos passed, folderPart]
  · rw [namePart, List.reverse_append, List.takeWhile_append_of_pos passed, List.reverse_append,
      List.reverse_reverse, namePart]

/-! ### Components -/

theorem components_nil : components [] = [] := rfl

theorem components_append_slash (front back : List Char) :
    components (front ++ '/' :: back) = components front ++ components back := by
  rw [components, List.splitOn_append_cons_self, List.filter_append, components, components]

theorem components_name (plain : '/' ∉ name) (some : name ≠ []) (further : name ≠ ['.']) :
    components name = [name] := by
  rw [components, List.splitOn_eq_singleton plain]
  simp [some, further]

/-- The name comes after the components of what is before it. -/
theorem components_folderPart (plain : '/' ∉ name) (some : name ≠ []) (further : name ≠ ['.']) :
    components (folderPart text ++ name) = components (folderPart text) ++ [name] := by
  have own := components_name plain some further
  rcases folderPart_cases text with none | ⟨front, shape⟩
  · rw [none, components_nil, List.nil_append, List.nil_append, own]
  · rw [shape, List.append_assoc, List.singleton_append, components_append_slash,
      components_append_slash, components_nil, List.append_nil, own]

theorem head?_folderPart (plain : '/' ∉ name) :
    (folderPart text ++ name).head? = some '/' ↔ (folderPart text).head? = some '/' := by
  rcases folderPart_cases text with none | ⟨front, shape⟩
  · rw [none, List.nil_append]
    cases name with
    | nil => rfl
    | cons char chars =>
        have other : char ≠ '/' := fun same => plain (same ▸ List.mem_cons_self ..)
        simp [other]
  · cases front with
    | nil => simp [shape]
    | cons char chars => simp [shape]

/-! ### Joining -/

/-- A name under a text is a name in the directory that the text leads to. -/
theorem resolve_join (directory : List Component) (plain : '/' ∉ name) (some : name ≠ [])
    (notHere : name ≠ ['.']) (notParent : name ≠ ['.', '.']) :
    resolve (join directory (folderPart text ++ name)) =
      resolve (join directory (folderPart text)) ++ [name] := by
  rw [← resolve_append _ notParent]
  congr 1
  by_cases absolute : (folderPart text).head? = .some '/'
  · rw [join, join, if_pos absolute, if_pos ((head?_folderPart plain).mpr absolute),
      components_folderPart plain some notHere]
  · have relative := fun other => absolute ((head?_folderPart plain).mp other)
    rw [join, join, if_neg absolute, if_neg relative, components_folderPart plain some notHere,
      List.append_assoc]

/-- A name under a text is an entry of a directory exactly when the text leads back to it. -/
theorem directChild_iff (directory : Directory) (plain : '/' ∉ name) (some : name ≠ [])
    (notHere : name ≠ ['.']) (notParent : name ≠ ['.', '.']) :
    DirectChild directory (resolve (join directory.path (folderPart text ++ name))) ↔
      resolve (join directory.path (folderPart text)) = directory.path := by
  rw [resolve_join directory.path plain some notHere notParent]
  constructor
  · rintro ⟨other, same⟩
    exact (List.append_inj' same rfl).1
  · intro same
    exact ⟨name, by rw [same]⟩

/-- A text without slashes leads nowhere else. -/
theorem resolve_join_folderPart_of_plain (directory : Directory) (plain : '/' ∉ text) :
    resolve (join directory.path (folderPart text)) = directory.path := by
  have none : folderPart text = [] := (parts_append [] plain).1
  rw [none, join, if_neg (by simp), components_nil, List.append_nil, directory.resolved]

end Paths
