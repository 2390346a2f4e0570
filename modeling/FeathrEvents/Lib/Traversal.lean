/-
Module: FeathrEvents.Lib.Traversal
Purpose: What a computation that may fail gives when it goes on to another one, and when it is run over a
  list: the results one by one, or a failure where one of them fails.
Trusted boundary: none
Main exports: bind_eq_ok, mapM_eq_ok, mapM_ok_iff, mem_of_mapM, map_of_mapM
-/
import Mathlib.Data.List.Basic

namespace Traversal

theorem bind_eq_ok {ε : Type*} {α β : Type _} {x : Except ε α} {next : α → Except ε β} {y : β} :
    x >>= next = .ok y ↔ ∃ a, x = .ok a ∧ next a = .ok y := by
  cases x <;> simp [bind, Except.bind]

variable {α β γ ε : Type*} {f : α → Except ε β}

/-- A traversal succeeds with the results of its function. -/
theorem mapM_eq_ok {xs : List α} {ys : List β} :
    xs.mapM f = .ok ys ↔ xs.map f = ys.map .ok := by
  induction xs generalizing ys with
  | nil => cases ys <;> simp [pure, Except.pure]
  | cons x xs ih =>
      rw [List.mapM_cons, List.map_cons]
      cases first : f x with
      | error failure => cases ys <;> simp [bind, Except.bind]
      | ok y =>
          cases rest : xs.mapM f with
          | error failure => cases ys <;> simp [bind, Except.bind, ← ih, rest]
          | ok values =>
              cases ys <;> simp [bind, Except.bind, pure, Except.pure, ← ih, rest]

theorem mapM_ok_iff {xs : List α} :
    (∃ ys, xs.mapM f = .ok ys) ↔ ∀ x ∈ xs, ∃ y, f x = .ok y := by
  constructor
  · rintro ⟨ys, done⟩ x member
    have result : f x ∈ ys.map .ok := mapM_eq_ok.mp done ▸ List.mem_map_of_mem member
    obtain ⟨y, -, same⟩ := List.mem_map.mp result
    exact ⟨y, same.symm⟩
  · intro each
    induction xs with
    | nil => exact ⟨[], rfl⟩
    | cons x xs ih =>
        obtain ⟨y, first⟩ := each x (List.mem_cons_self ..)
        obtain ⟨ys, rest⟩ := ih fun other member => each other (List.mem_cons_of_mem _ member)
        refine ⟨y :: ys, mapM_eq_ok.mpr ?_⟩
        rw [List.map_cons, List.map_cons, first, mapM_eq_ok.mp rest]

theorem mem_of_mapM {xs : List α} {ys : List β} (done : xs.mapM f = .ok ys) {y : β} :
    y ∈ ys ↔ ∃ x ∈ xs, f x = .ok y := by
  have results := mapM_eq_ok.mp done
  have member : y ∈ ys ↔ Except.ok y ∈ ys.map (Except.ok (ε := ε)) := by simp
  rw [member, ← results, List.mem_map]

/-- What the function keeps of its argument is kept of the whole list. -/
theorem map_of_mapM {xs : List α} {ys : List β} (done : xs.mapM f = .ok ys) {before : α → γ}
    {after : β → γ} (keeps : ∀ x y, f x = .ok y → after y = before x) :
    ys.map after = xs.map before := by
  have results := mapM_eq_ok.mp done
  clear done
  induction xs generalizing ys with
  | nil =>
      cases ys with
      | nil => rfl
      | cons y ys => cases results
  | cons x xs ih =>
      cases ys with
      | nil => cases results
      | cons y ys =>
          obtain ⟨first, rest⟩ := List.cons.inj results
          rw [List.map_cons, List.map_cons, keeps x y first, ih rest]

end Traversal
