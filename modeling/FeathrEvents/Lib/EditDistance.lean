/-
Module: FeathrEvents.Lib.EditDistance
Purpose: The Levenshtein distance of two lists by recursion on their first elements, and as the least number
  of edits, which makes the recursion on their last elements equivalent to it.
Trusted boundary: `levenshtein` states by hand what the distance is
Main exports: levenshtein, Edits, edits_levenshtein, Edits.levenshtein_le, levenshtein_reverse,
  levenshtein_concat
-/
import Mathlib.Order.MinMax

namespace EditDistance

variable {α : Type*}

/-- One list becomes the other with this many deletions, insertions and replacements, made from left
to right in one pass. -/
inductive Edits : List α → List α → ℕ → Prop where
  | nil : Edits [] [] 0
  | keep (x : α) {xs ys : List α} {n : ℕ} (rest : Edits xs ys n) : Edits (x :: xs) (x :: ys) n
  | replace (x y : α) {xs ys : List α} {n : ℕ} (rest : Edits xs ys n) :
      Edits (x :: xs) (y :: ys) (n + 1)
  | delete (x : α) {xs ys : List α} {n : ℕ} (rest : Edits xs ys n) : Edits (x :: xs) ys (n + 1)
  | insert (y : α) {xs ys : List α} {n : ℕ} (rest : Edits xs ys n) : Edits xs (y :: ys) (n + 1)

variable {xs ys : List α} {m n : ℕ}

theorem edits_insert_all (ys : List α) : Edits [] ys ys.length := by
  induction ys with
  | nil => exact .nil
  | cons y ys ih => exact ih.insert y

theorem edits_delete_all (xs : List α) : Edits xs [] xs.length := by
  induction xs with
  | nil => exact .nil
  | cons x xs ih => exact ih.delete x

theorem Edits.append {xs' ys' : List α} (first : Edits xs ys m) (second : Edits xs' ys' n) :
    Edits (xs ++ xs') (ys ++ ys') (m + n) := by
  induction first with
  | nil =>
      rw [Nat.zero_add]
      exact second
  | keep x _ ih => exact ih.keep x
  | replace x y _ ih =>
      rw [Nat.add_right_comm]
      exact ih.replace x y
  | delete x _ ih =>
      rw [Nat.add_right_comm]
      exact ih.delete x
  | insert y _ ih =>
      rw [Nat.add_right_comm]
      exact ih.insert y

/-- Edits can be made from the other end. -/
theorem Edits.reverse (edits : Edits xs ys n) : Edits xs.reverse ys.reverse n := by
  induction edits with
  | nil => exact .nil
  | keep x _ ih =>
      rw [List.reverse_cons, List.reverse_cons]
      exact ih.append (.keep x .nil)
  | replace x y _ ih =>
      rw [List.reverse_cons, List.reverse_cons]
      exact ih.append (.replace x y .nil)
  | @delete x xs ys n _ ih =>
      rw [List.reverse_cons, ← List.append_nil ys.reverse]
      exact ih.append (.delete x .nil)
  | @insert y xs ys n _ ih =>
      rw [List.reverse_cons, ← List.append_nil xs.reverse]
      exact ih.append (.insert y .nil)

/-! ### The distance -/

variable [DecidableEq α]

/-- The Levenshtein distance, by recursion on both words: the fewest insertions, deletions and
replacements of one letter that make the one into the other. -/
def levenshtein : List α → List α → ℕ
  | [], ys => ys.length
  | x :: xs, [] => (x :: xs).length
  | x :: xs, y :: ys =>
      min (levenshtein xs (y :: ys) + 1)
        (min (levenshtein (x :: xs) ys + 1) (levenshtein xs ys + if x = y then 0 else 1))
termination_by xs ys => xs.length + ys.length

@[simp] theorem levenshtein_nil_left (ys : List α) : levenshtein [] ys = ys.length := by
  rw [levenshtein]

@[simp] theorem levenshtein_nil_right (xs : List α) : levenshtein xs [] = xs.length := by
  cases xs <;> rw [levenshtein]

theorem levenshtein_cons (x y : α) (xs ys : List α) :
    levenshtein (x :: xs) (y :: ys) = min (levenshtein xs (y :: ys) + 1)
      (min (levenshtein (x :: xs) ys + 1) (levenshtein xs ys + if x = y then 0 else 1)) := by
  rw [levenshtein]

theorem levenshtein_delete_le (x : α) (xs ys : List α) :
    levenshtein (x :: xs) ys ≤ levenshtein xs ys + 1 := by
  cases ys with
  | nil => simp
  | cons y ys =>
      rw [levenshtein_cons]
      exact min_le_left _ _

theorem levenshtein_insert_le (y : α) (xs ys : List α) :
    levenshtein xs (y :: ys) ≤ levenshtein xs ys + 1 := by
  cases xs with
  | nil => simp
  | cons x xs =>
      rw [levenshtein_cons]
      exact (min_le_right _ _).trans (min_le_left _ _)

theorem levenshtein_replace_le (x y : α) (xs ys : List α) :
    levenshtein (x :: xs) (y :: ys) ≤ levenshtein xs ys + if x = y then 0 else 1 := by
  rw [levenshtein_cons]
  exact (min_le_right _ _).trans (min_le_right _ _)

/-- Every way to edit takes at least as many edits as the distance. -/
theorem Edits.levenshtein_le (edits : Edits xs ys n) : levenshtein xs ys ≤ n := by
  induction edits with
  | nil => simp
  | @keep x xs ys n _ ih =>
      have step := levenshtein_replace_le x x xs ys
      rw [if_pos rfl] at step
      exact step.trans ih
  | @replace x y xs ys n _ ih =>
      have step := levenshtein_replace_le x y xs ys
      have cost : (if x = y then 0 else 1) ≤ 1 := by split <;> omega
      omega
  | @delete x xs ys n _ ih => exact (levenshtein_delete_le x xs ys).trans (Nat.succ_le_succ ih)
  | @insert y xs ys n _ ih => exact (levenshtein_insert_le y xs ys).trans (Nat.succ_le_succ ih)

/-- The distance is a number of edits with which one gets from one list to the other. -/
theorem edits_levenshtein (xs ys : List α) : Edits xs ys (levenshtein xs ys) := by
  induction xs, ys using levenshtein.induct with
  | case1 ys =>
      rw [levenshtein_nil_left]
      exact edits_insert_all ys
  | case2 x xs =>
      rw [levenshtein_nil_right]
      exact edits_delete_all (x :: xs)
  | case3 x xs y ys deleted inserted rest =>
      rw [levenshtein_cons]
      rcases min_choice (levenshtein xs (y :: ys) + 1)
        (min (levenshtein (x :: xs) ys + 1) (levenshtein xs ys + if x = y then 0 else 1)) with
        least | least
      · rw [least]
        exact deleted.delete x
      · rw [least]
        rcases min_choice (levenshtein (x :: xs) ys + 1)
          (levenshtein xs ys + if x = y then 0 else 1) with least | least
        · rw [least]
          exact inserted.insert y
        · rw [least]
          split
          · rename_i same
            subst same
            exact rest.keep x
          · exact rest.replace x y

theorem levenshtein_reverse (xs ys : List α) :
    levenshtein xs.reverse ys.reverse = levenshtein xs ys := by
  apply le_antisymm
  · exact (edits_levenshtein xs ys).reverse.levenshtein_le
  · have back := (edits_levenshtein xs.reverse ys.reverse).reverse.levenshtein_le
    rwa [List.reverse_reverse, List.reverse_reverse] at back

/-- The recursion on the last elements. -/
theorem levenshtein_concat (x y : α) (xs ys : List α) :
    levenshtein (xs ++ [x]) (ys ++ [y]) = min (levenshtein xs (ys ++ [y]) + 1)
      (min (levenshtein (xs ++ [x]) ys + 1) (levenshtein xs ys + if x = y then 0 else 1)) := by
  have step := levenshtein_cons x y xs.reverse ys.reverse
  rw [← List.reverse_concat, ← List.reverse_concat] at step
  simpa only [levenshtein_reverse] using step

@[simp] theorem levenshtein_self (xs : List α) : levenshtein xs xs = 0 := by
  induction xs with
  | nil => simp
  | cons x xs ih =>
      have step := levenshtein_replace_le x x xs xs
      rw [if_pos rfl, ih] at step
      exact Nat.le_zero.mp step

end EditDistance
