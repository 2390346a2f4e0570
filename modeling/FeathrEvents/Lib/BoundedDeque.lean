/-
Module: FeathrEvents.Lib.BoundedDeque
Purpose: A sequence that holds a bounded number of items and drops its oldest to admit a new one.
Trusted boundary: none
Main exports: BoundedDeque, BoundedDeque.append, BoundedDeque.items_append,
  BoundedDeque.items_foldl_append
-/
import Mathlib.Data.List.DropRight

namespace Collections

/-- At most `limit` items, oldest first.  The bound is part of the value, so a deque that has
outgrown it cannot be built. -/
structure BoundedDeque (α : Type*) (limit : ℕ) where
  items : List α
  bounded : items.length ≤ limit

namespace BoundedDeque

variable {α : Type*} {limit : ℕ}

/-- The deque without items. -/
def empty : BoundedDeque α limit := ⟨[], Nat.zero_le _⟩

instance : Inhabited (BoundedDeque α limit) := ⟨empty⟩

/-- Append on the right; when the bound is exceeded, the leftmost item is dropped. -/
def append (deque : BoundedDeque α limit) (item : α) : BoundedDeque α limit where
  items := (deque.items ++ [item]).rtake limit
  bounded := by
    rw [List.rtake, List.length_drop]
    omega

@[simp] theorem items_append (deque : BoundedDeque α limit) (item : α) :
    (deque.append item).items = (deque.items ++ [item]).rtake limit := rfl

theorem items_append_of_room {deque : BoundedDeque α limit} (item : α)
    (room : deque.items.length < limit) : (deque.append item).items = deque.items ++ [item] := by
  have none : (deque.items ++ [item]).length - limit = 0 := by
    rw [List.length_append, List.length_singleton]
    omega
  rw [items_append, List.rtake, none, List.drop_zero]

/-- A full deque drops its oldest item. -/
theorem items_append_of_full {deque : BoundedDeque α limit} (item : α) {oldest : α} {rest : List α}
    (shape : deque.items = oldest :: rest) (full : deque.items.length = limit) :
    (deque.append item).items = rest ++ [item] := by
  have one : (deque.items ++ [item]).length - limit = 1 := by
    rw [List.length_append, List.length_singleton]
    omega
  rw [items_append, List.rtake, one, shape]
  rfl

private theorem rtake_append_rtake (first second : List α) (count : ℕ) :
    (first.rtake count ++ second).rtake count = (first ++ second).rtake count := by
  simp only [List.rtake_eq_reverse_take_reverse, List.reverse_append, List.reverse_reverse,
    List.take_append, List.take_take]
  congr 3
  omega

/-- Appending a list of items one by one keeps the most recent `limit` of all of them. -/
theorem items_foldl_append (deque : BoundedDeque α limit) (added : List α) :
    (added.foldl append deque).items = (deque.items ++ added).rtake limit := by
  induction added generalizing deque with
  | nil =>
      have whole : deque.items.length - limit = 0 := Nat.sub_eq_zero_of_le deque.bounded
      simp [List.rtake, whole]
  | cons item added ih =>
      rw [List.foldl_cons, ih, items_append, rtake_append_rtake, List.append_assoc,
        List.singleton_append]

end BoundedDeque

end Collections
