/-
Module: FeathrEvents.Lib.Ranking
Purpose: The first few of a collection by a rank: what a list of them has to be, and that such lists of
  two collections, merged and cut, are one of both.
Trusted boundary: none
Main exports: Ranking.Top, Ranking.Top.congr, Ranking.top_take, Ranking.Merges, Ranking.Top.merge
-/
import Mathlib.Data.List.Sort
import Mathlib.Data.Set.Basic
import Mathlib.Order.Defs.LinearOrder

namespace Ranking

variable {α β γ : Type*} [LinearOrder β] [LinearOrder γ]

/-- At most `limit` elements of a collection, the highest first, that leave out no element that ranks above
one of them. -/
structure Top (rank : α → β) (limit : ℕ) (all : Set α) (shown : List α) : Prop where
  listed : ∀ element ∈ shown, element ∈ all
  distinct : shown.Nodup
  few : shown.length ≤ limit
  sorted : shown.Pairwise fun first second => rank second ≤ rank first
  complete : ∀ element ∈ all, element ∉ shown →
    shown.length = limit ∧ ∀ other ∈ shown, rank element ≤ rank other

variable {rank : α → β} {other : α → γ} {limit : ℕ} {all more : Set α} {shown also : List α}

/-- Only the order of the ranks counts. -/
theorem Top.congr (top : Top rank limit all shown)
    (same : ∀ first ∈ all, ∀ second ∈ all, rank first ≤ rank second → other first ≤ other second) :
    Top other limit all shown where
  listed := top.listed
  distinct := top.distinct
  few := top.few
  sorted := by
    refine top.sorted.imp_of_mem fun {first second} early late below => ?_
    exact same second (top.listed second late) first (top.listed first early) below
  complete element member hidden := by
    obtain ⟨full, above⟩ := top.complete element member hidden
    refine ⟨full, fun shownOne listed => ?_⟩
    exact same element member shownOne (top.listed shownOne listed) (above shownOne listed)

/-- Nothing is shown of nothing. -/
theorem top_empty (rank : α → β) (limit : ℕ) : Top rank limit (∅ : Set α) [] where
  listed _ member := absurd member List.not_mem_nil
  distinct := List.nodup_nil
  few := Nat.zero_le _
  sorted := .nil
  complete _ member := absurd member (Set.notMem_empty _)

/-- The first few of a sorted list of the whole collection. -/
theorem top_take {whole : List α} (distinct : whole.Nodup)
    (sorted : whole.Pairwise fun first second => rank second ≤ rank first)
    (mem_iff : ∀ element, element ∈ whole ↔ element ∈ all) : Top rank limit all (whole.take limit) where
  listed element member := (mem_iff element).mp (List.mem_of_mem_take member)
  distinct := distinct.sublist (List.take_sublist _ _)
  few := List.length_take_le ..
  sorted := sorted.sublist (List.take_sublist _ _)
  complete element member hidden := by
    have inside := (mem_iff element).mpr member
    rw [← List.take_append_drop limit whole] at inside sorted
    have late := (List.mem_append.mp inside).resolve_left hidden
    have longer : limit < whole.length := by
      by_contra short
      rw [List.drop_eq_nil_of_le (not_lt.mp short)] at late
      cases late
    refine ⟨by rw [List.length_take, min_eq_left longer.le], fun kept early => ?_⟩
    exact (List.pairwise_append.mp sorted).2.2 kept early element late

/-- A merged list has whatever either list has, once, and the highest first. -/
structure Merges (rank : α → β) (first second merged : List α) : Prop where
  mem_iff : ∀ element, element ∈ merged ↔ element ∈ first ∨ element ∈ second
  distinct : merged.Nodup
  sorted : merged.Pairwise fun first second => rank second ≤ rank first

theorem Merges.symm {first second merged : List α} (merges : Merges rank first second merged) :
    Merges rank second first merged where
  mem_iff element := (merges.mem_iff element).trans or_comm
  distinct := merges.distinct
  sorted := merges.sorted

/-- An element that the cut list lacks is not above any that it has, when the list of its own collection
was cut at the same length. -/
theorem Top.hidden (top : Top rank limit all shown) {merged : List α}
    (merges : Merges rank shown also merged) {element : α} (member : element ∈ all)
    (cut : element ∉ merged.take limit) :
    (merged.take limit).length = limit ∧ ∀ kept ∈ merged.take limit, rank element ≤ rank kept := by
  have cutting : Top rank limit {one | one ∈ merged} (merged.take limit) :=
    top_take merges.distinct merges.sorted fun _ => Iff.rfl
  have inside : shown ⊆ merged := fun one listed => (merges.mem_iff one).mpr (.inl listed)
  by_cases known : element ∈ shown
  · exact cutting.complete element (inside known) cut
  · obtain ⟨full, above⟩ := top.complete element member known
    have enough : limit ≤ merged.length := full ▸ List.Nodup.length_le_of_subset top.distinct inside
    refine ⟨by rw [List.length_take, min_eq_left enough], fun kept early => ?_⟩
    -- otherwise the whole list of the collection stands before `kept`, one element too many
    by_contra below
    have before : ∀ one ∈ shown, one ∈ merged.take limit := by
      intro one listed
      by_contra late
      exact below ((above one listed).trans ((cutting.complete one (inside listed) late).2 kept early))
    have fresh : kept ∉ shown := fun listed => below (above kept listed)
    have crowd : (kept :: shown).Nodup := List.nodup_cons.mpr ⟨fresh, top.distinct⟩
    have fits := List.Nodup.length_le_of_subset crowd (List.cons_subset.mpr ⟨early, before⟩)
    rw [List.length_cons, full, List.length_take] at fits
    omega

/-- The first few of two merged lists of the first few are the first few of both collections. -/
theorem Top.merge (top : Top rank limit all shown) (next : Top rank limit more also)
    {merged : List α}
    (merges : Merges rank shown also merged) : Top rank limit (all ∪ more) (merged.take limit) where
  listed element member := by
    rcases (merges.mem_iff element).mp (List.mem_of_mem_take member) with first | second
    · exact .inl (top.listed element first)
    · exact .inr (next.listed element second)
  distinct := merges.distinct.sublist (List.take_sublist _ _)
  few := List.length_take_le ..
  sorted := merges.sorted.sublist (List.take_sublist _ _)
  complete element member hidden := by
    rcases member with first | second
    · exact top.hidden merges first hidden
    · exact next.hidden merges.symm second hidden

end Ranking
