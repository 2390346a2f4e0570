/-
Module: FeathrEvents.Lib.Latest
Purpose: Requests numbered by one counter, of which only the one with the last number still counts when
  its reply arrives.  A request is superseded by a later one, or by advancing the counter.
Trusted boundary: none
Main exports: Latest, Latest.start, Latest.supersede, Latest.issue, Latest.settle, Latest.newest
-/
import FeathrEvents.Lib.OrderedDict

open Collections (OrderedDict)

/-- The counter, and the requests in flight by their numbers.  No number beyond the counter is in
use, so the next request gets one of its own. -/
structure Latest (τ : Type*) where
  last : ℕ
  flying : OrderedDict ℕ τ
  issued : ∀ number, last < number → flying.get? number = none

namespace Latest

variable {τ : Type*}

def start : Latest τ := ⟨0, .empty, fun _ _ => rfl⟩

/-- Advances the counter: no reply to a request that is in flight counts any more. -/
def supersede (latest : Latest τ) : Latest τ where
  last := latest.last + 1
  flying := latest.flying
  issued number later := latest.issued number (by omega)

/-- Advances the counter for a new request. -/
def issue (request : τ) (latest : Latest τ) : Latest τ where
  last := latest.last + 1
  flying := latest.flying.set (latest.last + 1) request
  issued number later := by
    rw [OrderedDict.get?_set, if_neg (by omega)]
    exact latest.issued number (by omega)

/-- The reply to a request has arrived. -/
def settle (number : ℕ) (latest : Latest τ) : Latest τ where
  last := latest.last
  flying := latest.flying.erase number
  issued other later := by
    rw [OrderedDict.get?_erase]
    split
    · rfl
    · exact latest.issued other later

/-- The request whose reply counts, while it is in flight. -/
def newest (latest : Latest τ) : Option τ := latest.flying.get? latest.last

/-- What is in flight has been issued. -/
theorem le_last (latest : Latest τ) {number : ℕ} {request : τ}
    (flies : latest.flying.get? number = some request) : number ≤ latest.last := by
  by_contra later
  rw [latest.issued number (by omega)] at flies
  cases flies

theorem flying_issue (request : τ) (latest : Latest τ) (number : ℕ) :
    (latest.issue request).flying.get? number =
      if number = latest.last + 1 then some request else latest.flying.get? number :=
  OrderedDict.get?_set ..

theorem flying_settle (number : ℕ) (latest : Latest τ) (other : ℕ) :
    (latest.settle number).flying.get? other =
      if other = number then none else latest.flying.get? other :=
  OrderedDict.get?_erase ..

@[simp] theorem newest_supersede (latest : Latest τ) : latest.supersede.newest = none :=
  latest.issued _ (Nat.lt_succ_self _)

@[simp] theorem newest_issue (request : τ) (latest : Latest τ) :
    (latest.issue request).newest = some request := by
  simp [newest, issue]

/-- The request that counts is in flight until its own reply arrives. -/
@[simp] theorem newest_settle (number : ℕ) (latest : Latest τ) :
    (latest.settle number).newest = if number = latest.last then none else latest.newest := by
  simp only [newest, settle, OrderedDict.get?_erase]
  simp only [eq_comm]

end Latest
