/-
Module: FeathrEvents.Lib.Lease
Purpose: The life of one item that is lent under a deadline: it waits, is held under a handle, and
  either comes back when the deadline has passed or leaves for good.  Every lending is numbered.
Trusted boundary: none
Main exports: Place, Act, Step, Steps, lendings, Steps.recorded, Steps.count_le,
  Steps.gone_stays, Steps.born_stays
-/
import Mathlib.Data.List.Induction
import Mathlib.Data.List.Range
import Mathlib.Order.Defs.LinearOrder

namespace Lease

/-- Where the item is.  `count` is the number of lendings so far.  A stranded item is neither
available nor lent, and not given up either. -/
inductive Place (η τ : Type*) where
  | unborn
  | waiting (count : ℕ)
  | held (count : ℕ) (handle : η) (deadline : τ)
  | stranded (count : ℕ)
  | gone

/-- What can happen to the item.  `retire` is the item's name being taken for something else before
the item ever arrives. -/
inductive Act (η τ : Type*) where
  | arrive
  | retire
  | lend (count : ℕ) (handle : η) (deadline : τ)
  | extend (deadline : τ)
  | lapse (time : τ)
  | bury (time : τ)
  | strand (time : τ)
  | settle
  | drop

/-- The life cycle.  An expired loan goes back only below `limit` lendings and is given up only from
`limit` lendings on; no loan ends by expiry before its deadline. -/
inductive Step {η τ : Type*} [LE τ] (limit : ℤ) : Place η τ → Act η τ → Place η τ → Prop where
  | arrive : Step limit .unborn .arrive (.waiting 0)
  | retire : Step limit .unborn .retire .gone
  | lend (count : ℕ) (handle : η) (deadline : τ) :
      Step limit (.waiting count) (.lend (count + 1) handle deadline)
        (.held (count + 1) handle deadline)
  | extend (count : ℕ) (handle : η) (deadline later : τ) :
      Step limit (.held count handle deadline) (.extend later) (.held count handle later)
  | lapse (count : ℕ) (handle : η) (deadline time : τ) (expired : deadline ≤ time)
      (below : (count : ℤ) < limit) :
      Step limit (.held count handle deadline) (.lapse time) (.waiting count)
  | bury (count : ℕ) (handle : η) (deadline time : τ) (expired : deadline ≤ time)
      (exhausted : limit ≤ count) :
      Step limit (.held count handle deadline) (.bury time) .gone
  | strand (count : ℕ) (handle : η) (deadline time : τ) (expired : deadline ≤ time)
      (exhausted : limit ≤ count) :
      Step limit (.held count handle deadline) (.strand time) (.stranded count)
  | settle (count : ℕ) (handle : η) (deadline : τ) :
      Step limit (.held count handle deadline) .settle .gone
  | drop (place : Place η τ) (born : place ≠ .unborn) : Step limit place .drop .gone

/-- Any number of steps, the acts in the order in which they happen.  This is the life of one lease,
whatever happens to others. -/
inductive Steps {η τ : Type*} [LE τ] (limit : ℤ) (first : Place η τ) :
    List (Act η τ) → Place η τ → Prop where
  | refl : Steps limit first [] first
  | snoc {second third : Place η τ} {acts : List (Act η τ)} {act : Act η τ}
      (steps : Steps limit first acts second) (step : Step limit second act third) :
      Steps limit first (acts ++ [act]) third

variable {η τ : Type*}

/-- The number and the handle of a lending. -/
def Act.lending? : Act η τ → Option (ℕ × η)
  | .lend count handle _ => some (count, handle)
  | _ => none

/-- The lendings among the acts, in order. -/
def lendings (acts : List (Act η τ)) : List (ℕ × η) := acts.filterMap Act.lending?

@[simp] theorem lendings_nil : lendings ([] : List (Act η τ)) = [] := rfl

@[simp] theorem lendings_append (first second : List (Act η τ)) :
    lendings (first ++ second) = lendings first ++ lendings second :=
  List.filterMap_append

@[simp] theorem lendings_singleton (act : Act η τ) : lendings [act] = act.lending?.toList := by
  cases shape : act.lending? <;> simp [lendings, shape]

/-- The number of lendings that a place records, where it records one. -/
def Place.count? : Place η τ → Option ℕ
  | .waiting count | .held count _ _ | .stranded count => some count
  | .unborn | .gone => none

variable [LE τ] {limit : ℤ}

theorem Steps.single {first second : Place η τ} {act : Act η τ}
    (step : Step limit first act second) :
    Steps limit first [act] second :=
  .snoc .refl step

theorem Steps.trans {first second third : Place η τ} {earlier later : List (Act η τ)}
    (one : Steps limit first earlier second) (two : Steps limit second later third) :
    Steps limit first (earlier ++ later) third := by
  induction two with
  | refl => simpa using one
  | snoc _ step ih =>
      rw [← List.append_assoc]
      exact .snoc ih step

/-- An item that is gone never comes back: it can only be dropped once more. -/
theorem Steps.gone_stays {acts : List (Act η τ)} {place : Place η τ}
    (steps : Steps limit .gone acts place) : place = .gone ∧ lendings acts = [] := by
  induction steps with
  | refl => exact ⟨rfl, rfl⟩
  | snoc _ step ih =>
      obtain ⟨rfl, none⟩ := ih
      cases step
      exact ⟨rfl, by simp [none, Act.lending?]⟩

/-- An item that has arrived is never unborn again. -/
theorem Steps.born_stays {first second : Place η τ} {acts : List (Act η τ)}
    (steps : Steps limit first acts second) (born : first ≠ .unborn) : second ≠ .unborn := by
  induction steps with
  | refl => exact born
  | snoc _ step => cases step <;> simp

/-- What a life from before the arrival has recorded: the place knows the number of lendings, a held
item is held under the handle of the last one, and before the arrival there is none. -/
structure Recorded (place : Place η τ) (lent : List (ℕ × η)) : Prop where
  numbered : lent.map Prod.fst = List.range' 1 lent.length
  counted : ∀ count, place.count? = some count → count = lent.length
  last : ∀ count handle deadline, place = .held count handle deadline →
    lent.getLast? = some (count, handle)
  unborn : place = .unborn → lent = []

omit [LE τ] in
private theorem Recorded.keep {place later : Place η τ} {lent : List (ℕ × η)}
    (recorded : Recorded place lent) (same : later.count? = place.count? ∨ later.count? = none)
    (held : ∀ count handle deadline, later = .held count handle deadline →
      ∃ earlier, place = .held count handle earlier)
    (born : later ≠ .unborn) : Recorded later lent where
  numbered := recorded.numbered
  counted count present := by
    rcases same with same | absent
    · exact recorded.counted count (same ▸ present)
    · rw [absent] at present
      cases present
  last count handle deadline shape := by
    obtain ⟨earlier, held⟩ := held count handle deadline shape
    exact recorded.last count handle earlier held
  unborn shape := absurd shape born

/-- Lendings are numbered 1, 2, 3, … without a gap or a repetition. -/
theorem Steps.recorded {acts : List (Act η τ)} {place : Place η τ}
    (steps : Steps limit .unborn acts place) : Recorded place (lendings acts) := by
  induction steps with
  | refl => exact ⟨rfl, by simp [Place.count?], by simp, fun _ => rfl⟩
  | snoc _ step recorded =>
      rw [lendings_append, lendings_singleton]
      cases step with
      | lend count handle deadline =>
          have length := recorded.counted count rfl
          refine ⟨?_, ?_, ?_, by simp⟩
          · simp only [Act.lending?, Option.toList_some, List.map_append, List.map_cons,
              List.map_nil, List.length_append, List.length_cons, List.length_nil, Nat.zero_add]
            rw [List.range'_1_concat, recorded.numbered, ← length, Nat.add_comm 1]
          · intro other present
            simp only [Place.count?, Option.some.injEq] at present
            simp [Act.lending?, ← present, length]
          · intro other otherHandle later shape
            cases shape
            simp [Act.lending?]
      | arrive =>
          have empty := recorded.unborn rfl
          simp only [empty, Act.lending?, Option.toList_none, List.append_nil]
          exact ⟨rfl, by simp [Place.count?], by simp, fun _ => rfl⟩
      | _ =>
          simp only [Act.lending?, Option.toList_none, List.append_nil]
          refine recorded.keep (by simp [Place.count?]) ?_ (by simp)
          simp

/-- No item is lent more than `limit` times, and one that waits can still be lent. -/
theorem Steps.count_le {acts : List (Act η τ)} {place : Place η τ} (positive : 1 ≤ limit)
    (steps : Steps limit .unborn acts place) :
    ((lendings acts).length : ℤ) ≤ limit ∧
      ∀ count, place = .waiting count → (count : ℤ) < limit := by
  induction steps with
  | refl => exact ⟨by simpa using Int.le_of_lt positive, by simp⟩
  | snoc steps step ih =>
      obtain ⟨bounded, below⟩ := ih
      have recorded := steps.recorded
      rw [lendings_append, lendings_singleton]
      cases step with
      | lend count handle deadline =>
          have length := recorded.counted count rfl
          have room := below count rfl
          refine ⟨?_, by simp⟩
          simp only [Act.lending?, Option.toList_some, List.length_append, List.length_cons,
            List.length_nil]
          omega
      | arrive =>
          refine ⟨by simpa [Act.lending?] using bounded, ?_⟩
          intro count shape
          cases shape
          exact positive
      | lapse count handle deadline time expired room =>
          refine ⟨by simpa [Act.lending?] using bounded, ?_⟩
          intro other shape
          cases shape
          exact room
      | _ => exact ⟨by simpa [Act.lending?] using bounded, by simp⟩

end Lease
