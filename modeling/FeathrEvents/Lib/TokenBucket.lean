/-
Module: FeathrEvents.Lib.TokenBucket
Purpose: Token buckets over an ordered field: a bucket that holds at most its capacity, gains `rate`
  tokens a unit of time, and grants a request by spending one token.  One clamped number decides what
  the min-plus law says of all earlier grants.
Trusted boundary: none
Main exports: TokenBucket.refill, TokenBucket.supply, TokenBucket.le_supply_iff, TokenBucket.Follows,
  TokenBucket.wait, TokenBucket.granted, TokenBucket.waits, TokenBucket.wait_eq_zero_iff_law,
  TokenBucket.waits_of_refused, TokenBucket.countP_within_le, TokenBucket.waits_of_conforms
-/
import Mathlib.Algebra.Order.Field.Basic
import Mathlib.Data.List.Basic
import Mathlib.Data.List.Count
import Mathlib.Tactic.Linarith
import Mathlib.Tactic.Ring
import FeathrEvents.Lib.Runs

namespace TokenBucket

variable {K : Type*} [Field K] [LinearOrder K] {capacity rate : K}

/-- What a bucket has some time after it had `tokens`. -/
def refill (capacity rate tokens elapsed : K) : K := min capacity (tokens + elapsed * rate)

/-- What a bucket has at a time, when it was full and has granted at the given times, latest first. -/
def supply (capacity rate : K) : List K → K → K
  | [], _ => capacity
  | grant :: earlier, now =>
      refill capacity rate (supply capacity rate earlier grant - 1) (now - grant)

theorem supply_le (grants : List K) (now : K) : supply capacity rate grants now ≤ capacity := by
  cases grants with
  | nil => exact le_rfl
  | cons grant earlier => exact min_le_left _ _

variable [IsStrictOrderedRing K]

/-- Filling up twice is filling up once for the whole time. -/
theorem refill_refill (tokens first : K) {second : K} (gains : 0 ≤ rate) (forward : 0 ≤ second) :
    refill capacity rate (refill capacity rate tokens first) second =
      refill capacity rate tokens (first + second) := by
  have gained : 0 ≤ second * rate := mul_nonneg forward gains
  have whole : tokens + first * rate + second * rate = tokens + (first + second) * rate := by ring
  unfold refill
  rw [min_add, ← min_assoc, whole, min_eq_left (le_add_of_nonneg_right gained)]

/-! ### The law -/

/-- An amount is there exactly when, counted from every earlier grant, the grants and the amount do not
exceed the capacity and what has been gained since. -/
theorem le_supply_iff (grants : List K) {amount now : K} :
    amount ≤ supply capacity rate grants now ↔ amount ≤ capacity ∧
      ∀ later grant earlier, grants = later ++ grant :: earlier →
        amount + (later.length + 1) ≤ capacity + rate * (now - grant) := by
  induction grants generalizing amount now with
  | nil => simp [supply]
  | cons grant earlier ih =>
      have shifted : amount ≤ supply capacity rate earlier grant - 1 + (now - grant) * rate ↔
          amount + 1 - (now - grant) * rate ≤ supply capacity rate earlier grant := by
        constructor <;> intro bound <;> linarith
      rw [supply, refill, le_min_iff, shifted, ih]
      constructor
      · rintro ⟨fits, first, others⟩
        refine ⟨fits, fun later other before split => ?_⟩
        cases later with
        | nil =>
            cases split
            simp only [List.length_nil, Nat.cast_zero]
            linarith
        | cons head later =>
            cases split
            have bound := others later other before rfl
            simp only [List.length_cons, Nat.cast_add, Nat.cast_one]
            linarith
      · rintro ⟨fits, all⟩
        have first := all [] grant earlier rfl
        simp only [List.length_nil, Nat.cast_zero] at first
        refine ⟨fits, by linarith, fun later other before split => ?_⟩
        have bound := all (grant :: later) other before (by rw [split]; rfl)
        simp only [List.length_cons, Nat.cast_add, Nat.cast_one] at bound
        linarith

/-! ### A clamped number -/

/-- The tokens counted at some moment say what the grants say from then on.  So the two numbers of a
bucket stand for the whole list of its grants. -/
def Follows (capacity rate tokens updated : K) (grants : List K) : Prop :=
  ∀ now, updated ≤ now →
    refill capacity rate tokens (now - updated) = supply capacity rate grants now

variable {tokens updated now : K} {grants : List K}

theorem follows_full (gains : 0 ≤ rate) (updated : K) :
    Follows capacity rate capacity updated [] := by
  intro now later
  have gained : 0 ≤ (now - updated) * rate := mul_nonneg (sub_nonneg.mpr later) gains
  exact min_eq_left (le_add_of_nonneg_right gained)

/-- Counting the tokens spends nothing. -/
theorem Follows.counted (follows : Follows capacity rate tokens updated grants) (gains : 0 ≤ rate)
    (later : updated ≤ now) :
    Follows capacity rate (refill capacity rate tokens (now - updated)) now grants := by
  intro after afterwards
  rw [refill_refill _ _ gains (sub_nonneg.mpr afterwards), ← follows after (later.trans afterwards)]
  congr 1
  ring

omit [IsStrictOrderedRing K] in
/-- A grant spends one token. -/
theorem Follows.spent (follows : Follows capacity rate tokens updated grants)
    (later : updated ≤ now) :
    Follows capacity rate (refill capacity rate tokens (now - updated) - 1) now (now :: grants) := by
  intro after _
  rw [follows now later]
  rfl

/-! ### A sequence of requests -/

section Requests

variable (capacity rate)

/-- How long a request must wait; a request that is granted waits for nothing. -/
def wait (grants : List K) (now : K) : K :=
  if 1 ≤ supply capacity rate grants now then 0 else (1 - supply capacity rate grants now) / rate

/-- The grants after a request. -/
def ask (grants : List K) (now : K) : List K :=
  if 1 ≤ supply capacity rate grants now then now :: grants else grants

/-- The grants after requests at the given times, latest first. -/
def granted (grants times : List K) : List K := Machine.run (ask capacity rate) grants times

/-- What each of the requests waits. -/
def waits (grants times : List K) : List K :=
  (Machine.visits (ask capacity rate) grants times).map fun visit => wait capacity rate visit.1 visit.2

end Requests

omit [IsStrictOrderedRing K] in
@[simp] theorem granted_snoc (times : List K) (now : K) :
    granted capacity rate grants (times ++ [now]) =
      ask capacity rate (granted capacity rate grants times) now :=
  Machine.run_snoc ..

omit [IsStrictOrderedRing K] in
theorem waits_append (before after : List K) :
    waits capacity rate grants (before ++ after) = waits capacity rate grants before ++
      waits capacity rate (granted capacity rate grants before) after := by
  rw [waits, Machine.visits_append, List.map_append]
  rfl

omit [IsStrictOrderedRing K] in
@[simp] theorem waits_cons (times : List K) (now : K) :
    waits capacity rate grants (now :: times) = wait capacity rate grants now ::
      waits capacity rate (ask capacity rate grants now) times := rfl

omit [IsStrictOrderedRing K] in
@[simp] theorem waits_nil : waits capacity rate grants [] = [] := rfl

/-- A request waits for nothing exactly when there is a token. -/
theorem wait_eq_zero_iff (gains : 0 < rate) :
    wait capacity rate grants now = 0 ↔ 1 ≤ supply capacity rate grants now := by
  unfold wait
  split
  · rename_i there
    exact ⟨fun _ => there, fun _ => rfl⟩
  · rename_i short
    have positive : 0 < (1 - supply capacity rate grants now) / rate :=
      div_pos (sub_pos.mpr (not_le.mp short)) gains
    exact ⟨fun none => absurd none positive.ne', fun there => absurd there short⟩

/-- The admission law: a request is granted exactly when, counted from every earlier grant, the grants
and the request do not exceed the capacity and what has been gained since. -/
theorem wait_eq_zero_iff_law (gains : 0 < rate) (room : 1 ≤ capacity) :
    wait capacity rate grants now = 0 ↔
      ∀ later grant earlier, grants = later ++ grant :: earlier →
        (later.length + 1 : K) + 1 ≤ capacity + rate * (now - grant) := by
  rw [wait_eq_zero_iff gains, le_supply_iff, and_iff_right room]
  constructor <;>
  · intro law later grant earlier split
    have bound := law later grant earlier split
    linarith

omit [IsStrictOrderedRing K] in
/-- A refused request leaves the grants as they are. -/
theorem ask_of_refused (refused : wait capacity rate grants now ≠ 0) :
    ask capacity rate grants now = grants := by
  by_cases there : 1 ≤ supply capacity rate grants now
  · simp [wait, there] at refused
  · exact if_neg there

omit [IsStrictOrderedRing K] in
@[simp] theorem length_waits (times : List K) :
    (waits capacity rate grants times).length = times.length := by
  induction times generalizing grants with
  | nil => rfl
  | cons now times ih => simp [ih]

omit [IsStrictOrderedRing K] in
/-- A refused request costs nothing: without it all others wait as long as with it. -/
theorem waits_of_refused (before after : List K)
    (refused : wait capacity rate (granted capacity rate grants before) now ≠ 0) :
    waits capacity rate grants (before ++ after) =
      (waits capacity rate grants (before ++ now :: after)).eraseIdx before.length := by
  rw [waits_append, waits_append, waits_cons, ask_of_refused refused,
    List.eraseIdx_append_of_length_le (by rw [length_waits]), length_waits, Nat.sub_self,
    List.eraseIdx_cons_zero]

omit [IsStrictOrderedRing K] in
/-- The grants are among the requests, in their order. -/
theorem granted_sublist (capacity rate : K) (times : List K) :
    (granted capacity rate [] times).Sublist times.reverse := by
  induction times using List.reverseRecOn with
  | nil => exact List.Sublist.refl _
  | append_singleton times now ih =>
      rw [granted_snoc, ask, List.reverse_append, List.reverse_singleton, List.singleton_append]
      split
      · exact ih.cons_cons now
      · exact ih.cons now

/-! ### Intervals -/

/-- Every grant found a token. -/
def Backed (capacity rate : K) : List K → Prop
  | [] => True
  | grant :: earlier => 1 ≤ supply capacity rate earlier grant ∧ Backed capacity rate earlier

omit [IsStrictOrderedRing K] in
theorem backed_granted (times : List K) :
    Backed capacity rate (granted capacity rate [] times) := by
  induction times using List.reverseRecOn with
  | nil => trivial
  | append_singleton times now ih =>
      rw [granted_snoc, ask]
      split
      · rename_i there
        exact ⟨there, ih⟩
      · exact ih

/-- The moments of a closed interval. -/
def Within (start length moment : K) : Prop := start ≤ moment ∧ moment ≤ start + length

instance (start length moment : K) : Decidable (Within start length moment) :=
  inferInstanceAs (Decidable (_ ∧ _))

omit [Field K] [IsStrictOrderedRing K] in
/-- In a list that descends, the items above a bound come first. -/
theorem split_of_descending {moments : List K} (descends : moments.Pairwise (· ≥ ·)) (start : K) :
    ∃ below, moments = moments.filter (start ≤ ·) ++ below := by
  induction moments with
  | nil => exact ⟨[], rfl⟩
  | cons moment moments ih =>
      rw [List.pairwise_cons] at descends
      by_cases above : start ≤ moment
      · obtain ⟨below, split⟩ := ih descends.2
        apply Exists.intro below
        rw [List.filter_cons_of_pos (by simpa using above), List.cons_append, ← split]
      · have none : (moment :: moments).filter (start ≤ ·) = [] := by
          rw [List.filter_eq_nil_iff]
          intro other member
          rcases List.mem_cons.mp member with rfl | later
          · simpa using above
          · have lower : other < start := (descends.1 other later).trans_lt (not_le.mp above)
            simpa using lower
        exact ⟨moment :: moments, by rw [none]; rfl⟩

/-- No interval has more grants than the capacity and what is gained in its length. -/
theorem countP_within_le (gains : 0 ≤ rate) (room : 0 ≤ capacity)
    (descends : grants.Pairwise (· ≥ ·)) (backed : Backed capacity rate grants)
    (start : K) {length : K} (forward : 0 ≤ length) :
    (grants.countP (Within start length ·) : K) ≤ capacity + rate * length := by
  have gained : 0 ≤ rate * length := mul_nonneg gains forward
  induction grants with
  | nil => simpa using add_nonneg room gained
  | cons grant earlier ih =>
      rw [List.pairwise_cons] at descends
      by_cases inside : Within start length grant
      · rw [List.countP_cons_of_pos (by simpa using inside)]
        -- all earlier grants are before the end, so the interval has those after its start
        have counted : earlier.countP (Within start length ·) =
            (earlier.filter (start ≤ ·)).length := by
          rw [List.countP_eq_length_filter]
          congr 1
          apply List.filter_congr
          intro other member
          have before : other ≤ start + length := (descends.1 other member).trans inside.2
          simp [Within, before]
        obtain ⟨below, split⟩ := split_of_descending descends.2 start
        rw [counted]
        rcases List.eq_nil_or_concat' (earlier.filter (start ≤ ·)) with none | ⟨later, oldest, shape⟩
        · have one := backed.1.trans (supply_le earlier grant)
          rw [none]
          simp only [List.length_nil, zero_add, Nat.cast_one]
          linarith
        · have after : start ≤ oldest := by
            have member : oldest ∈ earlier.filter (start ≤ ·) := by rw [shape]; simp
            simpa using (List.mem_filter.mp member).2
          rw [shape] at split ⊢
          have bound := (le_supply_iff earlier).mp backed.1 |>.2 later oldest below (by simpa using split)
          have span : rate * (grant - oldest) ≤ rate * length :=
            mul_le_mul_of_nonneg_left (by linarith [inside.2]) gains
          simp only [List.length_append, List.length_singleton, Nat.cast_add, Nat.cast_one]
          linarith
      · rw [List.countP_cons_of_neg (by simpa using inside)]
        exact ih descends.2 backed.2

/-- The requests stay within the capacity and the rate in every interval, wherever it starts and
however short it is. -/
def Conforms (capacity rate : K) (times : List K) : Prop :=
  ∀ start length, 0 ≤ length →
    (times.countP (Within start length ·) : K) ≤ capacity + rate * length

omit [IsStrictOrderedRing K] in
theorem descends_granted (capacity rate : K) {times : List K} (ascends : times.Pairwise (· ≤ ·)) :
    (granted capacity rate [] times).Pairwise (· ≥ ·) :=
  (List.pairwise_reverse.mpr ascends).sublist (granted_sublist capacity rate times)

/-- Requests that conform are never refused. -/
theorem wait_eq_zero_of_conforms (gains : 0 < rate) {times : List K}
    (ascends : (times ++ [now]).Pairwise (· ≤ ·))
    (conforms : Conforms capacity rate (times ++ [now])) :
    wait capacity rate (granted capacity rate [] times) now = 0 := by
  obtain ⟨earlierAscend, -, before⟩ := List.pairwise_append.mp ascends
  have before : ∀ time ∈ times, time ≤ now := fun time member =>
    before time member now (List.mem_singleton_self now)
  -- the request itself is in every interval that ends with it
  have counted : ∀ start ≤ now,
      (times.countP (Within start (now - start) ·) : K) + 1 ≤ capacity + rate * (now - start) := by
    intro start earlier
    have inside : Within start (now - start) now := ⟨earlier, by linarith⟩
    have bound := conforms start (now - start) (sub_nonneg.mpr earlier)
    rw [List.countP_append, List.countP_singleton, if_pos (by simpa using inside)] at bound
    exact_mod_cast bound
  have room : 1 ≤ capacity := by
    have some : (0 : K) ≤ (times.countP (Within now (now - now) ·) : ℕ) := Nat.cast_nonneg _
    have bound := counted now le_rfl
    rw [sub_self, mul_zero, add_zero] at bound
    rw [sub_self] at some
    linarith
  rw [wait_eq_zero_iff_law gains room]
  intro later grant earlier split
  have sublist := granted_sublist capacity rate times
  have descends := descends_granted capacity rate earlierAscend
  rw [split] at sublist descends
  have part : (later ++ [grant]).Sublist (later ++ grant :: earlier) :=
    (List.Sublist.refl later).append (List.nil_sublist earlier |>.cons_cons grant)
  have all : (later ++ [grant]).countP (Within grant (now - grant) ·) = (later ++ [grant]).length := by
    rw [List.countP_eq_length]
    intro time member
    have ends : time ≤ now := before time (List.mem_reverse.mp (sublist.subset (part.subset member)))
    have starts : grant ≤ time := by
      rcases List.mem_append.mp member with newer | same
      · exact (List.pairwise_append.mp descends).2.2 time newer grant (List.mem_cons_self ..)
      · exact (List.mem_singleton.mp same).ge
    have inside : Within grant (now - grant) time := ⟨starts, by linarith⟩
    simpa using inside
  have some : later.length + 1 ≤ times.countP (Within grant (now - grant) ·) := by
    calc later.length + 1 = (later ++ [grant]).countP (Within grant (now - grant) ·) := by
          rw [all, List.length_append, List.length_singleton]
      _ ≤ (later ++ grant :: earlier).countP (Within grant (now - grant) ·) := part.countP_le
      _ ≤ times.reverse.countP (Within grant (now - grant) ·) := sublist.countP_le
      _ = times.countP (Within grant (now - grant) ·) := List.countP_reverse
  have cast : (later.length + 1 : K) ≤ (times.countP (Within grant (now - grant) ·) : ℕ) := by
    exact_mod_cast some
  have listed : grant ∈ times := List.mem_reverse.mp (sublist.subset (by simp))
  exact (add_le_add_left cast 1).trans (counted grant (before grant listed))

theorem Conforms.left {times more : List K}
    (conforms : Conforms capacity rate (times ++ more)) : Conforms capacity rate times := by
  intro start length forward
  apply le_trans _ (conforms start length forward)
  rw [List.countP_append, Nat.cast_add]
  exact le_add_of_nonneg_right (Nat.cast_nonneg _)

/-- No request waits when all of them conform. -/
theorem waits_of_conforms (gains : 0 < rate) {times : List K} (ascends : times.Pairwise (· ≤ ·))
    (conforms : Conforms capacity rate times) : ∀ wait ∈ waits capacity rate [] times, wait = 0 := by
  induction times using List.reverseRecOn with
  | nil => simp
  | append_singleton times now ih =>
      intro wait member
      rw [waits_append, List.mem_append] at member
      cases member with
      | inl before =>
          exact ih (List.pairwise_append.mp ascends).1 conforms.left wait before
      | inr last =>
          rw [waits_cons, waits_nil, List.mem_singleton] at last
          rw [last]
          exact wait_eq_zero_of_conforms gains ascends conforms

end TokenBucket
