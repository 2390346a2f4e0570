/-
Module: FeathrEvents.Proofs.Corrections
Purpose: The row that is rolled over both strings ends at the Levenshtein distance, and a correction is a value
  of the hits at the least such distance.
Trusted boundary: none (fully proved)
Main exports: rows_eq, distance_eq, mem_candidatesOf, nearest_spec, Corrects, corrections_nearest
-/
import FeathrEvents.App.Correction
import FeathrEvents.Lib.EditDistance

open EditDistance

namespace FeathrEvents

namespace Correction

/-! ### The rolling row -/

/-- The row of the table for one beginning of the first string. -/
def tableRow (xs ys : JsString) (width : ℕ) : List ℕ :=
  (List.range width).map fun j => levenshtein xs (ys.take j)

theorem tableRow_getD {xs ys : JsString} {width j : ℕ} (inside : j < width) :
    (tableRow xs ys width).getD j 0 = levenshtein xs (ys.take j) := by
  simp [tableRow, List.getD_eq_getElem?_getD, inside]

theorem tableRow_succ (xs ys : JsString) (width : ℕ) :
    tableRow xs ys (width + 1) = tableRow xs ys width ++ [levenshtein xs (ys.take width)] := by
  rw [tableRow, List.range_succ, List.map_append]
  rfl

theorem take_concat {xs : JsString} {i : ℕ} (inside : i < xs.length) :
    xs.take (i + 1) = xs.take i ++ [xs[i]] := by
  simp

/-- The cell that a row of the table gets next is the distance there. -/
theorem cell_eq {a b : JsString} {i j : ℕ} (down : i < a.length) (across : j < b.length) :
    cell a b (tableRow (a.take i) b (b.length + 1)) (i + 1) (tableRow (a.take (i + 1)) b (j + 1))
      (j + 1) = tableRow (a.take (i + 1)) b (j + 2) := by
  have above : (tableRow (a.take i) b (b.length + 1)).getD (j + 1) 0 =
      levenshtein (a.take i) (b.take (j + 1)) := tableRow_getD (by omega)
  have left : (tableRow (a.take (i + 1)) b (j + 1)).getD j 0 =
      levenshtein (a.take (i + 1)) (b.take j) := tableRow_getD (by omega)
  have corner : (tableRow (a.take i) b (b.length + 1)).getD j 0 =
      levenshtein (a.take i) (b.take j) := tableRow_getD (by omega)
  have step := levenshtein_concat a[i] b[j] (a.take i) (b.take j)
  rw [← take_concat down, ← take_concat across] at step
  rw [cell, Nat.add_sub_cancel, Nat.add_sub_cancel, above, left, corner,
    List.getElem?_eq_getElem down, List.getElem?_eq_getElem across, tableRow_succ _ _ (j + 1), step]
  simp only [Option.some.injEq]

theorem cells_eq {a b : JsString} {i : ℕ} (down : i < a.length) (j : ℕ) (across : j ≤ b.length) :
    (List.range' 1 j).foldl (cell a b (tableRow (a.take i) b (b.length + 1)) (i + 1)) [i + 1] =
      tableRow (a.take (i + 1)) b (j + 1) := by
  induction j with
  | zero =>
      have width : min (i + 1) a.length = i + 1 := by omega
      simp [tableRow, width]
  | succ j ih =>
      rw [List.range'_1_concat, List.foldl_concat, ih (by omega), Nat.add_comm 1 j,
        cell_eq down (by omega)]

/-- One pass of the outer loop goes from one row of the table to the next. -/
theorem row_eq {a b : JsString} {i : ℕ} (down : i < a.length) :
    row a b (tableRow (a.take i) b (b.length + 1)) (i + 1) =
      tableRow (a.take (i + 1)) b (b.length + 1) :=
  cells_eq down b.length le_rfl

theorem rows_eq (a b : JsString) (i : ℕ) (down : i ≤ a.length) :
    (List.range' 1 i).foldl (row a b) (List.range (b.length + 1)) =
      tableRow (a.take i) b (b.length + 1) := by
  induction i with
  | zero =>
      apply List.ext_getElem
      · simp [tableRow]
      · intro j inside _
        have width : min j b.length = j := by
          rw [List.range'_zero, List.foldl_nil, List.length_range] at inside
          omega
        simp [tableRow, width]
  | succ i ih =>
      rw [List.range'_1_concat, List.foldl_concat, ih (by omega), Nat.add_comm 1 i,
        row_eq (by omega)]

/-- The distance of the code is the Levenshtein distance. -/
theorem distance_eq (a b : JsString) : distance a b = levenshtein a b := by
  unfold distance
  split
  · rename_i same
    rw [same, levenshtein_self]
  · rw [rows_eq a b a.length le_rfl, List.take_length, tableRow_getD (by omega), List.take_length]

/-! ### The candidates -/

/-- A value that the events carry where the search looks, lower-cased. -/
def Candidate (lower : JsString → JsString) (items : List FeathrEvent) (value : JsString) : Prop :=
  ∃ e ∈ items, value = lower e.eventType ∨ value = lower e.userId ∨
    ∃ text, .string text ∈ e.metadata.getD [] ∧ value = lower text

section Candidates

variable {lower : JsString → JsString} {candidates : List JsString} {value : JsString}

theorem mem_add {added : JsString} :
    value ∈ add candidates added ↔ value ∈ candidates ∨ value = added := by
  unfold add
  split
  · rename_i known
    constructor
    · exact Or.inl
    · rintro (member | rfl)
      · exact member
      · exact known
  · simp

theorem mem_addValues (values : List MetadataValue) :
    value ∈ values.foldl (addValue lower) candidates ↔
      value ∈ candidates ∨ ∃ text, .string text ∈ values ∧ value = lower text := by
  induction values generalizing candidates with
  | nil => simp
  | cons first values ih =>
      rw [List.foldl_cons, ih]
      cases first with
      | string text => simp [addValue, mem_add, or_assoc, or_and_right, exists_or]
      | other => simp [addValue]

theorem mem_addEvent (e : FeathrEvent) :
    value ∈ addEvent lower candidates e ↔ value ∈ candidates ∨ Candidate lower [e] value := by
  rw [addEvent, mem_addValues, mem_add, mem_add]
  simp [Candidate, or_assoc]

theorem mem_addEvents (items : List FeathrEvent) :
    value ∈ items.foldl (addEvent lower) candidates ↔
      value ∈ candidates ∨ Candidate lower items value := by
  induction items generalizing candidates with
  | nil => simp [Candidate]
  | cons e items ih =>
      rw [List.foldl_cons, ih, mem_addEvent, or_assoc]
      simp [Candidate]

theorem mem_candidatesOf {items : List FeathrEvent} :
    value ∈ candidatesOf lower items ↔ Candidate lower items value := by
  simp [candidatesOf, mem_addEvents]

end Candidates

/-! ### The nearest of them -/

/-- What the loop has found among the candidates it has seen: nothing while there are none, and then
the first of the nearest with its distance. -/
inductive Nearest (typed : JsString) (seen : List JsString) : Best → Prop where
  | nothing (unseen : seen = []) : Nearest typed seen (none, ⊤)
  | found (best : JsString) (member : best ∈ seen)
      (least : ∀ candidate ∈ seen, levenshtein typed best ≤ levenshtein typed candidate) :
      Nearest typed seen (some best, WithTop.some (levenshtein typed best))

theorem Nearest.consider {typed : JsString} {seen : List JsString} {best : Best}
    (nearest : Nearest typed seen best) (candidate : JsString) :
    Nearest typed (seen ++ [candidate]) (best.consider typed candidate) := by
  unfold Best.consider
  rw [distance_eq]
  cases nearest with
  | nothing unseen =>
      subst unseen
      rw [if_pos (WithTop.coe_lt_top _)]
      exact .found candidate (by simp) (by simp)
  | found best member least =>
      by_cases nearer : levenshtein typed candidate < levenshtein typed best
      · rw [if_pos (WithTop.coe_lt_coe.mpr nearer)]
        refine .found candidate (by simp) fun other mem => ?_
        rcases List.mem_append.mp mem with mem | mem
        · exact nearer.le.trans (least other mem)
        · rw [List.mem_singleton.mp mem]
      · rw [if_neg fun less => nearer (WithTop.coe_lt_coe.mp less)]
        refine .found best (List.mem_append_left _ member) fun other mem => ?_
        rcases List.mem_append.mp mem with mem | mem
        · exact least other mem
        · rw [List.mem_singleton.mp mem]
          exact not_lt.mp nearer

theorem nearest_spec (typed : JsString) (candidates : List JsString) :
    Nearest typed candidates (nearest typed candidates) := by
  induction candidates using List.reverseRecOn with
  | nil => exact .nothing rfl
  | append_singleton seen candidate ih =>
      rw [nearest, List.foldl_concat]
      exact ih.consider candidate

section Correction

variable {typed : JsString} {seen : List JsString} {best : Best}

theorem Nearest.correction_none_iff (nearest : Nearest typed seen best) :
    best.correction = none ↔ ∀ value ∈ seen, maxEdits < levenshtein typed value := by
  cases nearest with
  | nothing unseen => simp [Best.correction, unseen]
  | found best member least =>
      by_cases near : levenshtein typed best ≤ maxEdits
      · rw [Best.correction, if_pos (WithTop.coe_le_coe.mpr near)]
        exact iff_of_false (Option.some_ne_none best) fun far => not_lt.mpr near (far best member)
      · rw [Best.correction, if_neg fun le => near (WithTop.coe_le_coe.mp le)]
        exact iff_of_true rfl fun value mem => (not_le.mp near).trans_le (least value mem)

theorem Nearest.correction_some {value : JsString} (nearest : Nearest typed seen best)
    (corrected : best.correction = some value) :
    value ∈ seen ∧ levenshtein typed value ≤ maxEdits ∧
      ∀ other ∈ seen, levenshtein typed value ≤ levenshtein typed other := by
  cases nearest with
  | nothing unseen => simp [Best.correction] at corrected
  | found best member least =>
      unfold Best.correction at corrected
      split at corrected
      · rename_i near
        cases corrected
        exact ⟨member, WithTop.coe_le_coe.mp near, least⟩
      · cases corrected

end Correction

/-! ### The correction -/

/-- What a correction of a query is, over the values that the hits carry: none where the query is
one of them or none is near enough, and otherwise one that no other is nearer than. -/
structure Corrects (lower : JsString → JsString) (query : JsString) (items : List FeathrEvent)
    (correction : Option JsString) : Prop where
  none_iff : correction = none ↔ lower (trim query) = [] ∨
    Candidate lower items (lower (trim query)) ∨
      ∀ value, Candidate lower items value → maxEdits < levenshtein (lower (trim query)) value
  nearest : ∀ best, correction = some best → Candidate lower items best ∧
    levenshtein (lower (trim query)) best ≤ maxEdits ∧
      ∀ value, Candidate lower items value →
        levenshtein (lower (trim query)) best ≤ levenshtein (lower (trim query)) value

theorem correctionFor_corrects (lower : JsString → JsString) (query : JsString)
    (items : List FeathrEvent) :
    Corrects lower query items (correctionFor lower query items) := by
  unfold correctionFor
  generalize typed_eq : lower (trim query) = typed
  have spec := nearest_spec typed (candidatesOf lower items)
  by_cases empty : typed = []
  · rw [if_pos empty]
    exact ⟨iff_of_true rfl (.inl (typed_eq.trans empty)), nofun⟩
  by_cases carried : typed ∈ candidatesOf lower items
  · rw [if_neg empty, if_pos carried]
    exact ⟨iff_of_true rfl (.inr (.inl (typed_eq ▸ mem_candidatesOf.mp carried))), nofun⟩
  rw [if_neg empty, if_neg carried]
  rw [mem_candidatesOf] at carried
  constructor
  · rw [spec.correction_none_iff, typed_eq]
    simp only [mem_candidatesOf, empty, carried, false_or]
  · intro best corrected
    have found := spec.correction_some corrected
    simpa only [typed_eq, mem_candidatesOf] using found

/-- Both halves of the module: the distance is the recursive Levenshtein distance of any two texts,
and what is made of it is a nearest one of the values that the hits carry. -/
theorem corrections_nearest :
    (∀ a b, distance a b = levenshtein a b) ∧
      ∀ lower query items, Corrects lower query items (correctionFor lower query items) :=
  ⟨distance_eq, correctionFor_corrects⟩

end Correction

end FeathrEvents
