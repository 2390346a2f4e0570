/-
Module: FeathrEvents.Lib.Paging
Purpose: Reading rows page by page, each page cut from an answer of its own that is sorted by a key but
  free in the order of the rows with one key, and when that reads every row exactly once.
Trusted boundary: none
Main exports: Answers, page, Collects, newer, notOlder, TiesTogether, filter_eq_window, page_of_ties,
  collects_pages, Collects.unique, enumerates_iff
-/
import Mathlib.Data.List.Sort
import Mathlib.Data.List.Perm.Basic
import Mathlib.Data.List.Nodup
import Mathlib.Data.List.Pairwise

namespace Paging

variable {α β γ : Type*} [LinearOrder β] (key : α → β)

/-- An order in which a store may give the rows: by falling key, in any order among equal keys. -/
structure Answers (rows found : List α) : Prop where
  perm : found.Perm rows
  falling : found.Pairwise fun first second => key second ≤ key first

/-- The page with this number of an answer. -/
def page (limit number : ℕ) (found : List α) : List α := (found.drop (number * limit)).take limit

/-- What is collected from the pages from this number on, until one is short. -/
inductive Collects (limit : ℕ) (pages : ℕ → List γ) : ℕ → List γ → Prop where
  | last {number : ℕ} (short : (pages number).length < limit) :
      Collects limit pages number (pages number)
  | more {number : ℕ} {rest : List γ} (whole : limit ≤ (pages number).length)
      (later : Collects limit pages (number + 1) rest) :
      Collects limit pages number (pages number ++ rest)

/-- How many rows have a greater key. -/
def newer (rows : List α) (moment : β) : ℕ := rows.countP fun row => moment < key row

/-- How many rows have this key or a greater one. -/
def notOlder (rows : List α) (moment : β) : ℕ := rows.countP fun row => moment ≤ key row

/-- The rows that share a key fall on one page.  Then no order among them can move a row to another
page. -/
def TiesTogether (limit : ℕ) (rows : List α) : Prop :=
  ∀ row ∈ rows, newer key rows (key row) / limit = (notOlder key rows (key row) - 1) / limit

instance (limit : ℕ) (rows : List α) : Decidable (TiesTogether key limit rows) :=
  inferInstanceAs (Decidable (∀ row ∈ rows,
    newer key rows (key row) / limit = (notOlder key rows (key row) - 1) / limit))

variable {key} {rows found before after : List α} {row : α} {limit : ℕ}

theorem answers_insertionSort (key : α → β) (rows : List α) :
    Answers key rows (rows.insertionSort fun one two => key two ≤ key one) where
  perm := List.perm_insertionSort ..
  falling := by
    have : Std.Total fun one two => key two ≤ key one := ⟨fun one two => le_total ..⟩
    have : IsTrans α fun one two => key two ≤ key one :=
      ⟨fun _ _ _ first second => second.trans first⟩
    exact List.pairwise_insertionSort ..

/-! ### Positions in an answer -/

theorem Answers.keys (answers : Answers key rows (before ++ row :: after)) :
    (∀ other ∈ before, key row ≤ key other) ∧ ∀ other ∈ after, key other ≤ key row := by
  obtain ⟨-, later, across⟩ := List.pairwise_append.mp answers.falling
  exact ⟨fun other member => across other member row (List.mem_cons_self ..),
    (List.pairwise_cons.mp later).1⟩

/-- A row stands after the rows with a greater key, and before those with a smaller one. -/
theorem Answers.position (answers : Answers key rows (before ++ row :: after)) :
    newer key rows (key row) ≤ before.length ∧ before.length < notOlder key rows (key row) := by
  obtain ⟨earlier, later⟩ := answers.keys
  rw [newer, notOlder, ← answers.perm.countP_eq, ← answers.perm.countP_eq]
  constructor
  · have none : after.countP (fun other => key row < key other) = 0 := by
      rw [List.countP_eq_zero]
      intro other member
      simpa using later other member
    simpa [none] using List.countP_le_length
  · have all : before.countP (fun other => key row ≤ key other) = before.length := by
      rw [List.countP_eq_length]
      intro other member
      simpa using earlier other member
    simp only [List.countP_append, all, List.countP_cons, le_refl, decide_true, if_true]
    omega

/-- The row at a position between those two counts has the key. -/
theorem Answers.key_of_position {moment : β} (answers : Answers key rows (before ++ row :: after))
    (enough : newer key rows moment ≤ before.length)
    (few : before.length < notOlder key rows moment) : key row = moment := by
  obtain ⟨earlier, later⟩ := answers.keys
  rw [newer, ← answers.perm.countP_eq] at enough
  rw [notOlder, ← answers.perm.countP_eq] at few
  apply le_antisymm
  · by_contra above
    have greater := not_le.mp above
    have all : before.countP (fun other => moment < key other) = before.length := by
      rw [List.countP_eq_length]
      intro other member
      simpa using greater.trans_le (earlier other member)
    simp only [List.countP_append, all, List.countP_cons, greater, decide_true, if_true] at enough
    omega
  · by_contra below
    have smaller := not_le.mp below
    have none : after.countP (fun other => moment ≤ key other) = 0 := by
      rw [List.countP_eq_zero]
      intro other member
      simpa using (later other member).trans_lt smaller
    have most : before.countP (fun other => moment ≤ key other) ≤ before.length :=
      List.countP_le_length
    simp only [List.countP_append, none, List.countP_cons, below, decide_false, Bool.false_eq_true,
      if_false] at few
    omega

/-! ### One page -/

/-- Elements that stand exactly in a window of the list are that window. -/
theorem filter_eq_window (elements : List γ) (wanted : γ → Bool) (low width : ℕ)
    (inside : ∀ first element second, elements = first ++ element :: second →
      (wanted element ↔ low ≤ first.length ∧ first.length < low + width)) :
    elements.filter wanted = (elements.drop low).take width := by
  have split : elements = elements.take low ++ ((elements.drop low).take width ++
      (elements.drop low).drop width) := by
    rw [List.take_append_drop, List.take_append_drop]
  have front : (elements.take low).filter wanted = [] := by
    rw [List.filter_eq_nil_iff]
    intro element member
    obtain ⟨first, second, shape⟩ := List.append_of_mem member
    have early := congrArg List.length shape
    rw [shape, List.append_assoc] at split
    rw [inside first element _ split]
    simp only [List.length_take, List.length_append, List.length_cons] at early
    omega
  have middle : ((elements.drop low).take width).filter wanted =
      (elements.drop low).take width := by
    rw [List.filter_eq_self]
    intro element member
    obtain ⟨first, second, shape⟩ := List.append_of_mem member
    have sizes := congrArg List.length shape
    rw [shape, List.append_assoc, ← List.append_assoc] at split
    rw [inside (elements.take low ++ first) element _ split]
    simp only [List.length_take, List.length_drop, List.length_append, List.length_cons] at sizes ⊢
    omega
  have back : ((elements.drop low).drop width).filter wanted = [] := by
    rw [List.filter_eq_nil_iff]
    intro element member
    obtain ⟨first, second, shape⟩ := List.append_of_mem member
    have sizes := congrArg List.length shape
    rw [shape, ← List.append_assoc, ← List.append_assoc] at split
    rw [inside _ element _ split]
    simp only [List.length_take, List.length_drop, List.length_append, List.length_cons] at sizes ⊢
    omega
  calc elements.filter wanted
      = (elements.take low).filter wanted ++ (((elements.drop low).take width).filter wanted ++
          ((elements.drop low).drop width).filter wanted) := by
        rw [← List.filter_append, ← List.filter_append, ← split]
    _ = (elements.drop low).take width := by
        rw [front, middle, back, List.nil_append, List.append_nil]

/-- When the ties fall together a page has the same rows in every answer. -/
theorem page_of_ties (positive : 1 ≤ limit) (answers : Answers key rows found)
    (together : TiesTogether key limit rows) (number : ℕ) :
    page limit number found =
      found.filter fun row => newer key rows (key row) / limit = number := by
  symm
  apply filter_eq_window
  rintro first row second rfl
  obtain ⟨after, before⟩ := answers.position
  have member : row ∈ rows := answers.perm.subset (by simp)
  have least := Nat.div_le_div_right (c := limit) after
  have most := Nat.div_le_div_right (c := limit) (Nat.le_pred_of_lt before)
  have same : newer key rows (key row) / limit = first.length / limit := by
    have tied := together row member
    rw [Nat.pred_eq_sub_one] at most
    omega
  rw [decide_eq_true_eq, same, Nat.div_eq_iff positive]
  omega

/-! ### All pages -/

theorem Collects.unique {pages : ℕ → List γ} {number : ℕ} {first second : List γ}
    (one : Collects limit pages number first) (two : Collects limit pages number second) :
    first = second := by
  induction one generalizing second with
  | last short =>
      cases two with
      | last _ => rfl
      | more whole _ => exact absurd short (not_lt.mpr whole)
  | more whole _ ih =>
      cases two with
      | last short => exact absurd short (not_lt.mpr whole)
      | more _ later => rw [ih later]

/-- Whole pages and a short one after them are collected one after the other. -/
theorem collects_pages {pages : ℕ → List γ} {number : ℕ} (count : ℕ)
    (whole : ∀ later < count, limit ≤ (pages (number + later)).length)
    (short : (pages (number + count)).length < limit) :
    Collects limit pages number ((List.range' number (count + 1)).flatMap pages) := by
  induction count generalizing number with
  | zero => simpa using Collects.last short
  | succ count ih =>
      rw [List.range'_succ, List.flatMap_cons]
      apply Collects.more
      · exact whole 0 (Nat.succ_pos count)
      · apply ih
        · intro later few
          have here := whole (later + 1) (by omega)
          rwa [← Nat.add_assoc, Nat.add_right_comm] at here
        · rwa [Nat.add_assoc, Nat.add_comm 1 count]

theorem length_page (limit number : ℕ) (found : List α) :
    (page limit number found).length = min limit (found.length - number * limit) := by
  rw [page, List.length_take, List.length_drop]

theorem mem_page {number : ℕ} (early : number * limit ≤ before.length)
    (late : before.length < number * limit + limit) :
    row ∈ page limit number (before ++ row :: after) := by
  have few : (before.drop (number * limit)).length < limit := by
    rw [List.length_drop]
    omega
  obtain ⟨room, more⟩ := Nat.exists_eq_add_of_lt few
  rw [page, List.drop_append_of_le_length early, List.take_append, List.take_of_length_le few.le]
  apply List.mem_append_right
  have taken : limit - (before.drop (number * limit)).length = room + 1 := by omega
  rw [taken, List.take_succ_cons]
  exact List.mem_cons_self ..

/-- The pages of answers of one length up to the short one are collected. -/
theorem collects_of_length (positive : 1 ≤ limit) (shown : α → γ) {answers : ℕ → List α} {size : ℕ}
    (lengths : ∀ number, (answers number).length = size) :
    Collects limit (fun number => (page limit number (answers number)).map shown) 0
      ((List.range' 0 (size / limit + 1)).flatMap fun number =>
        (page limit number (answers number)).map shown) := by
  have parts := Nat.div_add_mod' size limit
  have rest := Nat.mod_lt size positive
  apply collects_pages
  · intro number few
    have room : (number + 1) * limit ≤ size / limit * limit := Nat.mul_le_mul_right limit few
    rw [Nat.add_one_mul] at room
    rw [List.length_map, Nat.zero_add, length_page, lengths]
    apply Nat.le_min.mpr
    omega
  · rw [List.length_map, Nat.zero_add, length_page, lengths]
    exact (Nat.min_le_right ..).trans_lt (by omega)

/-- The rows of the pages up to a number are the rows that belong on these. -/
theorem flatMap_filter_perm (pageOf : α → ℕ) (rows : List α) (count : ℕ) :
    ((List.range' 0 count).flatMap fun number => rows.filter fun row => pageOf row = number).Perm
      (rows.filter fun row => pageOf row < count) := by
  induction count with
  | zero => simp
  | succ count ih =>
      have split := List.filter_append_perm (fun row => pageOf row < count)
        (rows.filter fun row => pageOf row < count + 1)
      simp only [List.filter_filter] at split
      rw [List.range'_concat, List.flatMap_append]
      apply List.Perm.trans _ split
      have earlier : (rows.filter fun row => decide (pageOf row < count) &&
          decide (pageOf row < count + 1)) = rows.filter fun row => pageOf row < count := by
        apply List.filter_congr
        intro row _
        simp only [← Bool.decide_and]
        apply decide_eq_decide.mpr
        omega
      have last : (rows.filter fun row => !decide (pageOf row < count) &&
          decide (pageOf row < count + 1)) = rows.filter fun row => pageOf row = count := by
        apply List.filter_congr
        intro row _
        simp only [← decide_not, ← Bool.decide_and]
        apply decide_eq_decide.mpr
        omega
      rw [earlier, last]
      simpa using ih.append_right _

/-- Collecting the pages reads every row exactly once, whatever answer each page is cut from.  A
store that breaks ties as it likes gives another answer for each page. -/
def Enumerates (key : α → β) (shown : α → γ) (limit : ℕ) (rows : List α) : Prop :=
  ∀ answers : ℕ → List α, (∀ number, Answers key rows (answers number)) →
    ∃ items, Collects limit (fun number => (page limit number (answers number)).map shown) 0 items ∧
      items.Perm (rows.map shown)

theorem enumerates_of_ties (positive : 1 ≤ limit) (shown : α → γ)
    (together : TiesTogether key limit rows) : Enumerates key shown limit rows := by
  intro answers allowed
  refine ⟨_, collects_of_length positive shown fun number => (allowed number).perm.length_eq, ?_⟩
  have pages : ∀ number, ((page limit number (answers number)).map shown).Perm
      ((rows.filter fun row => newer key rows (key row) / limit = number).map shown) := by
    intro number
    rw [page_of_ties positive (allowed number) together]
    exact ((allowed number).perm.filter _).map shown
  have all : (rows.filter fun row => newer key rows (key row) / limit < rows.length / limit + 1) =
      rows := by
    rw [List.filter_eq_self]
    intro row _
    have most : newer key rows (key row) ≤ rows.length := List.countP_le_length
    exact decide_eq_true (Nat.lt_succ_of_le (Nat.div_le_div_right most))
  apply (List.Perm.flatMap_left _ fun number _ => pages number).trans
  rw [← List.map_flatMap]
  apply List.Perm.map
  apply (flatMap_filter_perm _ rows _).trans
  rw [all]

/-- A list cut between two of its members. -/
theorem cut_between {rows : List α} {boundary : ℕ} (positive : 1 ≤ boundary)
    (within : boundary < rows.length) :
    ∃ before last first after, rows = before ++ last :: first :: after ∧
      before.length + 1 = boundary := by
  refine ⟨rows.take (boundary - 1), rows[boundary - 1], rows[boundary], rows.drop (boundary + 1),
    ?_, ?_⟩
  · have cut := List.take_append_drop (boundary - 1) rows
    rw [List.drop_eq_getElem_cons (by omega), Nat.sub_add_cancel positive,
      List.drop_eq_getElem_cons within] at cut
    exact cut.symm
  · rw [List.length_take]
    omega

/-- Ties that straddle the end of a page: two rows with one key at the end of a page and at the start
of the next one. -/
theorem straddling_of_not_together (positive : 1 ≤ limit) (answers : Answers key rows found)
    (apart : ¬ TiesTogether key limit rows) :
    ∃ number before last first after, found = before ++ last :: first :: after ∧
      key last = key first ∧ before.length + 1 = (number + 1) * limit := by
  simp only [TiesTogether, not_forall] at apart
  obtain ⟨row, member, apart⟩ := apart
  have some : 1 ≤ notOlder key rows (key row) :=
    List.countP_pos_iff.mpr ⟨row, member, decide_eq_true le_rfl⟩
  have fewer : newer key rows (key row) ≤ notOlder key rows (key row) - 1 := by
    obtain ⟨before, after, rfl⟩ := List.append_of_mem (answers.perm.symm.subset member)
    have between := answers.position
    omega
  have next : newer key rows (key row) / limit + 1 ≤ (notOlder key rows (key row) - 1) / limit := by
    have least := Nat.div_le_div_right (c := limit) fewer
    omega
  have low := Nat.lt_mul_div_succ (newer key rows (key row)) positive
  have high := (Nat.le_div_iff_mul_le positive).mp next
  have most : notOlder key rows (key row) ≤ found.length := by
    rw [answers.perm.length_eq]
    exact List.countP_le_length
  set boundary := (newer key rows (key row) / limit + 1) * limit with boundary_eq
  have later : newer key rows (key row) < boundary := by rwa [boundary_eq, Nat.mul_comm]
  obtain ⟨before, last, first, after, shape, length⟩ :=
    cut_between (by omega : 1 ≤ boundary) (by omega : boundary < found.length)
  refine ⟨_, before, last, first, after, shape, ?_, length.trans boundary_eq⟩
  have early : key last = key row := by
    apply (shape ▸ answers).key_of_position <;> omega
  have late : key first = key row := by
    have shifted : found = (before ++ [last]) ++ first :: after := by
      rw [List.append_assoc]
      exact shape
    apply (shifted ▸ answers).key_of_position <;>
      rw [List.length_append, List.length_singleton] <;> omega
  rw [early, late]

/-- Exchanging two neighbours with one key gives another answer. -/
theorem Answers.exchange {one two : α}
    (answers : Answers key rows (before ++ one :: two :: after)) (tied : key one = key two) :
    Answers key rows (before ++ two :: one :: after) where
  perm := ((List.Perm.swap one two after).append_left before).trans answers.perm
  falling := by
    have falling := answers.falling
    simp only [List.pairwise_append, List.pairwise_cons, List.mem_cons, forall_eq_or_imp] at falling ⊢
    obtain ⟨left, ⟨⟨-, first⟩, second, right⟩, across⟩ := falling
    refine ⟨left, ⟨⟨tied.le, second⟩, first, right⟩, ?_⟩
    intro other member
    obtain ⟨toOne, toTwo, rest⟩ := across other member
    exact ⟨toTwo, toOne, rest⟩

/-- What is read once is on one page. -/
theorem page_unique {pages : ℕ → List γ} {numbers : List ℕ} (nodup : (numbers.flatMap pages).Nodup)
    {first second : ℕ} (one : first ∈ numbers) (two : second ∈ numbers) {item : γ}
    (here : item ∈ pages first) (there : item ∈ pages second) : first = second := by
  by_contra different
  have disjoint := (List.nodup_flatMap.mp nodup).2
  have : Std.Symm (Function.onFun List.Disjoint pages) := ⟨fun _ _ apart _ one two => apart two one⟩
  exact disjoint.forall one two different here there

/-- Every row is read exactly once, whatever the answers are, exactly when no tie straddles the end of
a page. -/
theorem enumerates_iff (positive : 1 ≤ limit) {shown : α → γ} (distinct : (rows.map shown).Nodup) :
    Enumerates key shown limit rows ↔ TiesTogether key limit rows := by
  refine ⟨?_, enumerates_of_ties positive shown⟩
  intro enumerates
  by_contra apart
  have sorted := answers_insertionSort key rows
  obtain ⟨number, before, last, first, after, shape, tied, boundary⟩ :=
    straddling_of_not_together positive sorted apart
  rw [shape] at sorted
  have exchanged := sorted.exchange tied
  set answers : ℕ → List α := fun other =>
    if other ≤ number then before ++ last :: first :: after
    else before ++ first :: last :: after with answers_eq
  have allowed : ∀ other, Answers key rows (answers other) := by
    intro other
    by_cases early : other ≤ number
    · simpa [answers_eq, early] using sorted
    · simpa [answers_eq, early] using exchanged
  obtain ⟨items, collected, once⟩ := enumerates answers allowed
  have same := collected.unique
    (collects_of_length positive shown fun other => (allowed other).perm.length_eq)
  have nodup : items.Nodup := once.nodup_iff.mpr distinct
  rw [same] at nodup
  have size : (number + 1) * limit < rows.length := by
    rw [← sorted.perm.length_eq, List.length_append, List.length_cons, List.length_cons]
    omega
  have most : number + 1 ≤ rows.length / limit :=
    (Nat.le_div_iff_mul_le positive).mpr size.le
  have product := Nat.add_one_mul number limit
  -- the last row of one page is the first of the next one
  have here : last ∈ page limit number (answers number) := by
    simp only [answers_eq, le_refl, if_true]
    apply mem_page <;> omega
  have again : last ∈ page limit (number + 1) (answers (number + 1)) := by
    have moved : before ++ first :: last :: after = (before ++ [first]) ++ last :: after := by simp
    simp only [answers_eq, Nat.not_succ_le_self, if_false, moved]
    apply mem_page <;> rw [List.length_append, List.length_singleton] <;> omega
  have once := page_unique nodup (List.mem_range'_1.mpr (by omega))
    (List.mem_range'_1.mpr (by omega)) (List.mem_map_of_mem here) (List.mem_map_of_mem again)
  exact Nat.succ_ne_self number once.symm

end Paging
