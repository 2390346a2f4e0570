/-
Module: FeathrEvents.Lib.Histogram
Purpose: Rows of counts grouped by a key, and dense arrays of counts per key that are filled from such
  rows: what each slot holds, and that nothing is counted twice or lost.
Trusted boundary: none
Main exports: Histogram.Groups, Histogram.Groups.sum_filter, Histogram.Groups.sum_of_finer,
  Histogram.groups_dedup, Histogram.Item, Histogram.tally, Histogram.mem_keys_iff, Histogram.get?_tally,
  Histogram.sum_tally
-/
import Mathlib.Algebra.BigOperators.Group.List.Basic
import Mathlib.Algebra.GroupWithZero.Nat
import Mathlib.Data.List.Dedup
import FeathrEvents.Lib.OrderedDict

namespace Histogram

open Collections (OrderedDict)

/-! ### Grouping -/

section Grouping

variable {α κ ρ : Type*} [DecidableEq κ]

/-- One row for every key that occurs, with the number of its elements: the result of a grouping, in
no particular order. -/
structure Groups (key : α → κ) (name : ρ → κ) (count : ρ → ℕ) (elements : List α)
    (rows : List ρ) : Prop where
  distinct : (rows.map name).Nodup
  counted : ∀ row ∈ rows, count row = elements.countP fun element => key element = name row
  covers : ∀ element ∈ elements, key element ∈ rows.map name
  occupied : ∀ row ∈ rows, ∃ element ∈ elements, key element = name row

/-- Elements counted key by key, over distinct keys. -/
theorem sum_countP (key : α → κ) (elements : List α) {keys : List κ} (distinct : keys.Nodup) :
    (keys.map fun name => elements.countP fun element => key element = name).sum =
      elements.countP fun element => key element ∈ keys := by
  induction keys with
  | nil => simp
  | cons name keys ih =>
      rw [List.nodup_cons] at distinct
      rw [List.map_cons, List.sum_cons, ih distinct.2]
      clear ih
      induction elements with
      | nil => rfl
      | cons element elements ih =>
          simp only [List.countP_cons, List.mem_cons, decide_eq_true_eq] at ih ⊢
          by_cases here : key element = name
          · simp only [here, distinct.1, if_true, if_false, true_or]
            omega
          · simp only [here, if_false, false_or]
            omega

theorem Groups.count_pos {key : α → κ} {name : ρ → κ} {count : ρ → ℕ} {elements : List α}
    {rows : List ρ} (groups : Groups key name count elements rows) {row : ρ} (listed : row ∈ rows) :
    0 < count row := by
  obtain ⟨element, member, same⟩ := groups.occupied row listed
  rw [groups.counted row listed, List.countP_pos_iff]
  exact ⟨element, member, decide_eq_true same⟩

/-- The counts of the rows with some property are the number of elements with it. -/
theorem Groups.sum_filter {key : α → κ} {name : ρ → κ} {count : ρ → ℕ} {elements : List α}
    {rows : List ρ} (groups : Groups key name count elements rows) (wanted : κ → Bool) :
    ((rows.filter fun row => wanted (name row)).map count).sum =
      elements.countP fun element => wanted (key element) := by
  have distinct : ((rows.filter fun row => wanted (name row)).map name).Nodup :=
    groups.distinct.sublist (List.filter_sublist.map name)
  have counts : (rows.filter fun row => wanted (name row)).map count =
      ((rows.filter fun row => wanted (name row)).map name).map
        fun key' => elements.countP fun element => key element = key' := by
    rw [List.map_map]
    apply List.map_congr_left
    intro row member
    exact groups.counted row (List.mem_filter.mp member).1
  rw [counts, sum_countP key elements distinct]
  apply List.countP_congr
  intro element member
  simp only [List.mem_map, List.mem_filter, decide_eq_true_eq]
  constructor
  · rintro ⟨row, ⟨-, some⟩, same⟩
    rwa [← same]
  · intro some
    obtain ⟨row, listed, same⟩ := List.mem_map.mp (groups.covers element member)
    exact ⟨row, ⟨listed, by rwa [same]⟩, same⟩

/-- The counts of coarser groups are the sums of the counts of finer ones. -/
theorem Groups.sum_of_finer {key : α → κ} {name : ρ → κ} {count : ρ → ℕ} {elements : List α}
    {rows : List ρ} (finer : Groups key name count elements rows) {κ' ρ' : Type*} [DecidableEq κ']
    {key' : α → κ'} {name' : ρ' → κ'} {count' : ρ' → ℕ} {rows' : List ρ'}
    (coarser : Groups key' name' count' elements rows') (part : κ → κ')
    (parts : ∀ element, key' element = part (key element)) {row' : ρ'} (listed : row' ∈ rows') :
    count' row' = ((rows.filter fun row => part (name row) = name' row').map count).sum := by
  rw [coarser.counted row' listed, finer.sum_filter fun key => decide (part key = name' row')]
  simp only [parts]

/-- The order of the rows does not matter. -/
theorem Groups.perm {key : α → κ} {name : ρ → κ} {count : ρ → ℕ} {elements : List α}
    {rows others : List ρ} (groups : Groups key name count elements rows) (same : others.Perm rows) :
    Groups key name count elements others where
  distinct := (same.map name).nodup_iff.mpr groups.distinct
  counted row listed := groups.counted row (same.mem_iff.mp listed)
  covers element member := (same.map name).mem_iff.mpr (groups.covers element member)
  occupied row listed := groups.occupied row (same.mem_iff.mp listed)

/-- The rows of the keys that occur, each made with its number of elements. -/
theorem groups_dedup (key : α → κ) {name : ρ → κ} {count : ρ → ℕ} (make : κ → ℕ → ρ)
    (named : ∀ key number, name (make key number) = key)
    (numbered : ∀ key number, count (make key number) = number) (elements : List α) :
    Groups key name count elements ((elements.map key).dedup.map fun one =>
      make one (elements.countP fun element => key element = one)) where
  distinct := by
    rw [List.map_map]
    have same : (name ∘ fun one => make one (elements.countP fun element => key element = one)) = id :=
      funext fun one => named one _
    rw [same, List.map_id]
    exact List.nodup_dedup _
  counted row listed := by
    obtain ⟨one, -, rfl⟩ := List.mem_map.mp listed
    rw [named, numbered]
  covers element member := by
    rw [List.map_map, List.mem_map]
    exact ⟨key element, List.mem_dedup.mpr (List.mem_map_of_mem member), named _ _⟩
  occupied row listed := by
    obtain ⟨one, occurs, rfl⟩ := List.mem_map.mp listed
    obtain ⟨element, member, same⟩ := List.mem_map.mp (List.mem_dedup.mp occurs)
    exact ⟨element, member, same.trans (named _ _).symm⟩

end Grouping

/-! ### Dense counts -/

/-- A count for one slot of one key. -/
structure Item (κ : Type*) where
  key : κ
  slot : ℕ
  count : ℕ

variable {κ : Type*} [DecidableEq κ]

/-- Add a count to its slot; a new key starts with nothing in any slot. -/
def add (slots : ℕ) (tallies : OrderedDict κ (List ℕ)) (item : Item κ) :
    OrderedDict κ (List ℕ) :=
  let counts := (tallies.get? item.key).getD (List.replicate slots 0)
  tallies.set item.key (counts.modify item.slot (· + item.count))

def tally (slots : ℕ) (items : List (Item κ)) : OrderedDict κ (List ℕ) :=
  items.foldl (add slots) .empty

/-- What the items give to a slot of a key: the sum of their counts.  An exact histogram has this in
each of its slots. -/
def given (items : List (Item κ)) (key : κ) (slot : ℕ) : ℕ :=
  ((items.filter fun item => item.key = key ∧ item.slot = slot).map Item.count).sum

theorem tally_snoc (slots : ℕ) (items : List (Item κ)) (item : Item κ) :
    tally slots (items ++ [item]) = add slots (tally slots items) item := by
  rw [tally, List.foldl_append]
  rfl

theorem given_snoc (items : List (Item κ)) (item : Item κ) (key : κ) (slot : ℕ) :
    given (items ++ [item]) key slot = given items key slot +
      if item.key = key ∧ item.slot = slot then item.count else 0 := by
  rw [given, List.filter_append, List.map_append, List.sum_append, List.filter_singleton]
  by_cases here : item.key = key ∧ item.slot = slot <;> simp [here, given]

theorem given_of_absent {items : List (Item κ)} {key : κ} (absent : key ∉ items.map Item.key)
    (slot : ℕ) : given items key slot = 0 := by
  have none : (items.filter fun item => item.key = key ∧ item.slot = slot) = [] := by
    apply List.filter_eq_nil_iff.mpr
    intro item member
    have other : item.key ≠ key := fun same => absent (same ▸ List.mem_map_of_mem member)
    simp [other]
  rw [given, none]
  rfl

/-- The keys that occur are those that something was counted for. -/
theorem mem_keys_iff {items : List (Item κ)} (positive : ∀ item ∈ items, 0 < item.count) (key : κ) :
    key ∈ items.map Item.key ↔
      0 < ((items.filter fun item => item.key = key).map Item.count).sum := by
  induction items with
  | nil => simp
  | cons item items ih =>
      have later := ih fun other member => positive other (List.mem_cons_of_mem _ member)
      have some := positive item (List.mem_cons_self ..)
      by_cases here : item.key = key
      · simp only [here, List.map_cons, List.mem_cons, true_or, decide_true,
          List.filter_cons_of_pos, List.sum_cons, true_iff]
        omega
      · have other : key ≠ item.key := fun same => here same.symm
        simpa [here, other] using later

/-- A key that occurs has its dense counts, one for each slot. -/
theorem get?_tally (slots : ℕ) (items : List (Item κ)) (key : κ) :
    (tally slots items).get? key =
      if key ∈ items.map Item.key then some ((List.range slots).map (given items key)) else none := by
  induction items using List.reverseRecOn with
  | nil => rfl
  | append_singleton items item ih =>
      rw [tally_snoc, add, OrderedDict.get?_set]
      by_cases here : key = item.key
      · subst here
        have counts : ((tally slots items).get? item.key).getD (List.replicate slots 0) =
            (List.range slots).map (given items item.key) := by
          rw [ih]
          split
          · rfl
          · rename_i absent
            apply List.ext_getElem
            · simp
            · intro slot _ _
              simp [given_of_absent absent]
        rw [if_pos rfl, if_pos (by simp), counts]
        congr 1
        apply List.ext_getElem
        · simp
        · intro slot _ _
          simp only [List.getElem_modify, List.getElem_map, List.getElem_range, given_snoc,
            true_and]
          split <;> rfl
      · have others : ∀ slot, given (items ++ [item]) key slot = given items key slot := by
          intro slot
          have different : item.key ≠ key := fun same => here same.symm
          rw [given_snoc, if_neg (fun both => different both.1), Nat.add_zero]
        rw [if_neg here, ih]
        simp [here, funext others]

/-- Assigning a value exchanges what it adds to a sum over the values. -/
theorem sum_values_set {ν : Type*} (weight : ν → ℕ) (dict : OrderedDict κ ν) (key : κ) (value : ν) :
    ((dict.set key value).values.map weight).sum + ((dict.get? key).elim 0 weight) =
      (dict.values.map weight).sum + weight value := by
  cases stored : dict.get? key with
  | none =>
      simp [OrderedDict.values, OrderedDict.items_set_of_get?_eq_none value stored]
  | some old =>
      have before := ((OrderedDict.values_perm_erase stored).map weight).sum_eq
      have now : (dict.set key value).get? key = some value := by
        rw [OrderedDict.get?_set, if_pos rfl]
      have after := ((OrderedDict.values_perm_erase now).map weight).sum_eq
      rw [OrderedDict.erase_set] at after
      rw [before, after, List.map_cons, List.map_cons, List.sum_cons, List.sum_cons,
        Option.elim_some]
      omega

theorem sum_modify (counts : List ℕ) {slot : ℕ} (inside : slot < counts.length) (count : ℕ) :
    (counts.modify slot (· + count)).sum = counts.sum + count := by
  induction counts generalizing slot with
  | nil => cases inside
  | cons first counts ih =>
      cases slot with
      | zero =>
          simp only [List.modify_zero_cons, List.sum_cons]
          omega
      | succ slot =>
          simp only [List.modify_succ_cons, List.sum_cons, ih (Nat.lt_of_succ_lt_succ inside)]
          omega

/-- The counts of all keys together are what the items gave. -/
theorem sum_tally (slots : ℕ) (items : List (Item κ)) (inside : ∀ item ∈ items, item.slot < slots) :
    ((tally slots items).values.map List.sum).sum = (items.map Item.count).sum := by
  induction items using List.reverseRecOn with
  | nil => rfl
  | append_singleton items item ih =>
      have before := ih fun other member => inside other (List.mem_append_left _ member)
      rw [tally_snoc, add]
      have exchanged := sum_values_set List.sum (tally slots items) item.key
        ((((tally slots items).get? item.key).getD (List.replicate slots 0)).modify item.slot
          (· + item.count))
      have room : item.slot <
          (((tally slots items).get? item.key).getD (List.replicate slots 0)).length := by
        have here := inside item (by simp)
        rw [get?_tally]
        split <;> simpa using here
      rw [sum_modify _ room] at exchanged
      rw [List.map_append, List.sum_append, ← before, List.map_singleton, List.sum_singleton]
      cases stored : (tally slots items).get? item.key with
      | none =>
          simp only [stored, Option.elim_none, Option.getD_none, List.sum_replicate, nsmul_zero]
            at exchanged ⊢
          omega
      | some counts =>
          simp only [stored, Option.elim_some, Option.getD_some] at exchanged ⊢
          omega

end Histogram
