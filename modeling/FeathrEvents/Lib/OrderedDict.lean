/-
Module: FeathrEvents.Lib.OrderedDict
Purpose: Finite maps that remember the order in which their keys were inserted, with the lookup
  law of every operation.  A new key goes to the end, an update keeps the place of its key.
Trusted boundary: none
Main exports: OrderedDict, OrderedDict.get?, OrderedDict.set, OrderedDict.modify,
  OrderedDict.erase, OrderedDict.get?_set, OrderedDict.get?_modify, OrderedDict.get?_erase,
  OrderedDict.get?_foldl_set, OrderedDict.values_nodup
-/
import Mathlib.Data.List.Induction
import Mathlib.Data.List.Nodup

namespace Collections

/-- An insertion-ordered dictionary.  Distinctness of the keys is part of the value, so a
dictionary with a repeated key cannot be built. -/
structure OrderedDict (κ ν : Type*) where
  items : List (κ × ν)
  distinct : (items.map Prod.fst).Nodup

namespace OrderedDict

variable {κ ν : Type*}

/-- The dictionary without entries. -/
def empty : OrderedDict κ ν := ⟨[], List.nodup_nil⟩

instance : Inhabited (OrderedDict κ ν) := ⟨empty⟩

/-- Keys in insertion order. -/
def keys (dict : OrderedDict κ ν) : List κ := dict.items.map Prod.fst

/-- Values in the insertion order of their keys. -/
def values (dict : OrderedDict κ ν) : List ν := dict.items.map Prod.snd

/-- Number of entries. -/
def size (dict : OrderedDict κ ν) : ℕ := dict.items.length

theorem nodup_keys (dict : OrderedDict κ ν) : dict.keys.Nodup := dict.distinct

private theorem distinct_append {items : List (κ × ν)} {key : κ} (value : ν)
    (distinct : (items.map Prod.fst).Nodup) (absent : key ∉ items.map Prod.fst) :
    ((items ++ [(key, value)]).map Prod.fst).Nodup := by
  rw [List.map_append]
  apply List.Nodup.append distinct (List.nodup_singleton key)
  intro other member single
  simp only [List.mem_singleton] at single
  exact absent (single ▸ member)

variable [DecidableEq κ]

/-- The value stored under a key, if there is one. -/
def get? (dict : OrderedDict κ ν) (key : κ) : Option ν :=
  (dict.items.find? fun item => item.1 = key).map Prod.snd

private theorem keys_mapped (items : List (κ × ν)) (key : κ) (update : ν → ν) :
    (items.map fun item =>
      if item.1 = key then (item.1, update item.2) else item).map Prod.fst =
      items.map Prod.fst := by
  rw [List.map_map]
  apply List.map_congr_left
  intro item _
  simp only [Function.comp_apply]
  split <;> rfl

/-- Update the value under a key in place; a missing key changes nothing. -/
def modify (dict : OrderedDict κ ν) (key : κ) (update : ν → ν) : OrderedDict κ ν where
  items := dict.items.map fun item =>
    if item.1 = key then (item.1, update item.2) else item
  distinct := by
    rw [keys_mapped]
    exact dict.distinct

/-- Remove a key and its value; a missing key changes nothing. -/
def erase (dict : OrderedDict κ ν) (key : κ) : OrderedDict κ ν where
  items := dict.items.filter fun item => item.1 ≠ key
  distinct := dict.distinct.sublist (List.filter_sublist.map Prod.fst)

/-- Assign a value to a key: in place when the key is there, at the end otherwise. -/
def set (dict : OrderedDict κ ν) (key : κ) (value : ν) : OrderedDict κ ν :=
  if present : key ∈ dict.items.map Prod.fst then
    dict.modify key fun _ => value
  else
    ⟨dict.items ++ [(key, value)], distinct_append value dict.distinct present⟩

/-- Move a key with its value to the end; a missing key changes nothing. -/
def moveToEnd (dict : OrderedDict κ ν) (key : κ) : OrderedDict κ ν :=
  match dict.get? key with
  | none => dict
  | some value => (dict.erase key).set key value

omit [DecidableEq κ] in
/-- Drop the first items. -/
def dropFirst (dict : OrderedDict κ ν) (count : ℕ) : OrderedDict κ ν where
  items := dict.items.drop count
  distinct := dict.distinct.sublist ((List.drop_sublist count dict.items).map Prod.fst)

/-! ### Lookup -/

/-- A lookup succeeds with exactly the value listed under the key. -/
theorem get?_eq_some {dict : OrderedDict κ ν} {key : κ} {value : ν} :
    dict.get? key = some value ↔ (key, value) ∈ dict.items := by
  obtain ⟨items, distinct⟩ := dict
  simp only [get?]
  induction items with
  | nil => simp
  | cons item items ih =>
      obtain ⟨first, stored⟩ := item
      simp only [List.map_cons, List.nodup_cons] at distinct
      by_cases same : first = key
      · subst same
        have absent : (first, value) ∉ items := fun member =>
          distinct.1 (List.mem_map_of_mem (f := Prod.fst) member)
        simp [absent, eq_comm]
      · have other : key ≠ first := fun equal => same equal.symm
        simp only [List.find?_cons, same, decide_false, List.mem_cons, Prod.mk.injEq, other,
          false_and, false_or]
        exact ih distinct.2

/-- A lookup fails exactly for the keys that are not listed. -/
theorem get?_eq_none {dict : OrderedDict κ ν} {key : κ} :
    dict.get? key = none ↔ key ∉ dict.keys := by
  simp only [get?, keys, Option.map_eq_none_iff, List.find?_eq_none, decide_eq_true_eq,
    List.mem_map, not_exists, not_and]

theorem mem_keys {dict : OrderedDict κ ν} {key : κ} :
    key ∈ dict.keys ↔ ∃ value, dict.get? key = some value := by
  rw [← Option.ne_none_iff_exists', ne_eq, get?_eq_none, not_not]

theorem mem_values {dict : OrderedDict κ ν} {value : ν} :
    value ∈ dict.values ↔ ∃ key, dict.get? key = some value := by
  simp only [values, List.mem_map, get?_eq_some, Prod.exists, exists_eq_right]

@[simp, grind =] theorem get?_empty (key : κ) : (empty : OrderedDict κ ν).get? key = none := rfl

@[simp, grind =] theorem get?_modify (dict : OrderedDict κ ν) (key other : κ) (update : ν → ν) :
    (dict.modify key update).get? other =
      if other = key then (dict.get? other).map update else dict.get? other := by
  obtain ⟨items, distinct⟩ := dict
  simp only [get?, modify]
  clear distinct
  induction items with
  | nil => simp
  | cons item items ih =>
      simp only [List.map_cons, List.find?_cons]
      by_cases here : item.1 = key
      · by_cases found : item.1 = other
        · simp [← here, found]
        · have different : ¬ key = other := fun equal => found (here.trans equal)
          simpa [here, different] using ih
      · by_cases found : item.1 = other
        · have different : ¬ other = key := fun equal => here (found.trans equal)
          simp [found, different]
        · simpa [here, found] using ih

@[simp, grind =] theorem get?_erase (dict : OrderedDict κ ν) (key other : κ) :
    (dict.erase key).get? other = if other = key then none else dict.get? other := by
  apply Option.ext
  intro value
  rw [get?_eq_some]
  by_cases same : other = key
  · simp [erase, same]
  · simp [erase, same, get?_eq_some]

@[simp, grind =] theorem get?_set (dict : OrderedDict κ ν) (key other : κ) (value : ν) :
    (dict.set key value).get? other = if other = key then some value else dict.get? other := by
  unfold set
  split
  · rename_i present
    obtain ⟨old, stored⟩ := mem_keys.mp present
    by_cases same : other = key
    · simp [same, stored]
    · simp [same]
  · rename_i absent
    apply Option.ext
    intro found
    rw [get?_eq_some]
    by_cases same : other = key
    · have missing : (key, found) ∉ dict.items := fun member =>
        absent (List.mem_map_of_mem (f := Prod.fst) member)
      simp [same, missing, eq_comm]
    · simp [same, get?_eq_some]

/-! ### Keys, values and size -/

@[simp, grind =] theorem keys_modify (dict : OrderedDict κ ν) (key : κ) (update : ν → ν) :
    (dict.modify key update).keys = dict.keys :=
  keys_mapped dict.items key update

@[simp, grind =] theorem size_modify (dict : OrderedDict κ ν) (key : κ) (update : ν → ν) :
    (dict.modify key update).size = dict.size := by
  simp [size, modify]

theorem size_erase_le (dict : OrderedDict κ ν) (key : κ) : (dict.erase key).size ≤ dict.size :=
  List.length_filter_le _ _

/-- Assigning to a new key adds one entry at the end. -/
theorem items_set_of_get?_eq_none {dict : OrderedDict κ ν} {key : κ} (value : ν)
    (absent : dict.get? key = none) :
    (dict.set key value).items = dict.items ++ [(key, value)] := by
  have missing : ¬ key ∈ dict.items.map Prod.fst := get?_eq_none.mp absent
  simp only [set, missing, dite_false]

/-- Removing a key that is not there leaves the dictionary as it is. -/
theorem erase_of_get?_eq_none {dict : OrderedDict κ ν} {key : κ} (absent : dict.get? key = none) :
    dict.erase key = dict := by
  obtain ⟨items, distinct⟩ := dict
  simp only [erase, mk.injEq, List.filter_eq_self]
  intro item member
  have missing := get?_eq_none.mp absent
  simp only [ne_eq, decide_not, Bool.not_eq_eq_eq_not, Bool.not_true, decide_eq_false_iff_not]
  rintro rfl
  exact missing (List.mem_map_of_mem (f := Prod.fst) member)

/-- Updating the value of a key that is then removed makes no difference. -/
theorem erase_modify (dict : OrderedDict κ ν) (key : κ) (update : ν → ν) :
    (dict.modify key update).erase key = dict.erase key := by
  obtain ⟨items, distinct⟩ := dict
  simp only [erase, modify, mk.injEq]
  clear distinct
  induction items with
  | nil => rfl
  | cons item items ih =>
      by_cases here : item.1 = key
      · simpa [here] using ih
      · simpa [here] using ih

/-- An update that keeps some part of a value keeps that part of all of them. -/
theorem map_values_modify {α : Type*} (part : ν → α) (dict : OrderedDict κ ν) (key : κ)
    {update : ν → ν} (kept : ∀ value, part (update value) = part value) :
    (dict.modify key update).values.map part = dict.values.map part := by
  simp only [values, modify, List.map_map]
  apply List.map_congr_left
  intro item _
  simp only [Function.comp_apply]
  split
  · exact kept item.2
  · rfl

/-- Removing a key takes its value, and no other, out of the values. -/
theorem values_perm_erase {dict : OrderedDict κ ν} {key : κ} {value : ν}
    (stored : dict.get? key = some value) : dict.values.Perm (value :: (dict.erase key).values) := by
  obtain ⟨items, distinct⟩ := dict
  rw [get?_eq_some] at stored
  simp only [values, erase] at stored ⊢
  induction items with
  | nil => cases stored
  | cons item items ih =>
      simp only [List.map_cons, List.nodup_cons] at distinct
      rcases List.mem_cons.mp stored with rfl | later
      · have others : (items.filter fun item => item.1 ≠ key) = items := by
          apply List.filter_eq_self.mpr
          intro item member
          apply decide_eq_true
          rintro rfl
          exact distinct.1 (List.mem_map.mpr ⟨item, member, rfl⟩)
        simp only [ne_eq, not_true, decide_false, Bool.false_eq_true, not_false_eq_true,
          List.filter_cons_of_neg]
        rw [List.map_cons, others]
      · have different : item.1 ≠ key := by
          rintro rfl
          exact distinct.1 (List.mem_map.mpr ⟨_, later, rfl⟩)
        rw [List.filter_cons_of_pos (by simpa using different), List.map_cons, List.map_cons]
        exact ((ih distinct.2 later).cons _).trans (List.Perm.swap ..)

theorem size_le_size_erase (dict : OrderedDict κ ν) (key : κ) :
    dict.size ≤ (dict.erase key).size + 1 := by
  have counted : ∀ other : OrderedDict κ ν, other.values.length = other.size := fun other =>
    List.length_map _
  cases stored : dict.get? key with
  | none =>
      rw [erase_of_get?_eq_none stored]
      exact Nat.le_succ _
  | some value =>
      have lengths := (values_perm_erase stored).length_eq
      rw [List.length_cons, counted, counted] at lengths
      exact Nat.le_of_eq lengths

/-! ### The order of the items -/

omit [DecidableEq κ] in
theorem eq_of_items {first second : OrderedDict κ ν} (same : first.items = second.items) :
    first = second := by
  cases first
  cases second
  cases same
  rfl

theorem items_moveToEnd {dict : OrderedDict κ ν} {key : κ} {value : ν}
    (stored : dict.get? key = some value) :
    (dict.moveToEnd key).items = (dict.erase key).items ++ [(key, value)] := by
  simp only [moveToEnd, stored]
  exact items_set_of_get?_eq_none value (by simp)

theorem set_of_mem {dict : OrderedDict κ ν} {key : κ} (value : ν) (present : key ∈ dict.keys) :
    dict.set key value = dict.modify key fun _ => value :=
  dif_pos present

/-- Assigning to the last key replaces the last item. -/
theorem items_set_of_last {dict : OrderedDict κ ν} {before : List (κ × ν)} {key : κ} {value : ν}
    (shape : dict.items = before ++ [(key, value)]) (other : ν) :
    (dict.set key other).items = before ++ [(key, other)] := by
  have present : key ∈ dict.keys := by simp [keys, shape]
  have distinct := dict.distinct
  rw [shape, List.map_append, List.nodup_append] at distinct
  have kept : before.map (fun item => if item.1 = key then (item.1, other) else item) = before := by
    calc before.map (fun item => if item.1 = key then (item.1, other) else item)
        = before.map id := by
          apply List.map_congr_left
          intro item member
          exact if_neg (distinct.2.2 item.1 (List.mem_map_of_mem member) key (by simp))
      _ = before := List.map_id before
  rw [set_of_mem other present]
  simp [modify, shape, kept]

theorem erase_set (dict : OrderedDict κ ν) (key : κ) (value : ν) :
    (dict.set key value).erase key = dict.erase key := by
  by_cases present : key ∈ dict.keys
  · rw [set_of_mem value present, erase_modify]
  · have appended := items_set_of_get?_eq_none value (get?_eq_none.mpr present)
    simp only [erase, mk.injEq, appended, List.filter_append]
    simp

@[simp] theorem get?_moveToEnd (dict : OrderedDict κ ν) (key other : κ) :
    (dict.moveToEnd key).get? other = dict.get? other := by
  unfold moveToEnd
  split
  · rfl
  · rename_i value stored
    rw [get?_set, get?_erase]
    by_cases same : other = key
    · simp [same, stored]
    · simp [same]

@[simp] theorem size_moveToEnd (dict : OrderedDict κ ν) (key : κ) :
    (dict.moveToEnd key).size = dict.size := by
  cases stored : dict.get? key with
  | none => simp only [moveToEnd, stored]
  | some value =>
      have moved := congrArg List.length (items_moveToEnd stored)
      have lengths := (values_perm_erase stored).length_eq
      simp only [values, List.length_map, List.length_cons] at lengths
      simp only [List.length_append, List.length_singleton] at moved
      rw [size, size, moved, lengths]

/-- Dropping the first item removes its key. -/
theorem get?_dropFirst_one {dict : OrderedDict κ ν} {item : κ × ν} {rest : List (κ × ν)}
    (shape : dict.items = item :: rest) (key : κ) :
    (dict.dropFirst 1).get? key = if key = item.1 then none else dict.get? key := by
  have distinct := dict.distinct
  rw [shape, List.map_cons, List.nodup_cons] at distinct
  have dropped : (dict.dropFirst 1).items = rest := by simp [dropFirst, shape]
  by_cases first : key = item.1
  · rw [if_pos first, get?_eq_none, keys, dropped, first]
    exact distinct.1
  · apply Option.ext
    intro value
    rw [if_neg first, get?_eq_some, get?_eq_some, dropped, shape, List.mem_cons]
    constructor
    · exact fun member => .inr member
    · rintro (rfl | member)
      · exact absurd rfl first
      · exact member

theorem size_set_of_get?_eq_none {dict : OrderedDict κ ν} {key : κ} (value : ν)
    (absent : dict.get? key = none) : (dict.set key value).size = dict.size + 1 := by
  rw [size, items_set_of_get?_eq_none value absent, List.length_append, List.length_singleton, size]

/-- Assigning to a key, moving it to the end and assigning to it again. -/
theorem items_set_moveToEnd_set (dict : OrderedDict κ ν) (key : κ) (first second : ν) :
    (((dict.set key first).moveToEnd key).set key second).items =
      (dict.erase key).items ++ [(key, second)] := by
  have stored : (dict.set key first).get? key = some first := by simp
  have moved := items_moveToEnd stored
  rw [erase_set] at moved
  exact items_set_of_last moved second

theorem set_ne_empty (dict : OrderedDict κ ν) (key : κ) (value : ν) :
    dict.set key value ≠ .empty := by
  intro nothing
  have found : (dict.set key value).get? key = some value := by simp
  rw [nothing, get?_empty] at found
  cases found

/-- After a loop of assignments a key has the value that was assigned to it, when only one item names
that key. -/
theorem get?_foldl_set {α : Type*} (name : α → κ) (value : α → ν) (items : List α)
    (dict : OrderedDict κ ν) {item : α} (member : item ∈ items)
    (only : ∀ other ∈ items, name other = name item → other = item) :
    (items.foldl (fun dict item => dict.set (name item) (value item)) dict).get? (name item) =
      some (value item) := by
  induction items using List.reverseRecOn with
  | nil => cases member
  | append_singleton items last ih =>
      rw [List.foldl_append, List.foldl_cons, List.foldl_nil, get?_set]
      by_cases named : name item = name last
      · rw [if_pos named, only last (by simp) named.symm]
      · rw [if_neg named]
        have before : item ∈ items := by
          rcases List.mem_append.mp member with before | last
          · exact before
          · exact absurd (congrArg name (List.mem_singleton.mp last)) named
        exact ih before fun other listed => only other (List.mem_append_left _ listed)

/-- If no two keys share a value, the list of values has no repetition. -/
theorem values_nodup {dict : OrderedDict κ ν}
    (injective : ∀ first second value,
      dict.get? first = some value → dict.get? second = some value → first = second) :
    dict.values.Nodup := by
  have items : dict.items.Nodup := List.Nodup.of_map Prod.fst dict.distinct
  refine List.Nodup.map_on ?_ items
  rintro ⟨first, value⟩ one ⟨second, other⟩ two same
  simp only at same
  subst same
  rw [injective first second value (get?_eq_some.mpr one) (get?_eq_some.mpr two)]

end OrderedDict

end Collections
