import Mathlib.Data.List.Nodup
import Mathlib.Data.List.Perm.Basic

namespace QSAHiSparse
namespace Foundation

/-!
# Insertion-ordered dictionaries

The order of a dictionary is observable: it is iterated in insertion order, an
overwrite keeps the place of the key, and a key can be moved to the end.  A
dictionary is therefore the list of its items together with the proof that no
key occurs twice, so that a lookup cannot depend on which occurrence is found.
-/

structure Dict (κ α : Type) where
  items : List (κ × α)
  nodup : (items.map Prod.fst).Nodup

namespace Dict

variable {κ α : Type} [DecidableEq κ]

def empty : Dict κ α := ⟨[], List.nodup_nil⟩

instance : Inhabited (Dict κ α) := ⟨empty⟩

def keys (dict : Dict κ α) : List κ := dict.items.map Prod.fst

def values (dict : Dict κ α) : List α := dict.items.map Prod.snd

def get? (dict : Dict κ α) (key : κ) : Option α :=
  (dict.items.find? (fun item => item.1 = key)).map Prod.snd

def contains (dict : Dict κ α) (key : κ) : Bool := decide (key ∈ dict.keys)

def size (dict : Dict κ α) : Nat := dict.items.length

/-- Overwrite in place, or append a new key. -/
def set (dict : Dict κ α) (key : κ) (value : α) : Dict κ α :=
  if member : key ∈ dict.items.map Prod.fst then
    { items := dict.items.map (fun item => if item.1 = key then (key, value) else item)
      nodup := by
        have same : (dict.items.map
            (fun item => if item.1 = key then (key, value) else item)).map Prod.fst =
            dict.items.map Prod.fst := by
          rw [List.map_map]
          refine List.map_congr_left (fun item _ => ?_)
          by_cases at_key : item.1 = key <;> simp [at_key]
        rw [same]
        exact dict.nodup }
  else
    { items := dict.items ++ [(key, value)]
      nodup := by
        rw [List.map_append, List.map_singleton]
        exact List.nodup_append.mpr ⟨dict.nodup, List.nodup_singleton _, by
          intro other present last equal
          rw [List.mem_singleton] at equal
          subst equal
          rintro rfl
          exact member present⟩ }

/-- Delete a key; an absent key changes nothing. -/
def erase (dict : Dict κ α) (key : κ) : Dict κ α :=
  { items := dict.items.filter (fun item => item.1 ≠ key)
    nodup := dict.nodup.sublist (List.filter_sublist.map Prod.fst) }

/-- The items whose keys are not listed, in their order. -/
def without (dict : Dict κ α) (keys : List κ) : Dict κ α :=
  { items := dict.items.filter (fun item => item.1 ∉ keys)
    nodup := dict.nodup.sublist (List.filter_sublist.map Prod.fst) }

/-- Move a key to the end of the iteration order. -/
def moveToEnd (dict : Dict κ α) (key : κ) : Dict κ α :=
  match dict.get? key with
  | none => dict
  | some value => (dict.erase key).set key value

/-- Set the items in order. -/
def update (dict : Dict κ α) (items : List (κ × α)) : Dict κ α :=
  items.foldl (fun current item => current.set item.1 item.2) dict

@[simp] theorem get?_empty (key : κ) : (empty : Dict κ α).get? key = none := rfl

omit [DecidableEq κ] in
/-- Two items of one dictionary with the same key are the same item. -/
theorem item_unique (dict : Dict κ α) {key : κ} {first second : α}
    (left : (key, first) ∈ dict.items) (right : (key, second) ∈ dict.items) :
    first = second :=
  congrArg Prod.snd (List.inj_on_of_nodup_map dict.nodup left right rfl)

theorem get?_eq_some_iff {dict : Dict κ α} {key : κ} {value : α} :
    dict.get? key = some value <-> (key, value) ∈ dict.items := by
  unfold get?
  constructor
  · intro found
    obtain ⟨item, search, rfl⟩ := Option.map_eq_some_iff.mp found
    have at_key := List.find?_some search
    rw [decide_eq_true_eq] at at_key
    rw [← at_key]
    exact List.mem_of_find?_eq_some search
  · intro member
    cases search : dict.items.find? (fun item => item.1 = key) with
    | none =>
        have absent := List.find?_eq_none.mp search _ member
        rw [decide_eq_true_eq] at absent
        exact absurd rfl absent
    | some item =>
        have at_key := List.find?_some search
        rw [decide_eq_true_eq] at at_key
        have present := List.mem_of_find?_eq_some search
        rw [show item = (key, item.2) from Prod.ext at_key rfl] at present
        rw [Option.map_some, dict.item_unique present member]

theorem mem_keys_iff {dict : Dict κ α} {key : κ} :
    key ∈ dict.keys <-> exists value, dict.get? key = some value := by
  simp only [keys, List.mem_map, get?_eq_some_iff]
  constructor
  · rintro ⟨item, member, rfl⟩
    exact ⟨item.2, member⟩
  · rintro ⟨value, member⟩
    exact ⟨_, member, rfl⟩

theorem get?_eq_none_iff {dict : Dict κ α} {key : κ} :
    dict.get? key = none <-> key ∉ dict.keys := by
  rw [mem_keys_iff, Option.eq_none_iff_forall_ne_some]
  simp

theorem contains_iff {dict : Dict κ α} {key : κ} :
    dict.contains key = true <-> dict.get? key ≠ none := by
  rw [contains, decide_eq_true_eq, Ne, get?_eq_none_iff, not_not]

theorem mem_values_iff {dict : Dict κ α} {value : α} :
    value ∈ dict.values <-> exists key, dict.get? key = some value := by
  simp only [values, List.mem_map, get?_eq_some_iff]
  constructor
  · rintro ⟨item, member, rfl⟩
    exact ⟨item.1, member⟩
  · rintro ⟨key, member⟩
    exact ⟨_, member, rfl⟩

@[simp] theorem get?_set_self (dict : Dict κ α) (key : κ) (value : α) :
    (dict.set key value).get? key = some value := by
  rw [get?_eq_some_iff]
  unfold set
  split
  case isTrue member =>
      obtain ⟨item, present, at_key⟩ := List.mem_map.mp member
      exact List.mem_map.mpr ⟨item, present, if_pos at_key⟩
  case isFalse _ => exact List.mem_append_right _ (List.mem_singleton_self _)

theorem get?_set_of_ne (dict : Dict κ α) {key other : κ} (value : α) (different : other ≠ key) :
    (dict.set key value).get? other = dict.get? other := by
  ext found
  rw [get?_eq_some_iff, get?_eq_some_iff]
  unfold set
  split
  case isTrue member =>
      simp only [List.mem_map]
      constructor
      · rintro ⟨item, present, equal⟩
        by_cases at_key : item.1 = key
        · rw [if_pos at_key] at equal
          exact absurd (congrArg Prod.fst equal).symm different
        · rw [if_neg at_key] at equal
          exact equal ▸ present
      · intro present
        exact ⟨_, present, if_neg different⟩
  case isFalse _ =>
      simp only [List.mem_append, List.mem_singleton, Prod.mk.injEq, different, false_and, or_false]

theorem get?_set (dict : Dict κ α) (key other : κ) (value : α) :
    (dict.set key value).get? other = if other = key then some value else dict.get? other := by
  by_cases same : other = key
  · rw [if_pos same, same, get?_set_self]
  · rw [if_neg same, get?_set_of_ne dict value same]

@[simp] theorem get?_erase_self (dict : Dict κ α) (key : κ) :
    (dict.erase key).get? key = none := by
  rw [get?_eq_none_iff, keys, erase, List.mem_map]
  rintro ⟨item, member, at_key⟩
  have kept := (List.mem_filter.mp member).2
  rw [decide_eq_true_eq] at kept
  exact kept at_key

theorem get?_erase_of_ne (dict : Dict κ α) {key other : κ} (different : other ≠ key) :
    (dict.erase key).get? other = dict.get? other := by
  ext found
  rw [get?_eq_some_iff, get?_eq_some_iff, erase]
  simp only [ne_eq, List.mem_filter, decide_eq_true_eq, and_iff_left_iff_imp]
  exact fun _ => different

theorem get?_erase (dict : Dict κ α) (key other : κ) :
    (dict.erase key).get? other = if other = key then none else dict.get? other := by
  by_cases same : other = key
  · rw [if_pos same, same, get?_erase_self]
  · rw [if_neg same, get?_erase_of_ne dict same]

theorem mem_keys_set {dict : Dict κ α} {key other : κ} {value : α} :
    other ∈ (dict.set key value).keys <-> other = key ∨ other ∈ dict.keys := by
  rw [mem_keys_iff, get?_set, mem_keys_iff]
  by_cases same : other = key <;> simp [same]

theorem mem_keys_erase {dict : Dict κ α} {key other : κ} :
    other ∈ (dict.erase key).keys <-> other ≠ key ∧ other ∈ dict.keys := by
  rw [mem_keys_iff, get?_erase, mem_keys_iff]
  by_cases same : other = key <;> simp [same]

/-- A fresh key is appended. -/
theorem items_set_of_absent {dict : Dict κ α} {key : κ} (value : α)
    (absent : dict.get? key = none) :
    (dict.set key value).items = dict.items ++ [(key, value)] := by
  rw [get?_eq_none_iff, keys] at absent
  rw [set, dif_neg absent]

theorem size_set_of_absent {dict : Dict κ α} {key : κ} (value : α)
    (absent : dict.get? key = none) : (dict.set key value).size = dict.size + 1 := by
  rw [size, items_set_of_absent value absent, List.length_append]
  rfl

theorem values_set_of_absent {dict : Dict κ α} {key : κ} (value : α)
    (absent : dict.get? key = none) : (dict.set key value).values = dict.values ++ [value] := by
  rw [values, items_set_of_absent value absent, List.map_append, values]
  rfl

/-- Overwriting a key keeps the iteration order of the keys. -/
theorem keys_set_of_present {dict : Dict κ α} {key : κ} (value : α)
    (present : key ∈ dict.keys) : (dict.set key value).keys = dict.keys := by
  rw [keys] at present
  rw [set, dif_pos present, keys, keys, List.map_map]
  refine List.map_congr_left (fun item _ => ?_)
  by_cases at_key : item.1 = key <;> simp [at_key]

theorem size_set_of_present {dict : Dict κ α} {key : κ} (value : α)
    (present : key ∈ dict.keys) : (dict.set key value).size = dict.size := by
  have sameKeys := congrArg List.length (keys_set_of_present value present)
  rw [keys, keys, List.length_map, List.length_map] at sameKeys
  exact sameKeys

/-- The items of a dictionary are the deleted item and the rest. -/
theorem perm_erase {dict : Dict κ α} {key : κ} {value : α} (found : dict.get? key = some value) :
    dict.items.Perm ((key, value) :: (dict.erase key).items) := by
  have member := get?_eq_some_iff.mp found
  obtain ⟨before, after, split⟩ := List.append_of_mem member
  have nodup := dict.nodup
  rw [split, List.map_append, List.map_cons] at nodup
  have parts := List.nodup_append.mp nodup
  have later := List.nodup_cons.mp parts.2.1
  have keepBefore : before.filter (fun item => item.1 ≠ key) = before :=
    List.filter_eq_self.mpr (fun item present => decide_eq_true (fun at_key =>
      parts.2.2 item.1 (List.mem_map_of_mem present) key List.mem_cons_self at_key))
  have keepAfter : after.filter (fun item => item.1 ≠ key) = after :=
    List.filter_eq_self.mpr (fun item present => decide_eq_true (fun at_key =>
      later.1 (by
        change key ∈ after.map Prod.fst
        rw [← at_key]
        exact List.mem_map.mpr ⟨item, present, rfl⟩)))
  have rest : (dict.erase key).items = before ++ after := by
    change dict.items.filter (fun item => item.1 ≠ key) = before ++ after
    rw [split, List.filter_append, List.filter_cons_of_neg (by simp), keepBefore, keepAfter]
  rw [split, rest]
  exact List.perm_middle

theorem values_perm_erase {dict : Dict κ α} {key : κ} {value : α}
    (found : dict.get? key = some value) :
    dict.values.Perm (value :: (dict.erase key).values) := by
  have permuted := (perm_erase found).map Prod.snd
  rwa [List.map_cons] at permuted

theorem size_erase_of_present {dict : Dict κ α} {key : κ} {value : α}
    (found : dict.get? key = some value) : dict.size = (dict.erase key).size + 1 := by
  rw [size, (perm_erase found).length_eq, List.length_cons, size]

theorem size_set_le (dict : Dict κ α) (key : κ) (value : α) :
    (dict.set key value).size ≤ dict.size + 1 := by
  cases present : dict.get? key with
  | none => exact Nat.le_of_eq (size_set_of_absent value present)
  | some held =>
      rw [size_set_of_present value (mem_keys_iff.mpr ⟨held, present⟩)]
      exact Nat.le_succ _

@[simp] theorem get?_moveToEnd (dict : Dict κ α) (key other : κ) :
    (dict.moveToEnd key).get? other = dict.get? other := by
  unfold moveToEnd
  cases found : dict.get? key with
  | none => rfl
  | some value =>
      change ((dict.erase key).set key value).get? other = dict.get? other
      rw [get?_set, get?_erase]
      by_cases same : other = key
      · rw [if_pos same, same, found]
      · rw [if_neg same, if_neg same]

@[simp] theorem size_moveToEnd (dict : Dict κ α) (key : κ) :
    (dict.moveToEnd key).size = dict.size := by
  unfold moveToEnd
  cases found : dict.get? key with
  | none => rfl
  | some value =>
      change ((dict.erase key).set key value).size = dict.size
      rw [size_set_of_absent value (get?_erase_self dict key), ← size_erase_of_present found]

theorem size_update_le (items : List (κ × α)) :
    forall dict : Dict κ α, (dict.update items).size ≤ dict.size + items.length := by
  induction items with
  | nil => exact fun dict => Nat.le_refl _
  | cons item rest inductionHypothesis =>
      intro dict
      have later := inductionHypothesis (dict.set item.1 item.2)
      have first := size_set_le dict item.1 item.2
      rw [List.length_cons]
      exact Nat.le_trans later (by omega)

/-- Items of distinct keys decide the lookups of their keys and no others. -/
theorem get?_update_iff {items : List (κ × α)} (nodup : (items.map Prod.fst).Nodup) :
    forall (dict : Dict κ α) (key : κ) (value : α),
      (dict.update items).get? key = some value <->
        (key, value) ∈ items ∨ (key ∉ items.map Prod.fst ∧ dict.get? key = some value) := by
  induction items with
  | nil => intro dict key value; simp [update]
  | cons item rest inductionHypothesis =>
      intro dict key value
      rw [List.map_cons] at nodup
      have parts := List.nodup_cons.mp nodup
      change ((dict.set item.1 item.2).update rest).get? key = some value <-> _
      rw [inductionHypothesis parts.2, get?_set, List.mem_cons, List.map_cons, List.mem_cons]
      by_cases same : key = item.1
      · subst same
        rw [if_pos rfl]
        constructor
        · intro either
          rcases either with later | ⟨_, equal⟩
          · exact absurd (List.mem_map_of_mem later) parts.1
          · cases equal
            exact Or.inl (Or.inl rfl)
        · intro either
          rcases either with (equal | later) | ⟨absent, _⟩
          · rw [← equal]
            exact Or.inr ⟨parts.1, rfl⟩
          · exact absurd (List.mem_map_of_mem later) parts.1
          · exact absurd (Or.inl rfl) absent
      · rw [if_neg same]
        have notFirst : (key, value) ≠ item := fun equal => same (congrArg Prod.fst equal)
        simp only [notFirst, same, false_or]

/-! ## Removing several keys -/

theorem without_nil (dict : Dict κ α) : dict.without [] = dict := by
  rcases dict with ⟨items, nodup⟩
  unfold without
  simp only [List.not_mem_nil, not_false_eq_true, decide_true, List.filter_true]

theorem without_singleton (dict : Dict κ α) (key : κ) : dict.without [key] = dict.erase key := by
  unfold without erase
  simp only [List.mem_singleton, ne_eq]

theorem without_without (dict : Dict κ α) (first second : List κ) :
    (dict.without first).without second = dict.without (first ++ second) := by
  unfold without
  simp only [List.filter_filter, List.mem_append, not_or, Bool.decide_and, Bool.and_comm]

theorem get?_without (dict : Dict κ α) (keys : List κ) (key : κ) (value : α) :
    (dict.without keys).get? key = some value <-> key ∉ keys ∧ dict.get? key = some value := by
  rw [get?_eq_some_iff, get?_eq_some_iff]
  unfold without
  rw [List.mem_filter, decide_eq_true_eq]
  exact And.comm

end Dict

end Foundation
end QSAHiSparse
