import Mathlib.Data.List.Nodup

namespace PyTcp

/-- A Python `dict`: its items in insertion order, each key once. Assigning to a present key
keeps its place; a new key goes last. -/
structure Dict (κ ν : Type) where
  items : List (κ × ν)
  nodup : (items.map Prod.fst).Nodup

namespace Dict

variable {κ ν : Type} [DecidableEq κ]

/-- Lookup on the item list: the value of the first item with key `k`. -/
def getItem (k : κ) : List (κ × ν) → Option ν
  | [] => none
  | (k', v) :: rest => if k' = k then some v else getItem k rest

/-- `d[k] = v` on the item list: overwrite the first item with key `k`, or append. -/
def setItem (k : κ) (v : ν) : List (κ × ν) → List (κ × ν)
  | [] => [(k, v)]
  | (k', v') :: rest => if k' = k then (k, v) :: rest else (k', v') :: setItem k v rest

/-- `d.pop(k)` on the item list: drop the first item with key `k`. -/
def popItem (k : κ) : List (κ × ν) → List (κ × ν)
  | [] => []
  | (k', v') :: rest => if k' = k then rest else (k', v') :: popItem k rest

theorem getItem_setItem (j k : κ) (v : ν) (items : List (κ × ν)) :
    getItem j (setItem k v items) = if k = j then some v else getItem j items := by
  induction items with
  | nil => simp only [setItem, getItem]
  | cons item rest ih =>
    obtain ⟨k', v'⟩ := item
    by_cases here : k' = k
    · subst here; by_cases atJ : k' = j <;> simp [setItem, getItem, atJ]
    · by_cases atJ : k' = j
      · subst atJ; simp [setItem, getItem, here, Ne.symm here]
      · simp [setItem, getItem, here, atJ, ih]

theorem getItem_eq_none {k : κ} {items : List (κ × ν)} (absent : k ∉ items.map Prod.fst) :
    getItem k items = none := by
  induction items with
  | nil => rfl
  | cons item rest ih =>
    simp only [List.map_cons, List.mem_cons, not_or] at absent
    simp only [getItem, Ne.symm absent.1, if_false, ih absent.2]

theorem getItem_popItem (j k : κ) {items : List (κ × ν)} (nodup : (items.map Prod.fst).Nodup) :
    getItem j (popItem k items) = if k = j then none else getItem j items := by
  induction items with
  | nil => simp only [popItem, getItem, ite_self]
  | cons item rest ih =>
    obtain ⟨k', v'⟩ := item
    simp only [List.map_cons, List.nodup_cons] at nodup
    by_cases here : k' = k
    · subst here
      simp only [popItem, if_true, getItem]
      by_cases atJ : k' = j
      · subst atJ; simp [getItem_eq_none nodup.1]
      · simp [atJ]
    · simp only [popItem, here, if_false, getItem, ih nodup.2]
      by_cases atJ : k' = j
      · subst atJ; simp [Ne.symm here]
      · simp [atJ]

theorem keys_setItem (k : κ) (v : ν) (items : List (κ × ν)) :
    (setItem k v items).map Prod.fst =
      if k ∈ items.map Prod.fst then items.map Prod.fst else items.map Prod.fst ++ [k] := by
  induction items with
  | nil => simp [setItem]
  | cons item rest ih =>
    obtain ⟨k', v'⟩ := item
    by_cases here : k' = k
    · subst here; simp [setItem]
    · simp only [setItem, here, if_false, List.map_cons, ih, List.mem_cons, Ne.symm here, false_or]
      split <;> rfl

theorem keys_popItem_sublist (k : κ) (items : List (κ × ν)) :
    ((popItem k items).map Prod.fst).Sublist (items.map Prod.fst) := by
  induction items with
  | nil => exact List.Sublist.slnil
  | cons item rest ih =>
    obtain ⟨k', v'⟩ := item
    unfold popItem
    split
    · exact List.sublist_cons_self _ _
    · exact ih.cons_cons _

theorem nodup_setItem (k : κ) (v : ν) {items : List (κ × ν)} (nodup : (items.map Prod.fst).Nodup) :
    ((setItem k v items).map Prod.fst).Nodup := by
  rw [keys_setItem]
  split
  · exact nodup
  · rename_i absent
    exact nodup.append (List.nodup_singleton k) (by simpa [List.disjoint_singleton] using absent)

/-- The empty `{}`. -/
def empty : Dict κ ν := ⟨[], List.nodup_nil⟩

/-- `list(d)`: the keys in insertion order, a snapshot. -/
def keys (d : Dict κ ν) : List κ := d.items.map Prod.fst

/-- `d.get(k, None)`; also `d[k]` where `k` is present. -/
def get (d : Dict κ ν) (k : κ) : Option ν := getItem k d.items

/-- `d[k] = v`. -/
def set (d : Dict κ ν) (k : κ) (v : ν) : Dict κ ν :=
  ⟨setItem k v d.items, nodup_setItem k v d.nodup⟩

/-- `d.pop(k)`, for its effect on `d`. -/
def pop (d : Dict κ ν) (k : κ) : Dict κ ν :=
  ⟨popItem k d.items, (keys_popItem_sublist k d.items).nodup d.nodup⟩

@[simp]
theorem get_empty (k : κ) : (empty : Dict κ ν).get k = none := rfl

@[simp]
theorem get_set (d : Dict κ ν) (j k : κ) (v : ν) :
    (d.set k v).get j = if k = j then some v else d.get j :=
  getItem_setItem j k v d.items

@[simp]
theorem get_pop (d : Dict κ ν) (j k : κ) : (d.pop k).get j = if k = j then none else d.get j :=
  getItem_popItem j k d.nodup

theorem get_set_self (d : Dict κ ν) (k : κ) (v : ν) : (d.set k v).get k = some v := by simp

theorem get_set_of_ne (d : Dict κ ν) {j k : κ} (v : ν) (other : k ≠ j) :
    (d.set k v).get j = d.get j := by simp [other]

theorem get_pop_of_ne (d : Dict κ ν) {j k : κ} (other : k ≠ j) : (d.pop k).get j = d.get j := by
  simp [other]

theorem mem_keys_iff (d : Dict κ ν) (k : κ) : k ∈ d.keys ↔ (d.get k).isSome := by
  obtain ⟨items, _⟩ := d
  simp only [keys, get]
  induction items with
  | nil => simp [getItem]
  | cons item rest ih =>
    obtain ⟨k', v'⟩ := item
    by_cases here : k' = k
    · subst here; simp [getItem]
    · simp [getItem, here, ih (List.nodup_cons.mp ‹_›).2, Ne.symm here]

end Dict

end PyTcp
