import Mathlib.Data.List.Nodup

/-!
# Maps that remember insertion order

The `Map` of JavaScript: keys are distinct, iteration follows the order in which the
keys were first inserted, and setting a key that is present changes its value in
place.

* **`OrderedMap`** — the entries in order; that the keys are distinct is a field.
* **`map_fst_setEntries`** — setting a key keeps the order and puts a new key at the end,
  which is why the result of `set` is again a map.
* **`get_set`**, **`get_delete`** — what the operations do to the lookups.
-/

namespace OrderedMapLib

/-- A map with distinct keys, in insertion order. -/
structure OrderedMap (κ ν : Type) where
  entries : List (κ × ν)
  nodup : (entries.map Prod.fst).Nodup

namespace OrderedMap

variable {κ ν : Type}

/-- The keys, in insertion order. -/
def keys (m : OrderedMap κ ν) : List κ := m.entries.map Prod.fst

/-- The values, in the order of their keys. -/
def values (m : OrderedMap κ ν) : List ν := m.entries.map Prod.snd

/-- The number of entries. -/
def size (m : OrderedMap κ ν) : Nat := m.entries.length

/-- The map with no entries, and what `clear` leaves. -/
def empty : OrderedMap κ ν := ⟨[], List.nodup_nil⟩

variable [DecidableEq κ]

/-- Whether there is an entry with this key. -/
def has (m : OrderedMap κ ν) (k : κ) : Bool := decide (k ∈ m.keys)

/-- The value at a key. -/
def get (m : OrderedMap κ ν) (k : κ) : Option ν :=
  (m.entries.find? (fun e => e.1 = k)).map Prod.snd

/-- Replace the value of `k` where it stands, or append the entry. -/
def setEntries (k : κ) (v : ν) : List (κ × ν) → List (κ × ν)
  | [] => [(k, v)]
  | e :: es => if e.1 = k then (k, v) :: es else e :: setEntries k v es

/-- The keys after a `set`: unchanged, or the new key at the end. -/
theorem map_fst_setEntries (k : κ) (v : ν) (es : List (κ × ν)) :
    (setEntries k v es).map Prod.fst
      = if k ∈ es.map Prod.fst then es.map Prod.fst else es.map Prod.fst ++ [k] := by
  induction es with
  | nil => rfl
  | cons e es ih =>
      by_cases he : e.1 = k
      · have hmem : k ∈ (e :: es).map Prod.fst := by
          rw [List.map_cons, he]
          exact List.mem_cons_self
        rw [if_pos hmem]
        show (if e.1 = k then (k, v) :: es else e :: setEntries k v es).map Prod.fst = _
        rw [if_pos he, List.map_cons, List.map_cons, he]
      · show (if e.1 = k then (k, v) :: es else e :: setEntries k v es).map Prod.fst = _
        rw [if_neg he, List.map_cons, ih]
        have hiff : k ∈ (e :: es).map Prod.fst ↔ k ∈ es.map Prod.fst := by
          rw [List.map_cons, List.mem_cons]
          exact or_iff_right (fun h => he h.symm)
        by_cases hk : k ∈ es.map Prod.fst
        · rw [if_pos hk, if_pos (hiff.mpr hk), List.map_cons]
        · rw [if_neg hk, if_neg (fun h => hk (hiff.mp h)), List.map_cons, List.cons_append]

/-- Setting an entry keeps the keys distinct. -/
theorem nodup_setEntries (k : κ) (v : ν) {es : List (κ × ν)}
    (h : (es.map Prod.fst).Nodup) : ((setEntries k v es).map Prod.fst).Nodup := by
  rw [map_fst_setEntries]
  by_cases hk : k ∈ es.map Prod.fst
  · rw [if_pos hk]
    exact h
  · rw [if_neg hk]
    refine List.nodup_append.mpr ⟨h, List.nodup_singleton k, ?_⟩
    intro a ha b hb hab
    rw [List.mem_singleton.mp hb] at hab
    exact hk (hab ▸ ha)

/-- A new key goes to the end, an old one keeps its place. -/
def set (m : OrderedMap κ ν) (k : κ) (v : ν) : OrderedMap κ ν :=
  ⟨setEntries k v m.entries, nodup_setEntries k v m.nodup⟩

/-- The entry of a key is taken out. -/
def delete (m : OrderedMap κ ν) (k : κ) : OrderedMap κ ν :=
  ⟨m.entries.filter (fun e => e.1 ≠ k),
    (List.filter_sublist.map Prod.fst).nodup m.nodup⟩

/-- What is found after an entry was set. -/
theorem find?_setEntries (k j : κ) (v : ν) (es : List (κ × ν)) :
    ((setEntries k v es).find? (fun e => e.1 = j)).map Prod.snd
      = if k = j then some v else (es.find? (fun e => e.1 = j)).map Prod.snd := by
  induction es with
  | nil =>
      show (List.find? (fun e => e.1 = j) [(k, v)]).map Prod.snd = _
      rw [List.find?_cons]
      by_cases hkj : k = j
      · rw [decide_eq_true hkj, if_pos hkj]
        rfl
      · rw [decide_eq_false hkj, if_neg hkj, List.find?_nil]
  | cons e es ih =>
      show (List.find? (fun e => e.1 = j)
        (if e.1 = k then (k, v) :: es else e :: setEntries k v es)).map Prod.snd = _
      by_cases he : e.1 = k
      · rw [if_pos he, List.find?_cons, List.find?_cons, he]
        by_cases hkj : k = j
        · rw [decide_eq_true hkj, if_pos hkj]
          rfl
        · rw [decide_eq_false hkj, if_neg hkj]
      · rw [if_neg he, List.find?_cons, List.find?_cons]
        by_cases hej : e.1 = j
        · have hkj : ¬ k = j := fun h => he (hej.trans h.symm)
          rw [decide_eq_true hej, if_neg hkj]
        · rw [decide_eq_false hej]
          exact ih

/-- **Reading after a `set`.** -/
theorem get_set (m : OrderedMap κ ν) (k j : κ) (v : ν) :
    (m.set k v).get j = if k = j then some v else m.get j :=
  find?_setEntries k j v m.entries

/-- **Reading after a `delete`.** -/
theorem get_delete (m : OrderedMap κ ν) (k j : κ) :
    (m.delete k).get j = if k = j then none else m.get j := by
  show (List.find? (fun e => e.1 = j) (m.entries.filter (fun e => e.1 ≠ k))).map Prod.snd = _
  rw [List.find?_filter]
  by_cases hkj : k = j
  · rw [if_pos hkj, List.find?_eq_none.mpr]
    · rfl
    · intro e _ he
      obtain ⟨hne, hej⟩ := of_decide_eq_true he
      exact of_decide_eq_true hne ((of_decide_eq_true hej).trans hkj.symm)
  · rw [if_neg hkj]
    refine congrArg (fun p => (m.entries.find? p).map Prod.snd) ?_
    funext e
    refine decide_eq_decide.mpr ⟨fun h => of_decide_eq_true h.2, ?_⟩
    intro hej
    have hne : e.1 ≠ k := fun h => hkj (h.symm.trans hej)
    exact ⟨decide_eq_true hne, decide_eq_true hej⟩

/-- The keys are those that the map has. -/
theorem mem_keys_iff (m : OrderedMap κ ν) (k : κ) : k ∈ m.keys ↔ m.has k = true :=
  decide_eq_true_iff.symm

/-- A key is present exactly when it can be read. -/
theorem has_iff (m : OrderedMap κ ν) (k : κ) : m.has k = true ↔ ∃ v, m.get k = some v := by
  show decide (k ∈ m.entries.map Prod.fst) = true ↔ _
  rw [decide_eq_true_iff, List.mem_map]
  constructor
  · rintro ⟨e, he, rfl⟩
    cases hfind : m.entries.find? (fun x => x.1 = e.1) with
    | none => exact absurd (decide_eq_true rfl) (List.find?_eq_none.mp hfind e he)
    | some x => exact ⟨x.2, congrArg (Option.map Prod.snd) hfind⟩
  · rintro ⟨v, hv⟩
    obtain ⟨e, hfind, -⟩ := Option.map_eq_some_iff.mp hv
    have hkey := List.find?_some hfind
    exact ⟨e, List.mem_of_find?_eq_some hfind, of_decide_eq_true hkey⟩

/-- A key without a value is one the map does not have. -/
theorem has_eq_false_iff (m : OrderedMap κ ν) (k : κ) : m.has k = false ↔ m.get k = none := by
  rw [← Bool.not_eq_true, has_iff]
  constructor
  · intro h
    cases hget : m.get k with
    | none => rfl
    | some v => exact absurd ⟨v, hget⟩ h
  · rintro hget ⟨v, hv⟩
    exact nomatch hget.symm.trans hv

end OrderedMap

end OrderedMapLib
