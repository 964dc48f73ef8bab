/-
**Ordered maps as lists with strictly increasing keys.**

A map of the standard library holds each key once, in the order of the keys.  It is modelled by the
list of its entries from the first to the last; the order of the keys is a part of the map.

Main definitions:

* `SortedMap` — the entries, and that their keys increase;
* `SortedMap.find?` — the value of a key;
* `SortedMap.insert`, `SortedMap.ofList` — the assignment `m[k] = v`, and a list of them.

Main results:

* `SortedMap.find?_insert` — **an assignment changes one key**;
* `SortedMap.mem_insertEntries` — the keys an assignment leaves;
* `SortedMap.ofList_entries` — **the entries of a map build the map**.
-/

import Mathlib.Data.List.Basic
import Mathlib.Order.Lattice
import Mathlib.Tactic.Common

set_option relaxedAutoImplicit false
set_option autoImplicit false

/-- A map from keys to values. -/
structure SortedMap (κ ν : Type*) [LinearOrder κ] where
  entries : List (κ × ν)
  sorted : entries.Pairwise fun e e' => e.1 < e'.1

namespace SortedMap

variable {κ ν : Type*} [LinearOrder κ]

instance [DecidableEq ν] : DecidableEq (SortedMap κ ν) := fun m m' =>
  decidable_of_iff (m.entries = m'.entries)
    ⟨fun h => by cases m; cases m'; cases h; rfl, fun h => h ▸ rfl⟩

/-! ### The empty map and assignment -/

/-- The map without entries. -/
def empty : SortedMap κ ν := ⟨[], List.Pairwise.nil⟩

/-- The entries after an assignment: one with the key is replaced, and otherwise a new one is put
in order. -/
def insertEntries (k : κ) (v : ν) : List (κ × ν) → List (κ × ν)
  | [] => [(k, v)]
  | e :: es =>
      if k < e.1 then (k, v) :: e :: es
      else if k = e.1 then (k, v) :: es
      else e :: insertEntries k v es

theorem insertEntries_cons (k : κ) (v : ν) (e : κ × ν) (es : List (κ × ν)) :
    insertEntries k v (e :: es) =
      if k < e.1 then (k, v) :: e :: es
      else if k = e.1 then (k, v) :: es
      else e :: insertEntries k v es := rfl

/-- No key but the assigned one is new. -/
theorem mem_insertEntries {k : κ} {v : ν} {es : List (κ × ν)} {e : κ × ν}
    (h : e ∈ insertEntries k v es) : e.1 = k ∨ e ∈ es := by
  induction es with
  | nil =>
      rw [insertEntries, List.mem_singleton] at h
      exact Or.inl (h ▸ rfl)
  | cons e' es ih =>
      rw [insertEntries_cons] at h
      split at h
      · rcases List.mem_cons.1 h with rfl | h
        · exact Or.inl rfl
        · exact Or.inr h
      · split at h
        · rcases List.mem_cons.1 h with rfl | h
          · exact Or.inl rfl
          · exact Or.inr (List.mem_cons_of_mem e' h)
        · rcases List.mem_cons.1 h with rfl | h
          · exact Or.inr List.mem_cons_self
          · exact (ih h).imp_right (List.mem_cons_of_mem e')

theorem sorted_insertEntries {k : κ} {v : ν} {es : List (κ × ν)}
    (h : es.Pairwise fun e e' => e.1 < e'.1) :
    (insertEntries k v es).Pairwise fun e e' => e.1 < e'.1 := by
  induction es with
  | nil => exact List.pairwise_singleton _ _
  | cons e es ih =>
      obtain ⟨hhead, htail⟩ := List.pairwise_cons.1 h
      rw [insertEntries_cons]
      split
      · rename_i hlt
        refine List.pairwise_cons.2 ⟨?_, h⟩
        intro e' he'
        rcases List.mem_cons.1 he' with rfl | he'
        · exact hlt
        · exact lt_trans hlt (hhead e' he')
      · split
        · rename_i heq
          refine List.pairwise_cons.2 ⟨?_, htail⟩
          intro e' he'
          exact heq ▸ hhead e' he'
        · rename_i hnlt hne
          have hlt : e.1 < k := lt_of_le_of_ne (le_of_not_gt hnlt) (Ne.symm hne)
          refine List.pairwise_cons.2 ⟨?_, ih htail⟩
          intro e' he'
          rcases mem_insertEntries he' with hk | he'
          · exact hk ▸ hlt
          · exact hhead e' he'

/-- The assignment `m[k] = v`. -/
def insert (m : SortedMap κ ν) (k : κ) (v : ν) : SortedMap κ ν :=
  ⟨insertEntries k v m.entries, sorted_insertEntries m.sorted⟩

/-- The map that the assignments `m[k] = v` of a list of pairs build, one after the other. -/
def ofList (es : List (κ × ν)) : SortedMap κ ν := es.foldl (fun m e => m.insert e.1 e.2) empty

/-- A key behind all the others is assigned at the end. -/
theorem insertEntries_of_lt {k : κ} {v : ν} {es : List (κ × ν)} (h : ∀ e ∈ es, e.1 < k) :
    insertEntries k v es = es ++ [(k, v)] := by
  induction es with
  | nil => rfl
  | cons e es ih =>
      have hlt := h e List.mem_cons_self
      rw [insertEntries_cons, if_neg (not_lt_of_gt hlt), if_neg (ne_of_gt hlt),
        ih fun e' he' => h e' (List.mem_cons_of_mem e he'), List.cons_append]

theorem ext {m m' : SortedMap κ ν} (h : m.entries = m'.entries) : m = m' := by
  cases m
  cases m'
  cases h
  rfl

/-- **The assignments of the entries of a map build the map.** -/
theorem ofList_entries (m : SortedMap κ ν) : ofList m.entries = m := by
  -- what has been built is the part of the entries that has been assigned
  have hbuild : ∀ (es : List (κ × ν)) (m' : SortedMap κ ν),
      (m'.entries ++ es).Pairwise (fun e e' => e.1 < e'.1) →
      (es.foldl (fun m e => m.insert e.1 e.2) m').entries = m'.entries ++ es := by
    intro es
    induction es with
    | nil =>
        intro m' _
        exact (List.append_nil _).symm
    | cons e es ih =>
        intro m' hsorted
        have hlt : ∀ e' ∈ m'.entries, e'.1 < e.1 := by
          intro e' he'
          exact (List.pairwise_append.1 hsorted).2.2 e' he' e List.mem_cons_self
        have hentries : (m'.insert e.1 e.2).entries = m'.entries ++ [e] :=
          insertEntries_of_lt hlt
        rw [List.foldl_cons, ih, hentries, List.append_assoc, List.singleton_append]
        rw [hentries, List.append_assoc]
        exact hsorted
  exact ext (hbuild m.entries empty m.sorted)

/-! ### Values -/

/-- The value of the first entry with the key `k`. -/
def lookup (k : κ) : List (κ × ν) → Option ν
  | [] => none
  | e :: es => if e.1 = k then some e.2 else lookup k es

/-- The value of the key `k`. -/
def find? (m : SortedMap κ ν) (k : κ) : Option ν := lookup k m.entries

/-- The keys, in order. -/
def keys (m : SortedMap κ ν) : List κ := m.entries.map Prod.fst

theorem lookup_cons (k : κ) (e : κ × ν) (es : List (κ × ν)) :
    lookup k (e :: es) = if e.1 = k then some e.2 else lookup k es := rfl

/-- The keys that have a value. -/
theorem mem_keys_iff {m : SortedMap κ ν} {k : κ} : k ∈ m.keys ↔ ∃ v, m.find? k = some v := by
  unfold keys find?
  induction m.entries with
  | nil => simp [lookup]
  | cons e es ih =>
      rw [List.map_cons, List.mem_cons, lookup_cons]
      by_cases hk : e.1 = k
      · simp [hk]
      · rw [if_neg hk, ih, or_iff_right (Ne.symm hk)]

theorem lookup_insertEntries (k k' : κ) (v : ν) (es : List (κ × ν)) :
    lookup k' (insertEntries k v es) = if k = k' then some v else lookup k' es := by
  induction es with
  | nil => rfl
  | cons e es ih =>
      rw [insertEntries_cons]
      split
      · rfl
      · split
        · rename_i heq
          rw [lookup_cons, lookup_cons]
          by_cases hk : k = k'
          · rw [if_pos hk, if_pos hk]
          · rw [if_neg hk, if_neg hk, if_neg (heq ▸ hk)]
        · rename_i hne
          rw [lookup_cons, lookup_cons, ih]
          by_cases hk : e.1 = k'
          · rw [if_pos hk, if_pos hk, if_neg fun h => hne (h.trans hk.symm)]
          · rw [if_neg hk, if_neg hk]

/-- **An assignment changes one key.** -/
theorem find?_insert (m : SortedMap κ ν) (k k' : κ) (v : ν) :
    (m.insert k v).find? k' = if k = k' then some v else m.find? k' :=
  lookup_insertEntries k k' v m.entries

end SortedMap
