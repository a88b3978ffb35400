-- SUMMARY: Maps with string keys: one entry of each key, in the order of insertion.
import TwinServer.Base.Json
import Mathlib.Data.List.Perm.Basic

/-!
# Maps

The `Map` of the language with strings as keys. Its entries carry that their keys differ, so that what
a map holds can be counted through the permutations that `set` and `delete` make of the entries.
-/

namespace Js

namespace Record

variable {α : Type}

theorem delete_eq_self {o : Record α} {k : String} (h : k ∉ o.map Prod.fst) :
    Record.delete o k = o := by
  apply List.filter_eq_self.mpr
  intro e he
  simp only [bne_iff_ne, ne_eq]
  rintro rfl
  exact h (List.mem_map_of_mem he)

/-- The entry that is set stands beside those of the other keys. -/
theorem perm_set {o : Record α} (h : (o.map Prod.fst).Nodup) (k : String) (v : α) :
    (o.set k v).Perm ((k, v) :: Record.delete o k) := by
  induction o with
  | nil => exact .refl _
  | cons e o ih =>
      obtain ⟨k₀, v₀⟩ := e
      rw [List.map_cons, List.nodup_cons] at h
      by_cases hk : k₀ = k
      · subst hk
        have hdelete : Record.delete ((k₀, v₀) :: o) k₀ = o := by
          rw [delete, List.filter_cons_of_neg (by simp)]
          exact delete_eq_self h.1
        simp only [set, if_true, hdelete]
        exact .refl _
      · have hdelete : Record.delete ((k₀, v₀) :: o) k = (k₀, v₀) :: Record.delete o k := by
          rw [delete, List.filter_cons_of_pos (by simpa using hk)]
          rfl
        simp only [set, if_neg hk, hdelete]
        exact ((ih h.2).cons (k₀, v₀)).trans (.swap _ _ _)

theorem set_eq_self {o : Record α} {k : String} {v : α} (h : o.get? k = some v) : o.set k v = o := by
  induction o with
  | nil => cases h
  | cons e o ih =>
      obtain ⟨k₀, v₀⟩ := e
      rw [get?_cons] at h
      by_cases hk : k₀ = k
      · subst hk
        rw [if_pos rfl] at h
        obtain rfl := Option.some.inj h
        simp only [set, if_true]
      · rw [if_neg (Ne.symm hk)] at h
        simp only [set, if_neg hk, ih h]

end Record

/-- A `Map` with string keys. -/
structure Map (α : Type) where
  entries : Record α
  nodup : (entries.map Prod.fst).Nodup

namespace Map

variable {α : Type}

def empty : Map α := ⟨[], List.nodup_nil⟩

def get? (m : Map α) (k : String) : Option α := m.entries.get? k

def keys (m : Map α) : List String := m.entries.map Prod.fst

def delete (m : Map α) (k : String) : Map α :=
  ⟨m.entries.delete k, m.nodup.sublist (List.filter_sublist.map _)⟩

theorem notMem_delete (m : Map α) (k : String) : k ∉ (m.delete k).entries.map Prod.fst := by
  intro h
  obtain ⟨e, he, rfl⟩ := List.mem_map.mp h
  simpa using (List.mem_filter.mp he).2

theorem nodup_set (m : Map α) (k : String) (v : α) : ((m.entries.set k v).map Prod.fst).Nodup := by
  rw [((Record.perm_set m.nodup k v).map Prod.fst).nodup_iff, List.map_cons, List.nodup_cons]
  exact ⟨m.notMem_delete k, (m.delete k).nodup⟩

def set (m : Map α) (k : String) (v : α) : Map α := ⟨m.entries.set k v, m.nodup_set k v⟩

variable {m : Map α} {k k' : String} {v : α}

@[simp] theorem get?_set : (m.set k v).get? k' = if k' = k then some v else m.get? k' :=
  Record.get?_set m.entries k v k'

@[simp] theorem get?_delete : (m.delete k).get? k' = if k' = k then none else m.get? k' :=
  Record.get?_delete m.entries k k'

/-- What is set replaces what the key had. -/
theorem perm_set (m : Map α) (k : String) (v : α) :
    (m.set k v).entries.Perm ((k, v) :: (m.delete k).entries) := Record.perm_set m.nodup k v

/-- A map is the entry of a key and the others. -/
theorem perm_delete (h : m.get? k = some v) : m.entries.Perm ((k, v) :: (m.delete k).entries) := by
  have hsame : (m.set k v).entries = m.entries := Record.set_eq_self h
  exact hsame ▸ m.perm_set k v

/-- A key that is new comes last. -/
theorem delete_of_get? (h : m.get? k = none) : (m.delete k).entries = m.entries := by
  apply Record.delete_eq_self
  intro hk
  obtain ⟨e, he, rfl⟩ := List.mem_map.mp hk
  have hnone := List.lookup_eq_none_iff.mp h e he
  simp at hnone

end Map

end Js
