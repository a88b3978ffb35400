-- SUMMARY: The abstract store of plants: one current record of each key, and a history of puts that numbers its revisions.
import TwinServer.Plants.Creation
import Mathlib.Data.List.Range

/-!
# The store

What the service of plants is for: a key has one current record, a put replaces it, and the history
of the puts determines the store.
-/

open Js

namespace Plants

/-- A plant as a put left it. -/
structure Stored where
  scope : String
  id : String
  revision : Nat
  document : Record Json
  publication : Option Publication

def Stored.key (p : Stored) : String × String := (p.scope, p.id)

/-- The current records, one of each key. -/
structure Store where
  records : List Stored
  keyed : (records.map Stored.key).Nodup

namespace Store

def empty : Store := ⟨[], List.nodup_nil⟩

def find? (s : Store) (key : String × String) : Option Stored := s.records.find? (·.key = key)

/-- The revision of a key; one without a record has revision 0. -/
def revision (s : Store) (key : String × String) : Nat := (s.find? key).elim 0 Stored.revision

theorem keyed_put {records : List Stored} (h : (records.map Stored.key).Nodup) (p : Stored) :
    ((records.filter (·.key ≠ p.key) ++ [p]).map Stored.key).Nodup := by
  rw [List.map_append, List.nodup_append]
  refine ⟨?_, List.nodup_singleton _, ?_⟩
  · exact h.sublist (List.filter_sublist.map _)
  · intro a ha b hb hab
    obtain ⟨q, hq, rfl⟩ := List.mem_map.mp ha
    obtain rfl := List.mem_singleton.mp hb
    have hne := (List.mem_filter.mp hq).2
    simp [hab] at hne

/-- The record takes the place of the one of its key. -/
def put (s : Store) (p : Stored) : Store :=
  ⟨s.records.filter (·.key ≠ p.key) ++ [p], keyed_put s.keyed p⟩

/-- The records of a scope. -/
def list (s : Store) (scope : String) : List Stored := s.records.filter (·.scope = scope)

variable {s : Store} {p q : Stored} {key : String × String}

theorem mem_put : q ∈ (s.put p).records ↔ q ∈ s.records ∧ q.key ≠ p.key ∨ q = p := by
  simp [put]

/-- The record of a key is the one that is found. -/
theorem find?_eq_some_iff : s.find? key = some p ↔ p ∈ s.records ∧ p.key = key := by
  constructor
  · intro h
    exact ⟨List.mem_of_find?_eq_some h, by simpa using List.find?_some h⟩
  · rintro ⟨hp, rfl⟩
    cases hq : s.find? p.key with
    | none =>
      have hnone := List.find?_eq_none.mp hq p hp
      simp at hnone
    | some q =>
      have hkey : q.key = p.key := by simpa using List.find?_some hq
      rw [List.inj_on_of_nodup_map s.keyed (List.mem_of_find?_eq_some hq) hp hkey]

theorem find?_put (s : Store) (p : Stored) (key : String × String) :
    (s.put p).find? key = if key = p.key then some p else s.find? key := by
  apply Option.ext
  intro q
  rw [find?_eq_some_iff, mem_put]
  split
  case isTrue h =>
    subst h
    constructor
    · rintro ⟨⟨-, hne⟩ | rfl, hkey⟩
      · exact absurd hkey hne
      · rfl
    · rintro ⟨⟩
      exact ⟨.inr rfl, rfl⟩
  case isFalse h =>
    rw [find?_eq_some_iff]
    constructor
    · rintro ⟨⟨hq, -⟩ | rfl, hkey⟩
      · exact ⟨hq, hkey⟩
      · exact absurd hkey.symm h
    · rintro ⟨hq, rfl⟩
      exact ⟨.inl ⟨hq, h⟩, rfl⟩

theorem revision_put (s : Store) (p : Stored) (key : String × String) :
    (s.put p).revision key = if key = p.key then p.revision else s.revision key := by
  unfold revision
  rw [find?_put]
  split <;> rfl

end Store

/-! ## Histories -/

/-- The store that puts leave one after the other. -/
def replay (history : List Stored) : Store := history.foldl Store.put .empty

theorem replay_snoc (history : List Stored) (p : Stored) :
    replay (history ++ [p]) = (replay history).put p := by
  unfold replay
  rw [List.foldl_append]
  rfl

/-- Every put carries the revision after the one it found. -/
inductive Numbered : List Stored → Prop
  | nil : Numbered []
  | snoc {history : List Stored} {p : Stored} (h : Numbered history)
      (hp : p.revision = (replay history).revision p.key + 1) : Numbered (history ++ [p])

/-- The puts of a key are numbered from 1 on, without a gap and without a repetition. -/
theorem Numbered.revisions {history : List Stored} (h : Numbered history) (key : String × String) :
    (history.filter (·.key = key)).map Stored.revision =
      List.range' 1 ((replay history).revision key) := by
  induction h with
  | nil => rfl
  | @snoc history p h hp ih =>
      rw [List.filter_append, List.map_append, ih, replay_snoc, Store.revision_put]
      by_cases hkey : p.key = key
      · subst hkey
        simp only [decide_true, List.filter_cons_of_pos, List.filter_nil, List.map_cons, List.map_nil,
          if_true]
        rw [hp, List.range'_concat]
        simp [Nat.add_comm]
      · rw [if_neg fun heq => hkey heq.symm]
        simp [hkey]

/-- A revision of a key is put once. -/
theorem Numbered.nodup {history : List Stored} (h : Numbered history) :
    (history.map fun p => (p.key, p.revision)).Nodup := by
  induction h with
  | nil => exact List.nodup_nil
  | @snoc history p h hp ih =>
      rw [List.map_append, List.nodup_append]
      refine ⟨ih, List.nodup_singleton _, ?_⟩
      intro a ha b hb hab
      obtain ⟨q, hq, rfl⟩ := List.mem_map.mp ha
      obtain rfl := List.mem_singleton.mp hb
      obtain ⟨hkey, hrevision⟩ := Prod.mk.inj hab
      have hmem : q.revision ∈ (history.filter (·.key = p.key)).map Stored.revision := by
        apply List.mem_map_of_mem
        exact List.mem_filter.mpr ⟨hq, by simpa using hkey⟩
      rw [h.revisions, hrevision, hp, List.mem_range'_1] at hmem
      omega

end Plants
