-- SUMMARY: Records as lists: what assignments to new keys append, and the entries of records whose keys differ.
import TwinServer.Base.Json

/-!
# Records as lists

An assignment to a key that an object lacks appends an entry, so a loop of such assignments builds the
list of its entries in order.
-/

namespace Js.Record

variable {α β : Type}

theorem hasOwn_eq_false {o : Record α} {k : String} : o.hasOwn k = false ↔ o.get? k = none := by
  rw [hasOwn, Option.isSome_eq_false_iff, Option.isNone_iff_eq_none]

theorem get?_append (o o' : Record α) (k : String) : get? (o ++ o') k = (o.get? k).or (get? o' k) := by
  induction o with
  | nil => rfl
  | cons e o ih =>
    obtain ⟨k', v⟩ := e
    rw [List.cons_append, get?_cons, get?_cons, ih]
    split <;> rfl

theorem get?_eq_none {o : Record α} {k : String} : o.get? k = none ↔ k ∉ o.map Prod.fst := by
  induction o with
  | nil => simp
  | cons e o ih =>
    obtain ⟨k', v⟩ := e
    rw [get?_cons]
    split
    case isTrue h => simp [h]
    case isFalse h => simp [ih, h]

/-- An assignment to a new key. -/
theorem set_of_new {o : Record α} {k : String} (h : o.hasOwn k = false) (v : α) :
    o.set k v = o ++ [(k, v)] := by
  induction o with
  | nil => rfl
  | cons e o ih =>
    obtain ⟨k', v'⟩ := e
    rw [hasOwn_eq_false, get?_cons] at h
    split at h
    case isTrue => cases h
    case isFalse hk =>
      rw [set, if_neg (Ne.symm hk), ih (hasOwn_eq_false.mpr h), List.cons_append]

/-- Assignments to new keys, in the order of the loop. -/
theorem assignAll_of_new {f : String → Option α} {keys : List String} {o : Record α} (hkeys : keys.Nodup)
    (hnew : ∀ k ∈ keys, o.hasOwn k = false) :
    assignAll f keys o = o ++ keys.filterMap fun k => (f k).map fun v => (k, v) := by
  induction keys generalizing o with
  | nil => exact (List.append_nil o).symm
  | cons k keys ih =>
    obtain ⟨hk, hkeys⟩ := List.nodup_cons.mp hkeys
    have hrest : ∀ k' ∈ keys, o.hasOwn k' = false := fun k' h => hnew k' (List.mem_cons_of_mem _ h)
    rw [List.filterMap_cons]
    cases hf : f k with
    | none =>
      have hskip : assignAll f (k :: keys) o = assignAll f keys o := by
        simp only [assignAll, List.foldl_cons, hf]
      rw [hskip, ih hkeys hrest]
      rfl
    | some v =>
      have hassign : assignAll f (k :: keys) o = assignAll f keys (o.set k v) := by
        simp only [assignAll, List.foldl_cons, hf]
      rw [hassign, set_of_new (hnew k List.mem_cons_self), ih hkeys, List.append_assoc]
      · rfl
      · intro k' hk'
        have hne : k' ≠ k := fun heq => hk (heq ▸ hk')
        rw [hasOwn_eq_false, get?_append, hasOwn_eq_false.mp (hrest k' hk'), get?_cons, if_neg hne]
        rfl

/-- The entries of a record whose keys differ. -/
theorem entries_eq_self {o : Record α} (h : (o.map Prod.fst).Nodup) : o.entries = o := by
  induction o with
  | nil => rfl
  | cons e o ih =>
    obtain ⟨k, v⟩ := e
    obtain ⟨hk, hrest⟩ := List.nodup_cons.mp h
    rw [entries, ih hrest, List.filter_eq_self.mpr]
    intro e he
    rw [bne_iff_ne]
    intro heq
    exact hk (List.mem_map.mpr ⟨e, he, heq⟩)

theorem get?_eq_some_iff_mem {o : Record α} (h : (o.map Prod.fst).Nodup) {k : String} {v : α} :
    o.get? k = some v ↔ (k, v) ∈ o := by
  rw [← mem_entries, entries_eq_self h]

/-- The keys of the entries that a loop makes. -/
theorem map_fst_filterMap (f : String → Option α) (keys : List String) :
    (keys.filterMap fun k => (f k).map fun v => (k, v)).map Prod.fst = keys.filter fun k => (f k).isSome := by
  induction keys with
  | nil => rfl
  | cons k keys ih =>
    rw [List.filterMap_cons, List.filter_cons]
    cases f k with
    | none => exact ih
    | some v => exact congrArg (k :: ·) ih

theorem nodup_set {o : Record α} (h : (o.map Prod.fst).Nodup) (k : String) (v : α) :
    ((o.set k v).map Prod.fst).Nodup := by
  induction o with
  | nil => simp [set]
  | cons e o ih =>
    obtain ⟨k', v'⟩ := e
    obtain ⟨hk', hrest⟩ := List.nodup_cons.mp h
    rw [set]
    split
    case isTrue heq => exact heq ▸ h
    case isFalse hne =>
      refine List.nodup_cons.mpr ⟨fun hmem => ?_, ih hrest⟩
      obtain ⟨e, he, heq⟩ := List.mem_map.mp hmem
      rcases mem_of_mem_set he with rfl | he
      · exact hne heq.symm
      · exact hk' (List.mem_map.mpr ⟨e, he, heq⟩)

theorem nodup_assignAll (f : String → Option α) (keys : List String) {o : Record α}
    (h : (o.map Prod.fst).Nodup) : ((assignAll f keys o).map Prod.fst).Nodup := by
  induction keys generalizing o with
  | nil => exact h
  | cons k keys ih =>
    simp only [assignAll, List.foldl_cons] at ih ⊢
    split
    · exact ih (nodup_set h _ _)
    · exact ih h

theorem assignAll_congr {f g : String → Option α} {keys : List String} (h : ∀ k ∈ keys, f k = g k)
    (o : Record α) : assignAll f keys o = assignAll g keys o := by
  induction keys generalizing o with
  | nil => rfl
  | cons k keys ih =>
    simp only [assignAll, List.foldl_cons, h k List.mem_cons_self] at ih ⊢
    exact ih (fun k' hk' => h k' (List.mem_cons_of_mem _ hk')) _

/-! ## Records that a loop of assignments makes -/

theorem foldl_set_of_nodup {entries o : Record α} (hnodup : (entries.map Prod.fst).Nodup)
    (hnew : ∀ e ∈ entries, o.hasOwn e.1 = false) :
    entries.foldl (fun o e => o.set e.1 e.2) o = o ++ entries := by
  induction entries generalizing o with
  | nil => exact (List.append_nil o).symm
  | cons e entries ih =>
    obtain ⟨hhead, htail⟩ := List.nodup_cons.mp (List.map_cons ▸ hnodup)
    obtain ⟨key, v⟩ := e
    have hset : o.set key v = o ++ [(key, v)] := set_of_new (hnew (key, v) List.mem_cons_self) v
    rw [List.foldl_cons, hset, ih htail]
    · rw [List.append_assoc]
      rfl
    · intro e' he'
      have hne : e'.1 ≠ key := fun heq => hhead (List.mem_map.mpr ⟨e', he', heq⟩)
      rw [hasOwn_eq_false, get?_append, hasOwn_eq_false.mp (hnew e' (List.mem_cons_of_mem _ he'))]
      simp [get?_cons, hne]

end Js.Record
