-- SUMMARY: JSON values with the JavaScript reading of their properties, and their equality up to key order.
import Mathlib.Data.List.Basic
import TwinServer.Base.Text

/-!
# JSON values

An object is an association list in which the first entry of a key counts, so
that every list denotes an object. The order of the entries is the order in
which `Object.entries` enumerates them; what a program computes is compared with
`Json.Same`, which ignores it.
-/

namespace Js

/-! ## Records -/

/-- The own properties of an object. -/
abbrev Record (α : Type) := List (String × α)

namespace Record

variable {α : Type}

/-- `o[k]`, where `none` is `undefined`. -/
def get? (o : Record α) (k : String) : Option α := List.lookup k o

/-- `Object.hasOwn(o, k)`. -/
def hasOwn (o : Record α) (k : String) : Bool := (o.get? k).isSome

/-- The assignment `o[k] = v`. -/
def set : Record α → String → α → Record α
  | [], k, v => [(k, v)]
  | (k', v') :: o, k, v => if k' = k then (k, v) :: o else (k', v') :: set o k v

/-- `delete o[k]`. -/
def delete (o : Record α) (k : String) : Record α := o.filter fun e => e.1 != k

/-- `Object.entries(o)`: the first entry of every key. -/
def entries : Record α → Record α
  | [] => []
  | (k, v) :: o => (k, v) :: (entries o).filter (fun e => e.1 != k)

/-- The loop `for (const k of keys) if (f(k) !== undefined) o[k] = f(k)`. -/
def assignAll (f : String → Option α) (keys : List String) (o : Record α) : Record α :=
  keys.foldl (fun o k => match f k with
    | some v => o.set k v
    | none => o) o

@[simp] theorem get?_nil (k : String) : get? ([] : Record α) k = none := rfl

theorem get?_cons (k' : String) (v : α) (o : Record α) (k : String) :
    get? ((k', v) :: o) k = if k = k' then some v else o.get? k := by
  by_cases h : k = k'
  · simp [get?, h]
  · have hne : (k == k') = false := by simpa using h
    simp [get?, List.lookup_cons, hne, h]

@[simp] theorem get?_set (o : Record α) (k : String) (v : α) (k' : String) :
    (o.set k v).get? k' = if k' = k then some v else o.get? k' := by
  induction o with
  | nil => simp [set, get?_cons]
  | cons e o ih =>
      obtain ⟨k₀, v₀⟩ := e
      by_cases h : k₀ = k
      · subst h
        simp only [set, if_true, get?_cons]
        split <;> rfl
      · simp only [set, h, if_false, get?_cons, ih]
        by_cases hk : k' = k₀
        · subst hk; simp [h]
        · simp [hk]

@[simp] theorem hasOwn_set (o : Record α) (k : String) (v : α) (k' : String) :
    (o.set k v).hasOwn k' = (decide (k' = k) || o.hasOwn k') := by
  by_cases h : k' = k <;> simp [hasOwn, h]

theorem mem_entries {o : Record α} {k : String} {v : α} :
    (k, v) ∈ o.entries ↔ o.get? k = some v := by
  induction o with
  | nil => simp [entries]
  | cons e o ih =>
      obtain ⟨k₀, v₀⟩ := e
      by_cases h : k = k₀
      · subst h
        simp [entries, get?_cons, eq_comm]
      · simp [entries, get?_cons, h, ih]

theorem get?_filter_ne {k k₀ : String} (h : k ≠ k₀) (o : Record α) :
    Record.get? (o.filter (fun e => e.1 != k₀)) k = o.get? k := by
  induction o with
  | nil => rfl
  | cons e o ih =>
      obtain ⟨k₁, v₁⟩ := e
      by_cases h₁ : k₁ = k₀
      · subst h₁; simp [get?_cons, h, ih]
      · simp [get?_cons, h₁, ih]

theorem get?_delete (o : Record α) (k k' : String) :
    (o.delete k).get? k' = if k' = k then none else o.get? k' := by
  split
  case isTrue h =>
    subst h
    induction o with
    | nil => rfl
    | cons e o ih =>
        obtain ⟨k₀, v₀⟩ := e
        by_cases h : k₀ = k'
        · subst h; simpa [delete] using ih
        · have hne : ¬ k' = k₀ := fun heq => h heq.symm
          simpa [delete, get?_cons, h, hne] using ih
  case isFalse h => exact get?_filter_ne h o

@[simp] theorem get?_entries (o : Record α) (k : String) : o.entries.get? k = o.get? k := by
  induction o with
  | nil => rfl
  | cons e o ih =>
      obtain ⟨k₀, v₀⟩ := e
      by_cases h : k = k₀
      · simp [entries, get?_cons, h]
      · simp [entries, get?_cons, h, get?_filter_ne, ih]

theorem mem_map_of_hasOwn {o : Record α} {k : String} (h : o.hasOwn k) :
    k ∈ o.map Prod.fst := by
  induction o with
  | nil => simp [hasOwn] at h
  | cons e o ih =>
      obtain ⟨k₀, v₀⟩ := e
      by_cases hk : k = k₀
      · simp [hk]
      · simp only [hasOwn, get?_cons, hk, if_false] at h
        exact List.mem_cons_of_mem _ (ih h)

theorem mem_of_get? {o : Record α} {k : String} {v : α} (h : o.get? k = some v) : (k, v) ∈ o := by
  induction o with
  | nil => cases h
  | cons e o ih =>
      obtain ⟨k₀, v₀⟩ := e
      rw [get?_cons] at h
      split at h
      case isTrue hk =>
        obtain rfl := Option.some.inj h
        exact hk ▸ List.mem_cons_self
      case isFalse => exact List.mem_cons_of_mem _ (ih h)

theorem mem_of_mem_set {o : Record α} {k : String} {v : α} {e : String × α} (h : e ∈ o.set k v) :
    e = (k, v) ∨ e ∈ o := by
  induction o with
  | nil => exact .inl (List.mem_singleton.mp h)
  | cons e' o ih =>
      obtain ⟨k', v'⟩ := e'
      simp only [set] at h
      split at h
      · exact (List.mem_cons.mp h).imp_right (List.mem_cons_of_mem _)
      · rcases List.mem_cons.mp h with rfl | h
        · exact .inr List.mem_cons_self
        · exact (ih h).imp_right (List.mem_cons_of_mem _)

theorem length_set_le (o : Record α) (k : String) (v : α) : (o.set k v).length ≤ o.length + 1 := by
  induction o with
  | nil => exact Nat.le_refl _
  | cons e o ih =>
      simp only [set]
      split
      · exact Nat.le_succ _
      · exact Nat.succ_le_succ ih

theorem nodup_entries (o : Record α) : (o.entries.map Prod.fst).Nodup := by
  induction o with
  | nil => exact List.nodup_nil
  | cons e o ih =>
      simp only [entries, List.map_cons, List.nodup_cons]
      refine ⟨by simp, ?_⟩
      exact ih.sublist (List.Sublist.map _ List.filter_sublist)

theorem mem_map_entries {o : Record α} {k : String} :
    k ∈ o.entries.map Prod.fst ↔ o.hasOwn k := by
  simp only [List.mem_map, Prod.exists, exists_and_right, exists_eq_right, mem_entries, hasOwn,
    Option.isSome_iff_exists]

/-- What a loop of assignments leaves behind at a key. -/
theorem get?_assignAll (f : String → Option α) (keys : List String) (o : Record α) (k : String) :
    (assignAll f keys o).get? k =
      if k ∈ keys then (f k).or (o.get? k) else o.get? k := by
  induction keys generalizing o with
  | nil => rfl
  | cons k₀ keys ih =>
      simp only [assignAll, List.foldl_cons] at ih ⊢
      rw [ih]
      by_cases hk : k = k₀
      · subst hk
        cases hf : f k <;> simp
      · cases hf : f k₀ <;> simp [hk]

end Record

/-! ## Values -/

inductive Json where
  | null
  | bool (value : Bool)
  | number (value : Number)
  | string (value : String)
  | array (items : List Json)
  | object (fields : List (String × Json))

namespace Json

/-- The property `v.k` of a value other than `null`. The keys a program reads
through this are properties of no primitive and of no array. -/
def get? : Json → String → Option Json
  | .object fields, k => Record.get? fields k
  | _, _ => none

/-- `a ?? b`. -/
def coalesce (a b : Option Json) : Option Json :=
  match a with
  | none | some .null => b
  | some v => some v

@[local grind] def truthy : Json → Bool
  | .null => false
  | .bool b => b
  | .number x => x.truthy
  | .string s => s != ""
  | .array _ | .object _ => true

/-- The truth value of a property that may be missing. -/
def truthy? (v : Option Json) : Bool := v.elim false truthy

/-- The string a property holds. -/
def asString? : Option Json → Option String
  | some (.string s) => some s
  | _ => none

/-- The number a property holds. -/
def asNumber? : Option Json → Option Number
  | some (.number x) => some x
  | _ => none

/-- The boolean a property holds. -/
def asBool? : Option Json → Option Bool
  | some (.bool b) => some b
  | _ => none

/-- A finite number. -/
def isFiniteNumber : Json → Bool
  | .number x => x.isFinite
  | _ => false

/-- The value is an object and not an array. -/
def isPlainObject : Json → Bool
  | .object _ => true
  | _ => false

/-- `v === w` on values that are not objects; two objects are never the same
reference here. -/
@[local grind] def strictEq : Json → Json → Bool
  | .null, .null => true
  | .bool a, .bool b => a == b
  | .number a, .number b => a != .nan && a == b
  | .string a, .string b => a == b
  | _, _ => false

mutual

/-- `String(v)`. It throws on an object whose own `toString` hides the inherited
one. -/
@[local grind] def toString? [Runtime] : Json → Option String
  | .null => some "null"
  | .bool b => some (if b then "true" else "false")
  | .number x => some (numberToString x)
  | .string s => some s
  | .array items => joinItems items
  | .object fields => if Record.hasOwn fields "toString" then none else some "[object Object]"

/-- `items.join(",")`. -/
def joinItems [Runtime] : List Json → Option String
  | [] => some ""
  | [v] => itemToString v
  | v :: v' :: vs => do
    let s ← itemToString v
    let rest ← joinItems (v' :: vs)
    return s ++ "," ++ rest

def itemToString [Runtime] : Json → Option String
  | .null => some ""
  | .bool b => some (if b then "true" else "false")
  | .number x => some (numberToString x)
  | .string s => some s
  | .array items => joinItems items
  | .object fields => if Record.hasOwn fields "toString" then none else some "[object Object]"

end

/-- `String(v ?? '')`. -/
def textOf? [Runtime] (v : Option Json) : Option String :=
  match v with
  | none | some .null => some ""
  | some v => v.toString?

/-- `Number(v)`, where `none` is `undefined`. It throws when `String` does. -/
@[local grind] def toNumber? [Runtime] : Option Json → Option Number
  | none => some .nan
  | some .null => some 0
  | some (.bool b) => some (if b then 1 else 0)
  | some (.number x) => some x
  | some v => v.toString?.map stringToNumber

/-- `v?.length`. -/
def length? : Json → Option Json
  | .string s => some (.number (utf16Length s))
  | .array items => some (.number items.length)
  | v => v.get? "length"

/-! ## Equality up to key order -/

/-- Two values that differ only in the order of their keys. -/
inductive Same : Json → Json → Prop where
  | refl (v : Json) : Same v v
  | array {as bs : List Json} : List.Forall₂ Same as bs → Same (.array as) (.array bs)
  | object {as bs : List (String × Json)} :
      (∀ k, Option.Rel Same (Record.get? as k) (Record.get? bs k)) → Same (.object as) (.object bs)

/-- Two properties that are both missing or the same up to key order. -/
abbrev Same? (v w : Option Json) : Prop := Option.Rel Same v w

theorem Same?.refl (v : Option Json) : Same? v v := by
  cases v with
  | none => exact .none
  | some v => exact .some (.refl v)

theorem Same.get? {v w : Json} (h : Same v w) (k : String) : Same? (v.get? k) (w.get? k) := by
  cases h with
  | refl => exact Same?.refl _
  | array _ => exact .none
  | object hk => exact hk k

theorem Same.truthy_eq {v w : Json} (h : Same v w) : v.truthy = w.truthy := by
  cases h <;> rfl

theorem Same?.truthy?_eq {v w : Option Json} (h : Same? v w) : truthy? v = truthy? w := by
  cases h with
  | none => rfl
  | some h => exact h.truthy_eq

theorem Same.isPlainObject_eq {v w : Json} (h : Same v w) : v.isPlainObject = w.isPlainObject := by
  cases h <;> rfl

theorem Same?.bind_get? {v w : Option Json} (h : Same? v w) (k : String) :
    Same? (v.bind (·.get? k)) (w.bind (·.get? k)) := by
  cases h with
  | none => exact .none
  | some h => exact h.get? k

theorem Same?.asString?_eq {v w : Option Json} (h : Same? v w) : asString? v = asString? w := by
  cases h with
  | none => rfl
  | some h => cases h <;> rfl

theorem Same?.asNumber?_eq {v w : Option Json} (h : Same? v w) : asNumber? v = asNumber? w := by
  cases h with
  | none => rfl
  | some h => cases h <;> rfl

theorem Same?.asBool?_eq {v w : Option Json} (h : Same? v w) : asBool? v = asBool? w := by
  cases h with
  | none => rfl
  | some h => cases h <;> rfl

theorem Same.isFiniteNumber_eq {v w : Json} (h : Same v w) :
    v.isFiniteNumber = w.isFiniteNumber := by
  cases h <;> rfl

/-- Lists of numbers have no keys whose order could differ. -/
theorem eq_of_forall₂_isFiniteNumber {as bs : List Json} (h : List.Forall₂ Same as bs)
    (has : as.all isFiniteNumber) : as = bs := by
  induction h with
  | nil => rfl
  | cons hab _ ih =>
      simp only [List.all_cons, Bool.and_eq_true] at has
      rw [ih has.2]
      cases hab with
      | refl => rfl
      | array _ => cases has.1
      | object _ => cases has.1

theorem all_isFiniteNumber_eq {as bs : List Json} (h : List.Forall₂ Same as bs) :
    as.all isFiniteNumber = bs.all isFiniteNumber := by
  induction h with
  | nil => rfl
  | cons hab _ ih => simp only [List.all_cons, hab.isFiniteNumber_eq, ih]

/-! ### Records of values -/

/-- Two records whose properties are the same, in any order. -/
def SameRecord (as bs : Record Json) : Prop := ∀ k, Same? (as.get? k) (bs.get? k)

theorem SameRecord.refl (as : Record Json) : SameRecord as as := fun _ => Same?.refl _

theorem SameRecord.set {as bs : Record Json} {v w : Json} (h : SameRecord as bs) (k : String)
    (hv : Same v w) : SameRecord (as.set k v) (bs.set k w) := by
  intro k'
  simp only [Record.get?_set]
  split
  · exact .some hv
  · exact h k'

theorem SameRecord.assignAll {as bs : Record Json} {f g : String → Option Json}
    {keys : List String} (h : SameRecord as bs) (hf : ∀ k ∈ keys, Same? (f k) (g k)) :
    SameRecord (as.assignAll f keys) (bs.assignAll g keys) := by
  intro k
  simp only [Record.get?_assignAll]
  split
  case isTrue hk =>
    have hfk := hf k hk
    revert hfk
    cases f k <;> cases g k <;> intro hfk
    · exact h k
    · cases hfk
    · cases hfk
    · exact hfk
  case isFalse => exact h k

/-- A loop over the own keys of an object reads exactly the object. -/
theorem get?_assignAll_entries {f : String → Option Json} {o : Record Json}
    (hf : ∀ k, o.get? k = none → f k = none) (k : String) :
    (Record.assignAll f (o.entries.map Prod.fst) []).get? k = f k := by
  rw [Record.get?_assignAll]
  split
  case isTrue => simp
  case isFalse hk =>
    have hnone : o.get? k = none := by simpa [Record.mem_map_entries, Record.hasOwn] using hk
    exact (hf k hnone).symm

end Json

end Js
