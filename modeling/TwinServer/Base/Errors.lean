-- SUMMARY: What the server's functions throw, and the inversion of computations that may throw.
import Mathlib.Data.List.Forall2
import TwinServer.Base.Json

/-!
# Errors

A function that throws is a value of `Except`. The lemmas of the first section take
a successful run apart, one step at a time.
-/

open Js

namespace Except

variable {ε α β : Type}

theorem bind_eq_ok {x : Except ε α} {f : α → Except ε β} {b : β} :
    (x >>= f) = .ok b ↔ ∃ a, x = .ok a ∧ f a = .ok b := by
  cases x with
  | error e => simp [bind, Except.bind]
  | ok a => simp [bind, Except.bind]

theorem bind_eq_error {x : Except ε α} {f : α → Except ε β} {e : ε} :
    (x >>= f) = .error e ↔ x = .error e ∨ ∃ a, x = .ok a ∧ f a = .error e := by
  cases x with
  | error e => simp [bind, Except.bind]
  | ok a => simp [bind, Except.bind]

/-- A step that only checks. -/
theorem check_bind_eq_ok {x : Except ε Unit} {f : Unit → Except ε β} {b : β} :
    (x >>= f) = .ok b ↔ x = .ok () ∧ f () = .ok b := by
  rw [bind_eq_ok]
  exact ⟨fun ⟨_, h⟩ => h, fun h => ⟨(), h⟩⟩

/-- A check of the result that succeeds finds a result. -/
theorem exists_ok_of_any {x : Except ε α} {p : α → Bool} (h : x.toOption.any p) :
    ∃ a, x = .ok a ∧ p a := by
  cases x with
  | error e => cases h
  | ok a => exact ⟨a, rfl, h⟩

theorem pure_eq_ok {a b : α} : (pure a : Except ε α) = .ok b ↔ a = b := by
  simp [pure, Except.pure]

/-- A traversal succeeds as each of its items does. -/
theorem mapM_eq_ok {f : α → Except ε β} {items : List α} {bs : List β} :
    items.mapM f = .ok bs ↔ List.Forall₂ (fun a b => f a = .ok b) items bs := by
  induction items generalizing bs with
  | nil =>
    rw [List.forall₂_nil_left_iff]
    exact pure_eq_ok.trans eq_comm
  | cons a items ih =>
    rw [List.mapM_cons, bind_eq_ok, List.forall₂_cons_left_iff]
    refine exists_congr fun b => ?_
    rw [bind_eq_ok]
    simp only [ih, pure_eq_ok]
    constructor
    · rintro ⟨hb, rest, hrest, rfl⟩
      exact ⟨rest, hb, hrest, rfl⟩
    · rintro ⟨rest, hb, hrest, rfl⟩
      exact ⟨hb, rest, hrest, rfl⟩

/-- The answers of a successful traversal are those of its items. -/
theorem mem_of_mapM_eq_ok {f : α → Except ε β} {items : List α} {bs : List β} (h : items.mapM f = .ok bs) (b : β) :
    b ∈ bs ↔ ∃ a ∈ items, f a = .ok b := by
  induction mapM_eq_ok.mp h with
  | nil => simp
  | @cons a b' items bs hb' hrest ih =>
    simp only [List.mem_cons, ih (mapM_eq_ok.mpr hrest), exists_eq_or_imp, hb', ok.injEq]
    rw [eq_comm]

/-- A traversal succeeds when its items do. -/
theorem exists_mapM_eq_ok {f : α → Except ε β} {items : List α} (h : ∀ a ∈ items, ∃ b, f a = .ok b) :
    ∃ bs, items.mapM f = .ok bs := by
  induction items with
  | nil => exact ⟨[], rfl⟩
  | cons a items ih =>
    obtain ⟨b, hb⟩ := h a List.mem_cons_self
    obtain ⟨bs, hbs⟩ := ih fun a ha => h a (List.mem_cons_of_mem _ ha)
    exact ⟨b :: bs, by rw [List.mapM_cons, hb, hbs]; rfl⟩

/-- A traversal fails as one of its items does. -/
theorem exists_of_mapM_eq_error {f : α → Except ε β} {items : List α} {e : ε} (h : items.mapM f = .error e) :
    ∃ a ∈ items, f a = .error e := by
  induction items with
  | nil => cases h
  | cons a items ih =>
    rw [List.mapM_cons] at h
    rcases bind_eq_error.mp h with h | ⟨b, -, h⟩
    · exact ⟨a, List.mem_cons_self, h⟩
    · rcases bind_eq_error.mp h with h | ⟨bs, -, h⟩
      · obtain ⟨a', ha', h⟩ := ih h
        exact ⟨a', List.mem_cons_of_mem _ ha', h⟩
      · cases h

theorem exists_answer_of_mapM {f : α → Except ε β} {items : List α} {bs : List β} (h : items.mapM f = .ok bs) {a : α}
    (ha : a ∈ items) : ∃ b, f a = .ok b := by
  induction mapM_eq_ok.mp h with
  | nil => cases ha
  | cons hab hrest ih =>
    rcases List.mem_cons.mp ha with rfl | ha
    · exact ⟨_, hab⟩
    · exact ih (mapM_eq_ok.mpr hrest) ha

/-- The answers to the items of another order of a list are another order of the answers. -/
theorem perm_of_mapM {f : α → Except ε β} {items items' : List α} {bs bs' : List β}
    (hperm : items'.Perm items) (h : items.mapM f = .ok bs) (h' : items'.mapM f = .ok bs') : bs'.Perm bs := by
  have hmap {items : List α} {bs : List β} (h : items.mapM f = .ok bs) : items.map f = bs.map Except.ok := by
    induction mapM_eq_ok.mp h with
    | nil => rfl
    | cons hab hrest ih => rw [List.map_cons, List.map_cons, hab, ih (mapM_eq_ok.mpr hrest)]
  have hok : (bs'.map (Except.ok (ε := ε))).Perm (bs.map Except.ok) := by
    rw [← hmap h, ← hmap h']
    exact hperm.map f
  have hpart : ∀ bs : List β, (bs.map (Except.ok (ε := ε))).filterMap Except.toOption = bs := by
    intro bs
    rw [List.filterMap_map]
    exact List.filterMap_some
  rw [← hpart bs', ← hpart bs]
  exact hok.filterMap _

end Except

/-! ## Application errors -/

inductive ErrorCategory where
  | VALIDATION | AUTHORIZATION | CREDIT | CONNECTOR | OBJECTID
  | NETWORK | SCHEMA | THREAD_INTEGRITY | MATURITY | INTERNAL
  deriving DecidableEq

structure AppError where
  code : String
  message : String
  status : Nat := 500
  category : ErrorCategory := .INTERNAL
  details : Record Json := []

/-- What a call rejects with: an error of the application, a `TypeError` of a string
conversion, or the rejection of an operation it awaited. -/
inductive Thrown where
  | app (error : AppError)
  | type
  | rejection

/-- Go on when the condition fails, throw the error when it holds. -/
def throwIf (c : Bool) (error : AppError) : Except Thrown Unit :=
  if c then .error (.app error) else .ok ()

/-- A string conversion that may throw. -/
def conversion {α : Type} : Option α → Except Thrown α
  | some a => .ok a
  | none => .error .type

@[simp] theorem throwIf_eq_ok {c : Bool} {error : AppError} {u : Unit} :
    throwIf c error = .ok u ↔ c = false := by
  cases c <;> simp [throwIf]

@[simp] theorem conversion_eq_ok {α : Type} {v : Option α} {a : α} : conversion v = .ok a ↔ v = some a := by
  cases v <;> simp [conversion]
