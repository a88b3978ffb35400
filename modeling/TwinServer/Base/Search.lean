-- SUMMARY: The search for the first item that a test accepts, over every order of a list, also where the test may throw.
import Mathlib.Data.List.Nodup

/-!
# First matches

`List.findM?` with a test in `Except` stops at the first item that the test accepts, and fails at an item before it on
which the test throws. A search succeeds in every order of a list exactly when the test decides every item and accepts
one.
-/

namespace List

variable {α : Type}

theorem exists_perm_cons {a : α} {l : List α} (h : a ∈ l) : ∃ rest, (a :: rest).Perm l := by
  obtain ⟨before, after, rfl⟩ := List.append_of_mem h
  exact ⟨before ++ after, perm_middle.symm⟩

/-- Two items of a list may come first, in either order. -/
theorem exists_perm_cons_cons {a b : α} {l : List α} (ha : a ∈ l) (hb : b ∈ l) (hne : a ≠ b) :
    ∃ rest, (a :: b :: rest).Perm l := by
  obtain ⟨rest, hrest⟩ := exists_perm_cons ha
  have hmem : b ∈ rest := by
    rcases mem_cons.mp (hrest.mem_iff.mpr hb) with rfl | h
    · exact absurd rfl hne
    · exact h
  obtain ⟨rest', hrest'⟩ := exists_perm_cons hmem
  exact ⟨rest', (hrest'.cons a).trans hrest⟩

section
variable {β : Type} [BEq β] [LawfulBEq β] {key : α → β} {l l' : List α}

/-- Where the keys differ, the first item with a key is the only one. -/
theorem find?_eq_some_iff_of_nodup (h : (l.map key).Nodup) {k : β} {a : α} :
    l.find? (key · == k) = some a ↔ a ∈ l ∧ key a = k := by
  constructor
  · intro hfind
    have hkey := List.find?_some hfind
    exact ⟨List.mem_of_find?_eq_some hfind, eq_of_beq hkey⟩
  · rintro ⟨ha, rfl⟩
    cases hfind : l.find? (key · == key a) with
    | none =>
      have hnone := List.find?_eq_none.mp hfind a ha
      simp at hnone
    | some b =>
      have hkey : key b = key a := by simpa using List.find?_some hfind
      rw [inj_on_of_nodup_map h (List.mem_of_find?_eq_some hfind) ha hkey]

theorem find?_of_perm (hperm : l'.Perm l) (h : (l.map key).Nodup) (k : β) :
    l'.find? (key · == k) = l.find? (key · == k) := by
  have h' : (l'.map key).Nodup := (hperm.map key).nodup_iff.mpr h
  refine Option.ext fun a => ?_
  rw [find?_eq_some_iff_of_nodup h', find?_eq_some_iff_of_nodup h, hperm.mem_iff]

end

end List

namespace Except

variable {ε α : Type} {p : α → Except ε Bool} {a : α} {l : List α}

/-- The test does not throw on the item. -/
def Decides (p : α → Except ε Bool) (a : α) : Prop := ∃ b, p a = .ok b

theorem findM?_cons_ok {b : Bool} (h : p a = .ok b) :
    (a :: l).findM? p = if b then .ok (some a) else l.findM? p := by
  rw [List.findM?, h]
  cases b <;> rfl

theorem findM?_cons_true (h : p a = .ok true) : (a :: l).findM? p = .ok (some a) := findM?_cons_ok h

theorem findM?_cons_false (h : p a = .ok false) : (a :: l).findM? p = l.findM? p := findM?_cons_ok h

/-- A search that ends has decided the first item. -/
theorem decides_of_findM?_cons {found : Option α} (h : (a :: l).findM? p = .ok found) : Decides p a := by
  cases ha : p a with
  | error e =>
    rw [List.findM?, ha] at h
    cases h
  | ok b => exact ⟨b, ha⟩

/-- What is found is an item that the test accepts. -/
theorem mem_of_findM? (h : l.findM? p = .ok (some a)) : a ∈ l ∧ p a = .ok true := by
  induction l with
  | nil => cases h
  | cons b l ih =>
    obtain ⟨c, hc⟩ := decides_of_findM?_cons h
    rw [findM?_cons_ok hc] at h
    cases c with
    | true =>
      obtain rfl := Option.some.inj (Except.ok.inj h)
      exact ⟨List.mem_cons_self, hc⟩
    | false =>
      obtain ⟨hmem, ha⟩ := ih h
      exact ⟨List.mem_cons_of_mem b hmem, ha⟩

theorem exists_findM? (hdecides : ∀ a ∈ l, Decides p a) (h : ∃ a ∈ l, p a = .ok true) :
    ∃ a, l.findM? p = .ok (some a) := by
  induction l with
  | nil =>
    obtain ⟨a, ha, -⟩ := h
    cases ha
  | cons b l ih =>
    obtain ⟨c, hc⟩ := hdecides b List.mem_cons_self
    rw [findM?_cons_ok hc]
    cases c with
    | true => exact ⟨b, rfl⟩
    | false =>
      refine ih (fun a ha => hdecides a (List.mem_cons_of_mem b ha)) ?_
      obtain ⟨a, ha, hp⟩ := h
      rcases List.mem_cons.mp ha with rfl | ha
      · rw [hc] at hp
        cases hp
      · exact ⟨a, ha, hp⟩

/-- A search that ends with an item in every order of a list decides every item, and one is accepted. -/
theorem exists_findM?_iff : (∀ l' : List α, l'.Perm l → ∃ a, l'.findM? p = .ok (some a)) ↔
    (∀ a ∈ l, Decides p a) ∧ ∃ a ∈ l, p a = .ok true := by
  constructor
  · intro h
    constructor
    · intro a ha
      obtain ⟨rest, hrest⟩ := List.exists_perm_cons ha
      obtain ⟨b, hb⟩ := h _ hrest
      exact decides_of_findM?_cons hb
    · obtain ⟨a, ha⟩ := h l (.refl l)
      exact ⟨a, mem_of_findM? ha⟩
  · rintro ⟨hdecides, a, ha, hp⟩ l' hperm
    exact exists_findM? (fun b hb => hdecides b (hperm.mem_iff.mp hb)) ⟨a, hperm.mem_iff.mpr ha, hp⟩

end Except
