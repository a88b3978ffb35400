-- SUMMARY: Runs of a step relation with their number of steps: invariants, bounds from a measure, and runs to an end.

/-!
# Runs of a step relation

A run is a chain of steps of a relation, counted. What every step keeps holds along every
run, a measure that every step lowers bounds the number of steps, and a relation that can
step from every state of positive measure has a run to measure zero.
-/

namespace Steps

variable {σ : Type}

/-- A run of `n` steps. -/
inductive Run (R : σ → σ → Prop) : Nat → σ → σ → Prop
  | refl (s : σ) : Run R 0 s s
  | head {n : Nat} {s t u : σ} (hstep : R s t) (hrun : Run R n t u) : Run R (n + 1) s u

variable {R : σ → σ → Prop} {I : σ → Prop} {size : σ → Nat} {s t u : σ} {n m : Nat}

theorem Run.trans (h : Run R n s t) (h' : Run R m t u) : ∃ k, Run R k s u := by
  induction h with
  | refl s => exact ⟨m, h'⟩
  | head hstep hrun ih =>
      obtain ⟨k, hk⟩ := ih h'
      exact ⟨k + 1, .head hstep hk⟩

/-- What every step keeps holds at the end of a run. -/
theorem Run.invariant (hstep : ∀ s t, I s → R s t → I t) (hrun : Run R n s t) (hs : I s) : I t := by
  induction hrun with
  | refl s => exact hs
  | head h _ ih => exact ih (hstep _ _ hs h)

/-- A relation that every step is in and that can be chained relates the ends of a run. -/
theorem Run.relate {S : σ → σ → Prop} (hrefl : ∀ s, S s s) (htrans : ∀ s t u, S s t → S t u → S s u)
    (hstep : ∀ s t, R s t → S s t) (hrun : Run R n s t) : S s t := by
  induction hrun with
  | refl s => exact hrefl s
  | head h _ ih => exact htrans _ _ _ (hstep _ _ h) ih

/-- Every step from a state of an invariant lowers the measure, so that the measure bounds the
number of steps. -/
theorem Run.length_le (hstep : ∀ s t, I s → R s t → I t ∧ size t < size s) (hrun : Run R n s t)
    (hs : I s) : n + size t ≤ size s := by
  induction hrun with
  | refl s => exact Nat.le_of_eq (Nat.zero_add _)
  | head h _ ih =>
      obtain ⟨ht, hlt⟩ := hstep _ _ hs h
      have hle := ih ht
      omega

/-- A run to measure zero, when an invariant promises a next step before. -/
theorem exists_run (hstep : ∀ s t, I s → R s t → I t ∧ size t < size s)
    (hnext : ∀ s, I s → size s ≠ 0 → ∃ t, R s t) (hs : I s) :
    ∃ n t, Run R n s t ∧ size t = 0 := by
  generalize hk : size s = k
  induction k using Nat.strongRecOn generalizing s with
  | ind k ih =>
      by_cases hzero : size s = 0
      · exact ⟨0, s, .refl s, hzero⟩
      · obtain ⟨t, hst⟩ := hnext s hs hzero
        obtain ⟨ht, hlt⟩ := hstep s t hs hst
        obtain ⟨n, u, hrun, hu⟩ := ih (size t) (hk ▸ hlt) ht rfl
        exact ⟨n + 1, u, .head hst hrun, hu⟩

end Steps
