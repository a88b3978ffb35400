-- SUMMARY: Asynchronous tasks over a shared state: runs, guarded runs, and the rules that prove what every run keeps.
import Mathlib.Algebra.BigOperators.Group.List.Basic
import Mathlib.Data.List.Perm.Basic

/-!
# Asynchronous tasks

A single-threaded program with asynchronous functions is a machine of tasks over a
shared state. A call runs to its first suspension and leaves a task; a task is
resumed with what it waited for and runs to its next suspension. Between two
suspensions nothing else happens, so every run is a sequence of such segments.

Invariants are thread-modular: one of the shared state, one of each task against the
shared state, and one of each pair of tasks. What a segment has to show is that it
keeps the three, given that they hold of the tasks at rest.
-/

namespace Async

/-! ## Machines and their runs -/

structure Machine (σ τ κ ι ε : Type) where
  /-- The first segment of a call. -/
  call : σ → κ → Option (σ × τ)
  /-- The segment of a task that is resumed with an input. -/
  resume : σ → τ → ι → Option (σ × τ)
  /-- What happens to the shared state from outside. -/
  env : σ → ε → Option σ

structure Config (σ τ : Type) where
  shared : σ
  tasks : List τ

inductive Event (κ ι ε : Type) where
  | call (k : κ)
  | resume (n : Nat) (i : ι)
  | env (e : ε)

/-- A call whose task has a number, and its inputs. -/
def Event.alone {κ ι ε : Type} (n : Nat) (k : κ) (is : List ι) : List (Event κ ι ε) :=
  .call k :: is.map (.resume n)

/-- A condition on the resumption of a task, given the shared state, the task, the
other tasks and the input. -/
abbrev Guard (σ τ ι : Type) := σ → τ → List τ → ι → Prop

section
variable {σ τ κ ι ε : Type}

/-- The guard that allows every resumption. -/
def Guard.any : Guard σ τ ι := fun _ _ _ _ => True

/-- What two guards both allow. -/
def Guard.and (g g' : Guard σ τ ι) : Guard σ τ ι := fun s t others i =>
  g s t others i ∧ g' s t others i

namespace Machine

variable (M : Machine σ τ κ ι ε)

@[local grind] def step (c : Config σ τ) : Event κ ι ε → Option (Config σ τ)
  | .call k => (M.call c.shared k).map fun r => ⟨r.1, c.tasks ++ [r.2]⟩
  | .resume n i => c.tasks[n]?.bind fun t =>
      (M.resume c.shared t i).map fun r => ⟨r.1, c.tasks.set n r.2⟩
  | .env e => (M.env c.shared e).map fun s => ⟨s, c.tasks⟩

end Machine

def Machine.run (M : Machine σ τ κ ι ε) (c : Config σ τ) :
    List (Event κ ι ε) → Option (Config σ τ)
  | [] => some c
  | e :: es => (M.step c e).bind fun c' => M.run c' es

/-- The guard allows the event. -/
def Guard.Allows (g : Guard σ τ ι) (c : Config σ τ) : Event κ ι ε → Prop
  | .resume n i => ∀ t, c.tasks[n]? = some t → g c.shared t (c.tasks.eraseIdx n) i
  | _ => True

/-- The guard allows every event along the run. -/
def Machine.Meets (M : Machine σ τ κ ι ε) (g : Guard σ τ ι) (c : Config σ τ) :
    List (Event κ ι ε) → Prop
  | [] => True
  | e :: es => g.Allows c e ∧ ∀ c', M.step c e = some c' → M.Meets g c' es

theorem Guard.any_allows (c : Config σ τ) (e : Event κ ι ε) : Guard.any.Allows c e := by
  cases e with
  | resume n i => intro _ _; trivial
  | call k => trivial
  | env e => trivial

theorem Machine.meets_any (M : Machine σ τ κ ι ε) (c : Config σ τ) (es : List (Event κ ι ε)) :
    M.Meets Guard.any c es := by
  induction es generalizing c with
  | nil => trivial
  | cons e es ih => exact ⟨Guard.any_allows c e, fun c' _ => ih c'⟩

theorem Machine.run_cons (M : Machine σ τ κ ι ε) {c c' : Config σ τ} {e : Event κ ι ε}
    (h : M.step c e = some c') (es : List (Event κ ι ε)) : M.run c (e :: es) = M.run c' es := by
  rw [Machine.run, h, Option.bind_some]

theorem Machine.run_append (M : Machine σ τ κ ι ε) {c c' : Config σ τ}
    {es : List (Event κ ι ε)} (h : M.run c es = some c') (es' : List (Event κ ι ε)) :
    M.run c (es ++ es') = M.run c' es' := by
  induction es generalizing c with
  | nil =>
      obtain rfl := Option.some.inj h
      rfl
  | cons e es ih =>
      simp only [List.cons_append, Machine.run, Option.bind_eq_some_iff] at h ⊢
      obtain ⟨d, hd, hrun⟩ := h
      rw [hd, Option.bind_some, ih hrun]

/-- What one task does with inputs one after the other, while the others rest. -/
def Machine.thread (M : Machine σ τ κ ι ε) (s : σ) (t : τ) : List ι → Option (σ × τ)
  | [] => some (s, t)
  | i :: is => (M.resume s t i).bind fun r => M.thread r.1 r.2 is

/-! ## What one step can do -/

variable {M : Machine σ τ κ ι ε} {c c' : Config σ τ}

theorem Machine.step_call {k : κ} (h : M.step c (.call k) = some c') :
    ∃ s t, M.call c.shared k = some (s, t) ∧ c' = ⟨s, c.tasks ++ [t]⟩ := by
  simp only [Machine.step, Option.map_eq_some_iff] at h
  obtain ⟨⟨s, t⟩, hcall, rfl⟩ := h
  exact ⟨s, t, hcall, rfl⟩

theorem Machine.step_resume {n : Nat} {i : ι} (h : M.step c (.resume n i) = some c') :
    ∃ t s t', c.tasks[n]? = some t ∧ M.resume c.shared t i = some (s, t') ∧
      c' = ⟨s, c.tasks.set n t'⟩ := by
  simp only [Machine.step, Option.bind_eq_some_iff, Option.map_eq_some_iff] at h
  obtain ⟨t, ht, ⟨s, t'⟩, hresume, rfl⟩ := h
  exact ⟨t, s, t', ht, hresume, rfl⟩

theorem Machine.step_of_resume {n : Nat} {i : ι} {t t' : τ} {s : σ} (ht : c.tasks[n]? = some t)
    (h : M.resume c.shared t i = some (s, t')) :
    M.step c (.resume n i) = some ⟨s, c.tasks.set n t'⟩ := by
  rw [Machine.step, ht, Option.bind_some, h, Option.map_some]

theorem Machine.step_env {e : ε} (h : M.step c (.env e) = some c') :
    ∃ s, M.env c.shared e = some s ∧ c' = ⟨s, c.tasks⟩ := by
  simp only [Machine.step, Option.map_eq_some_iff] at h
  obtain ⟨s, henv, rfl⟩ := h
  exact ⟨s, henv, rfl⟩

theorem Machine.run_thread {s s' : σ} {t t' : τ} {is : List ι}
    (h : M.thread s t is = some (s', t')) (tasks : List τ) :
    M.run ⟨s, tasks ++ [t]⟩ (is.map (.resume tasks.length)) = some ⟨s', tasks ++ [t']⟩ := by
  induction is generalizing s t with
  | nil =>
      obtain ⟨rfl, rfl⟩ := Prod.mk.inj (Option.some.inj h)
      rfl
  | cons i is ih =>
      obtain ⟨⟨s₁, t₁⟩, hresume, hrest⟩ := Option.bind_eq_some_iff.mp h
      have hstep := Machine.step_of_resume (c := ⟨s, tasks ++ [t]⟩) List.getElem?_concat_length hresume
      rw [List.map_cons, M.run_cons hstep]
      have hset : (tasks ++ [t]).set tasks.length t₁ = tasks ++ [t₁] := by
        rw [List.set_append_right _ _ (Nat.le_refl _), Nat.sub_self, List.set_cons_zero]
      rw [hset]
      exact ih hrest

theorem Machine.thread_append {s s' : σ} {t t' : τ} {is : List ι}
    (h : M.thread s t is = some (s', t')) (is' : List ι) :
    M.thread s t (is ++ is') = M.thread s' t' is' := by
  induction is generalizing s t with
  | nil =>
      obtain ⟨rfl, rfl⟩ := Prod.mk.inj (Option.some.inj h)
      rfl
  | cons i is ih =>
      obtain ⟨⟨s₁, t₁⟩, hresume, hrest⟩ := Option.bind_eq_some_iff.mp h
      rw [List.cons_append, Machine.thread, hresume, Option.bind_some]
      exact ih hrest

/-- A call that is resumed while the others rest. -/
theorem Machine.run_call {s s₁ s' : σ} {k : κ} {t t' : τ} {is : List ι}
    (hcall : M.call s k = some (s₁, t)) (h : M.thread s₁ t is = some (s', t')) (tasks : List τ) :
    M.run ⟨s, tasks⟩ (Event.alone tasks.length k is) = some ⟨s', tasks ++ [t']⟩ := by
  have hstep : M.step ⟨s, tasks⟩ (.call k) = some ⟨s₁, tasks ++ [t]⟩ := by
    rw [Machine.step, hcall, Option.map_some]
  exact (M.run_cons hstep _).trans (Machine.run_thread h tasks)

/-- The tasks are the one at a place and the others. -/
theorem perm_eraseIdx {l : List τ} {n : Nat} {t : τ} (h : l[n]? = some t) :
    l.Perm (t :: l.eraseIdx n) := by
  obtain ⟨hn, rfl⟩ := List.getElem?_eq_some_iff.mp h
  exact (List.getElem_cons_eraseIdx_perm hn).symm

/-- Replacing the task at a place leaves the others. -/
theorem perm_set {l : List τ} {n : Nat} {t : τ} (h : l[n]? = some t) (t' : τ) :
    (l.set n t').Perm (t' :: l.eraseIdx n) := by
  obtain ⟨hn, -⟩ := List.getElem?_eq_some_iff.mp h
  have hset : (l.set n t')[n]? = some t' := by simp [hn]
  have herase : (l.set n t').eraseIdx n = l.eraseIdx n := by
    rw [List.eraseIdx_set_eq]
  simpa only [herase] using perm_eraseIdx hset

theorem Machine.Meets.cons {g : Guard σ τ ι} {e : Event κ ι ε} {es : List (Event κ ι ε)}
    (hstep : M.step c e = some c') (hallows : g.Allows c e) (hrest : M.Meets g c' es) :
    M.Meets g c (e :: es) := by
  refine ⟨hallows, fun d hd => ?_⟩
  obtain rfl := Option.some.inj (hstep.symm.trans hd)
  exact hrest

theorem Machine.Meets.append {g : Guard σ τ ι} {es es' : List (Event κ ι ε)}
    (h : M.Meets g c es) (hrun : M.run c es = some c') (h' : M.Meets g c' es') :
    M.Meets g c (es ++ es') := by
  induction es generalizing c with
  | nil =>
      obtain rfl := Option.some.inj hrun
      exact h'
  | cons e es ih =>
      obtain ⟨d, hd, hrun⟩ := Option.bind_eq_some_iff.mp hrun
      exact .cons hd h.1 (ih (h.2 d hd) hrun)

/-- A run that meets a guard meets one that allows more. -/
theorem Machine.Meets.weaken {g g' : Guard σ τ ι} {es : List (Event κ ι ε)} (h : M.Meets g' c es)
    (hg : ∀ {s t others i}, g' s t others i → g s t others i) : M.Meets g c es := by
  induction es generalizing c with
  | nil => trivial
  | cons e es ih =>
      refine ⟨?_, fun d hd => ih (h.2 d hd)⟩
      cases e with
      | resume n i => exact fun t ht => hg (h.1 t ht)
      | call k => trivial
      | env e => trivial

/-- A guard that allows the inputs of a run whatever the state allows the run. -/
theorem Machine.meets_of_inputs {g : Guard σ τ ι} {es : List (Event κ ι ε)}
    (hg : ∀ n i, .resume n i ∈ es → ∀ s t others, g s t others i) : M.Meets g c es := by
  induction es generalizing c with
  | nil => trivial
  | cons e es ih =>
      refine ⟨?_, fun d _ => ih fun n i hi => hg n i (List.mem_cons_of_mem _ hi)⟩
      cases e with
      | call k => trivial
      | resume n i => exact fun t _ => hg n i List.mem_cons_self _ _ _
      | env e => trivial

/-- A task that runs alone meets a guard that allows its inputs to a task without
others. -/
theorem Machine.meets_alone {g : Guard σ τ ι} {es : List (Event κ ι ε)}
    (hg : ∀ n i, .resume n i ∈ es → ∀ s t, g s t [] i) (hc : c.tasks.length ≤ 1)
    (hes : ∀ k, .call k ∉ es) : M.Meets g c es := by
  induction es generalizing c with
  | nil => trivial
  | cons e es ih =>
      have hg' : ∀ n i, .resume n i ∈ es → ∀ s t, g s t [] i :=
        fun n i hi => hg n i (List.mem_cons_of_mem _ hi)
      have hes' : ∀ k, .call k ∉ es := fun k hk => hes k (List.mem_cons_of_mem _ hk)
      cases e with
      | call k => exact absurd List.mem_cons_self (hes k)
      | resume n i =>
        refine ⟨fun t ht => ?_, fun d hd => ?_⟩
        · have hothers : c.tasks.eraseIdx n = [] := by
            have hlength := (perm_eraseIdx ht).length_eq
            rw [List.length_cons] at hlength
            exact List.eq_nil_of_length_eq_zero (by omega)
          rw [hothers]
          exact hg n i List.mem_cons_self _ _
        · obtain ⟨t, s, t', -, -, rfl⟩ := M.step_resume hd
          exact ih hg' (by simpa using hc) hes'
      | env e =>
        refine ⟨trivial, fun d hd => ?_⟩
        obtain ⟨s, -, rfl⟩ := M.step_env hd
        exact ih hg' hc hes'

/-- What every allowed step keeps, every run that meets the guard keeps. -/
theorem Machine.run_induction {g : Guard σ τ ι} {P : Config σ τ → Prop}
    (hstep : ∀ c e c', P c → g.Allows c e → M.step c e = some c' → P c')
    {es : List (Event κ ι ε)} (hc : P c) (hmeets : M.Meets g c es) (hrun : M.run c es = some c') :
    P c' := by
  induction es generalizing c with
  | nil =>
      obtain rfl := Option.some.inj hrun
      exact hc
  | cons e es ih =>
      obtain ⟨hallows, hrest⟩ := hmeets
      obtain ⟨d, hd, hrun⟩ := Option.bind_eq_some_iff.mp hrun
      exact ih (hstep c e d hc hallows hd) (hrest d hd) hrun

/-- The three parts of a thread-modular invariant. -/
structure Holds (I : σ → Prop) (L : σ → τ → Prop) (R : τ → τ → Prop) (c : Config σ τ) : Prop where
  shared : I c.shared
  tasks : ∀ t ∈ c.tasks, L c.shared t
  pairs : c.tasks.Pairwise R

/-- What the segments of a machine have to show: given that the invariant holds of the
task and of the tasks at rest, it holds afterwards. -/
structure Modular (M : Machine σ τ κ ι ε) (g : Guard σ τ ι) (I : σ → Prop) (L : σ → τ → Prop)
    (R : τ → τ → Prop) : Prop where
  symm : ∀ {t u}, R t u → R u t
  call : ∀ {s k s' t}, I s → M.call s k = some (s', t) →
    I s' ∧ L s' t ∧ ∀ u, L s u → L s' u ∧ R t u
  resume : ∀ {s t i s' t'} {others : List τ}, I s → L s t → (∀ u ∈ others, L s u ∧ R t u) →
    g s t others i → M.resume s t i = some (s', t') →
    I s' ∧ L s' t' ∧ ∀ u ∈ others, L s' u ∧ R t' u
  env : ∀ {s e s'}, I s → M.env s e = some s' → I s' ∧ ∀ u, L s u → L s' u

variable {g : Guard σ τ ι} {I : σ → Prop} {L : σ → τ → Prop} {R : τ → τ → Prop}

/-- The invariant seen from one task: it holds of the task, and of the others with it. -/
theorem Holds.focus (hsymm : ∀ {t u}, R t u → R u t) (h : Holds I L R c) {n : Nat} {t : τ}
    (ht : c.tasks[n]? = some t) :
    L c.shared t ∧ ∀ u ∈ c.tasks.eraseIdx n, L c.shared u ∧ R t u := by
  have hperm := perm_eraseIdx ht
  have hpairs := (hperm.pairwise_iff hsymm).mp h.pairs
  refine ⟨h.tasks t (List.mem_of_getElem? ht), fun u hu => ⟨?_, ?_⟩⟩
  · exact h.tasks u (hperm.symm.subset (List.mem_cons_of_mem _ hu))
  · exact (List.pairwise_cons.mp hpairs).1 u hu

/-- The invariant of two tasks at different places. -/
theorem Holds.pair (hsymm : ∀ {t u}, R t u → R u t) (h : Holds I L R c) {m n : Nat} {t u : τ}
    (hne : m ≠ n) (ht : c.tasks[m]? = some t) (hu : c.tasks[n]? = some u) : R t u := by
  refine ((h.focus hsymm ht).2 u ?_).2
  exact List.mem_eraseIdx_iff_getElem?.mpr ⟨n, hne.symm, hu⟩

theorem Modular.step (hM : Modular M g I L R) {e : Event κ ι ε} (h : Holds I L R c)
    (hallows : g.Allows c e) (hstep : M.step c e = some c') : Holds I L R c' := by
  cases e with
  | call k =>
    obtain ⟨s, t, hcall, rfl⟩ := M.step_call hstep
    obtain ⟨hI, hL, hothers⟩ := hM.call h.shared hcall
    refine ⟨hI, ?_, ?_⟩
    · intro u hu
      rcases List.mem_append.mp hu with hu | hu
      · exact (hothers u (h.tasks u hu)).1
      · obtain rfl := List.mem_singleton.mp hu
        exact hL
    · refine List.pairwise_append.mpr ⟨h.pairs, List.pairwise_singleton _ _, fun u hu v hv => ?_⟩
      obtain rfl := List.mem_singleton.mp hv
      exact hM.symm (hothers u (h.tasks u hu)).2
  | resume n i =>
    obtain ⟨t, s, t', ht, hresume, rfl⟩ := M.step_resume hstep
    obtain ⟨hLt, hothers⟩ := h.focus hM.symm ht
    obtain ⟨hI, hL, hothers'⟩ := hM.resume h.shared hLt hothers (hallows t ht) hresume
    have hperm := perm_set ht t'
    refine ⟨hI, ?_, ?_⟩
    · intro u hu
      rcases List.mem_cons.mp (hperm.subset hu) with rfl | hu
      · exact hL
      · exact (hothers' u hu).1
    · rw [hperm.pairwise_iff hM.symm, List.pairwise_cons]
      refine ⟨fun u hu => (hothers' u hu).2, ?_⟩
      exact ((perm_eraseIdx ht).pairwise_iff hM.symm |>.mp h.pairs).tail
  | env e =>
    obtain ⟨s, henv, rfl⟩ := M.step_env hstep
    obtain ⟨hI, hothers⟩ := hM.env h.shared henv
    exact ⟨hI, fun u hu => hothers u (h.tasks u hu), h.pairs⟩

theorem Modular.run (hM : Modular M g I L R) {es : List (Event κ ι ε)} (h : Holds I L R c)
    (hmeets : M.Meets g c es) (hrun : M.run c es = some c') : Holds I L R c' :=
  M.run_induction (P := Holds I L R) (fun _ _ _ hc ha hs => hM.step hc ha hs) h hmeets hrun

/-- A configuration without tasks needs the invariant of the shared state only. -/
theorem Holds.init {s : σ} (h : I s) : Holds I L R ⟨s, []⟩ :=
  ⟨h, by simp, List.Pairwise.nil⟩

/-- Two modular invariants hold together in runs that meet both guards. -/
theorem Modular.and {g' : Guard σ τ ι} {I' : σ → Prop} {L' : σ → τ → Prop} {R' : τ → τ → Prop}
    (h : Modular M g I L R) (h' : Modular M g' I' L' R') :
    Modular M (g.and g') (fun s => I s ∧ I' s) (fun s t => L s t ∧ L' s t)
      (fun t u => R t u ∧ R' t u) where
  symm hR := ⟨h.symm hR.1, h'.symm hR.2⟩
  call hI hcall := by
    obtain ⟨hI₁, hL₁, hothers₁⟩ := h.call hI.1 hcall
    obtain ⟨hI₂, hL₂, hothers₂⟩ := h'.call hI.2 hcall
    refine ⟨⟨hI₁, hI₂⟩, ⟨hL₁, hL₂⟩, fun u hu => ?_⟩
    obtain ⟨hu₁, hR₁⟩ := hothers₁ u hu.1
    obtain ⟨hu₂, hR₂⟩ := hothers₂ u hu.2
    exact ⟨⟨hu₁, hu₂⟩, hR₁, hR₂⟩
  resume hI hL hothers hg hresume := by
    obtain ⟨hI₁, hL₁, hothers₁⟩ := h.resume hI.1 hL.1
      (fun u hu => ⟨(hothers u hu).1.1, (hothers u hu).2.1⟩) hg.1 hresume
    obtain ⟨hI₂, hL₂, hothers₂⟩ := h'.resume hI.2 hL.2
      (fun u hu => ⟨(hothers u hu).1.2, (hothers u hu).2.2⟩) hg.2 hresume
    refine ⟨⟨hI₁, hI₂⟩, ⟨hL₁, hL₂⟩, fun u hu => ?_⟩
    obtain ⟨hu₁, hR₁⟩ := hothers₁ u hu
    obtain ⟨hu₂, hR₂⟩ := hothers₂ u hu
    exact ⟨⟨hu₁, hu₂⟩, hR₁, hR₂⟩
  env hI henv := by
    obtain ⟨hI₁, hothers₁⟩ := h.env hI.1 henv
    obtain ⟨hI₂, hothers₂⟩ := h'.env hI.2 henv
    exact ⟨⟨hI₁, hI₂⟩, fun u hu => ⟨hothers₁ u hu.1, hothers₂ u hu.2⟩⟩

/-- What the segments have to show of a second invariant when the first one is known. -/
structure Extends (M : Machine σ τ κ ι ε) (g : Guard σ τ ι) (I : σ → Prop) (L : σ → τ → Prop)
    (R : τ → τ → Prop) (I' : σ → Prop) (L' : σ → τ → Prop) (R' : τ → τ → Prop) : Prop where
  symm : ∀ {t u}, R' t u → R' u t
  call : ∀ {s k s' t}, I s → I' s → M.call s k = some (s', t) →
    I' s' ∧ L' s' t ∧ ∀ u, L s u → L' s u → L' s' u ∧ R' t u
  resume : ∀ {s t i s' t'} {others : List τ}, I s → I' s → L s t → L' s t →
    (∀ u ∈ others, (L s u ∧ R t u) ∧ L' s u ∧ R' t u) → g s t others i →
    M.resume s t i = some (s', t') → I' s' ∧ L' s' t' ∧ ∀ u ∈ others, L' s' u ∧ R' t' u
  env : ∀ {s e s'}, I s → I' s → M.env s e = some s' → I' s' ∧ ∀ u, L s u → L' s u → L' s' u

/-- A modular invariant and one that builds on it hold together. -/
theorem Modular.extend {I' : σ → Prop} {L' : σ → τ → Prop} {R' : τ → τ → Prop}
    (h : Modular M g I L R) (h' : Extends M g I L R I' L' R') :
    Modular M g (fun s => I s ∧ I' s) (fun s t => L s t ∧ L' s t) (fun t u => R t u ∧ R' t u) where
  symm hR := ⟨h.symm hR.1, h'.symm hR.2⟩
  call hI hcall := by
    obtain ⟨hI₁, hL₁, hothers₁⟩ := h.call hI.1 hcall
    obtain ⟨hI₂, hL₂, hothers₂⟩ := h'.call hI.1 hI.2 hcall
    refine ⟨⟨hI₁, hI₂⟩, ⟨hL₁, hL₂⟩, fun u hu => ?_⟩
    obtain ⟨hu₁, hR₁⟩ := hothers₁ u hu.1
    obtain ⟨hu₂, hR₂⟩ := hothers₂ u hu.1 hu.2
    exact ⟨⟨hu₁, hu₂⟩, hR₁, hR₂⟩
  resume hI hL hothers hg hresume := by
    obtain ⟨hI₁, hL₁, hothers₁⟩ := h.resume hI.1 hL.1
      (fun u hu => ⟨(hothers u hu).1.1, (hothers u hu).2.1⟩) hg hresume
    obtain ⟨hI₂, hL₂, hothers₂⟩ := h'.resume hI.1 hI.2 hL.1 hL.2
      (fun u hu => ⟨⟨(hothers u hu).1.1, (hothers u hu).2.1⟩, (hothers u hu).1.2,
        (hothers u hu).2.2⟩) hg hresume
    refine ⟨⟨hI₁, hI₂⟩, ⟨hL₁, hL₂⟩, fun u hu => ?_⟩
    obtain ⟨hu₁, hR₁⟩ := hothers₁ u hu
    obtain ⟨hu₂, hR₂⟩ := hothers₂ u hu
    exact ⟨⟨hu₁, hu₂⟩, hR₁, hR₂⟩
  env hI henv := by
    obtain ⟨hI₁, hothers₁⟩ := h.env hI.1 henv
    obtain ⟨hI₂, hothers₂⟩ := h'.env hI.1 hI.2 henv
    exact ⟨⟨hI₁, hI₂⟩, fun u hu => ⟨hothers₁ u hu.1, hothers₂ u hu.1 hu.2⟩⟩

/-- A guard that allows less keeps the invariant. -/
theorem Modular.weaken {g' : Guard σ τ ι} (h : Modular M g I L R)
    (hg : ∀ {s t others i}, g' s t others i → g s t others i) : Modular M g' I L R :=
  ⟨h.symm, h.call, fun hI hL hothers hg' hresume => h.resume hI hL hothers (hg hg') hresume, h.env⟩

/-- An invariant that holds under every guard holds under a guard. -/
theorem Modular.guarded (h : Modular M Guard.any I L R) : Modular M g I L R :=
  h.weaken fun _ => trivial

/-- What the segments of a task keep of it, every run keeps of the task at a place. -/
theorem Machine.run_task {P : τ → Prop}
    (hresume : ∀ {s t i s' t'}, P t → M.resume s t i = some (s', t') → P t')
    {es : List (Event κ ι ε)} {n : Nat} {t : τ} (ht : c.tasks[n]? = some t) (hP : P t)
    (hrun : M.run c es = some c') : ∃ t', c'.tasks[n]? = some t' ∧ P t' := by
  induction es generalizing c t with
  | nil =>
      obtain rfl := Option.some.inj hrun
      exact ⟨t, ht, hP⟩
  | cons e es ih =>
      obtain ⟨d, hs, hrun⟩ := Option.bind_eq_some_iff.mp hrun
      cases e with
      | call k =>
        obtain ⟨s, u, -, rfl⟩ := M.step_call hs
        refine ih ?_ hP hrun
        have hlt : n < c.tasks.length := (List.getElem?_eq_some_iff.mp ht).1
        rw [List.getElem?_append_left hlt, ht]
      | resume m i =>
        obtain ⟨u, s, u', hu, hr, rfl⟩ := M.step_resume hs
        rcases Nat.decEq m n with hne | rfl
        · refine ih ?_ hP hrun
          rw [List.getElem?_set_ne hne, ht]
        · obtain rfl := Option.some.inj (ht.symm.trans hu)
          refine ih (t := u') ?_ (hresume hP hr) hrun
          have hlt : m < c.tasks.length := (List.getElem?_eq_some_iff.mp ht).1
          rw [List.getElem?_set_self hlt]
      | env e =>
        obtain ⟨s, -, rfl⟩ := M.step_env hs
        exact ih (c := ⟨s, c.tasks⟩) ht hP hrun

/-! ## Origins -/

/-- What a call establishes of its task, and every segment keeps, holds of every task of
a run for some call of the run. -/
theorem Machine.task_origin {P : κ → τ → Prop}
    (hcall : ∀ {s k s' t}, M.call s k = some (s', t) → P k t)
    (hresume : ∀ {k s t i s' t'}, P k t → M.resume s t i = some (s', t') → P k t')
    {es : List (Event κ ι ε)} (hc : c.tasks = []) (hrun : M.run c es = some c') {t : τ}
    (ht : t ∈ c'.tasks) : ∃ k, .call k ∈ es ∧ P k t := by
  have hstep : ∀ (S : κ → Prop) (es : List (Event κ ι ε)) (d : Config σ τ),
      (∀ k, .call k ∈ es → S k) → (∀ u ∈ d.tasks, ∃ k, S k ∧ P k u) →
      M.run d es = some c' → ∃ k, S k ∧ P k t := by
    intro S es
    induction es with
    | nil =>
        intro d _ hd hrun
        obtain rfl := Option.some.inj hrun
        exact hd t ht
    | cons e es ih =>
        intro d hS hd hrun
        obtain ⟨d', hs, hrun⟩ := Option.bind_eq_some_iff.mp hrun
        refine ih d' (fun k hk => hS k (List.mem_cons_of_mem _ hk)) ?_ hrun
        cases e with
        | call k =>
          obtain ⟨s, u, hk, rfl⟩ := M.step_call hs
          intro v hv
          rcases List.mem_append.mp hv with hv | hv
          · exact hd v hv
          · obtain rfl := List.mem_singleton.mp hv
            exact ⟨k, hS k List.mem_cons_self, hcall hk⟩
        | resume n i =>
          obtain ⟨u, s, u', hu, hr, rfl⟩ := M.step_resume hs
          intro v hv
          rcases List.mem_or_eq_of_mem_set hv with hv | rfl
          · exact hd v hv
          · obtain ⟨k, hk, hP⟩ := hd u (List.mem_of_getElem? hu)
            exact ⟨k, hk, hresume hP hr⟩
        | env e =>
          obtain ⟨s, -, rfl⟩ := M.step_env hs
          exact hd
  refine hstep (fun k => .call k ∈ es) es c (fun _ hk => hk) ?_ hrun
  rw [hc]
  intro u hu
  cases hu

/-! ## Relations along runs -/

/-- A preorder on shared states that every segment respects relates the ends of a run. -/
theorem Modular.run_rel (hM : Modular M g I L R) {Q : σ → σ → Prop} (hrefl : ∀ s, Q s s)
    (htrans : ∀ {a b d}, Q a b → Q b d → Q a d)
    (hcall : ∀ {s k s' t}, I s → M.call s k = some (s', t) → Q s s')
    (hresume : ∀ {s t i s' t'} {others : List τ}, I s → L s t →
      (∀ u ∈ others, L s u ∧ R t u) → g s t others i → M.resume s t i = some (s', t') → Q s s')
    (henv : ∀ {s e s'}, I s → M.env s e = some s' → Q s s')
    {es : List (Event κ ι ε)} (h : Holds I L R c) (hmeets : M.Meets g c es)
    (hrun : M.run c es = some c') : Q c.shared c'.shared := by
  have hstep : ∀ d e d', Holds I L R d ∧ Q c.shared d.shared → g.Allows d e →
      M.step d e = some d' → Holds I L R d' ∧ Q c.shared d'.shared := by
    rintro d e d' ⟨hd, hq⟩ hallows hs
    refine ⟨hM.step hd hallows hs, htrans hq ?_⟩
    cases e with
    | call k =>
      obtain ⟨s, t, hc, rfl⟩ := M.step_call hs
      exact hcall hd.shared hc
    | resume n i =>
      obtain ⟨t, s, t', ht, hr, rfl⟩ := M.step_resume hs
      obtain ⟨hLt, hothers⟩ := hd.focus hM.symm ht
      exact hresume hd.shared hLt hothers (hallows t ht) hr
    | env e =>
      obtain ⟨s, he, rfl⟩ := M.step_env hs
      exact henv hd.shared he
  exact (M.run_induction hstep ⟨h, hrefl _⟩ hmeets hrun).2

/-! ## Linearization -/

/-- When every segment either leaves a view of the shared state alone or commits one
operation of its task, the view at the end of a run is the result of the operations
committed on the way, applied in the order of their commits. -/
theorem Modular.linearize (hM : Modular M g I L R) {α β : Type} (commit : τ → Option α)
    (view : σ → β) (apply : β → α → β)
    (hcall : ∀ {s k s' t}, I s → M.call s k = some (s', t) → commit t = none ∧ view s' = view s)
    (hresume : ∀ {s t i s' t'} {others : List τ}, I s → L s t →
      (∀ u ∈ others, L s u ∧ R t u) → g s t others i → M.resume s t i = some (s', t') →
      (commit t' = commit t ∧ view s' = view s) ∨
        ∃ a, commit t = none ∧ commit t' = some a ∧ view s' = apply (view s) a)
    (henv : ∀ {s e s'}, I s → M.env s e = some s' → view s' = view s)
    {es : List (Event κ ι ε)} (h : Holds I L R c) (hmeets : M.Meets g c es)
    (hrun : M.run c es = some c') :
    ∃ log : List α, (c'.tasks.filterMap commit).Perm (c.tasks.filterMap commit ++ log) ∧
      view c'.shared = log.foldl apply (view c.shared) := by
  have hstep : ∀ d e d', (Holds I L R d ∧ ∃ log : List α,
      (d.tasks.filterMap commit).Perm (c.tasks.filterMap commit ++ log) ∧
        view d.shared = log.foldl apply (view c.shared)) → g.Allows d e → M.step d e = some d' →
      (Holds I L R d' ∧ ∃ log : List α,
        (d'.tasks.filterMap commit).Perm (c.tasks.filterMap commit ++ log) ∧
          view d'.shared = log.foldl apply (view c.shared)) := by
    rintro d e d' ⟨hd, log, hperm, hview⟩ hallows hs
    refine ⟨hM.step hd hallows hs, ?_⟩
    cases e with
    | call k =>
      obtain ⟨s, t, hc, rfl⟩ := M.step_call hs
      obtain ⟨hnone, hsame⟩ := hcall hd.shared hc
      exact ⟨log, by simpa [hnone] using hperm, hsame.trans hview⟩
    | env e =>
      obtain ⟨s, he, rfl⟩ := M.step_env hs
      exact ⟨log, hperm, (henv hd.shared he).trans hview⟩
    | resume n i =>
      obtain ⟨t, s, t', ht, hr, rfl⟩ := M.step_resume hs
      obtain ⟨hLt, hothers⟩ := hd.focus hM.symm ht
      have hbefore := (perm_eraseIdx ht).filterMap commit
      have hafter := (perm_set ht t').filterMap commit
      rw [List.filterMap_cons] at hbefore hafter
      rcases hresume hd.shared hLt hothers (hallows t ht) hr with
        ⟨hcommit, hsame⟩ | ⟨a, hnone, hsome, hsame⟩
      · rw [hcommit] at hafter
        exact ⟨log, (hafter.trans hbefore.symm).trans hperm, hsame.trans hview⟩
      · refine ⟨log ++ [a], ?_, ?_⟩
        · rw [hnone] at hbefore
          rw [hsome] at hafter
          refine hafter.trans (((hbefore.symm.trans hperm).cons a).trans ?_)
          rw [← List.append_assoc]
          exact (List.perm_append_singleton a _).symm
        · rw [List.foldl_append, ← hview]
          exact hsame
  exact (M.run_induction hstep ⟨h, [], by simp, rfl⟩ hmeets hrun).2

/-! ## Sums over the tasks -/

/-- A quantity of the shared state to which every task contributes is the sum of the
contributions, where the invariant holds. -/
theorem Modular.run_sum (hM : Modular M g I L R) {α : Type} [AddCancelCommMonoid α] (f : σ → α)
    (w : τ → α) (hcall : ∀ {s k s' t}, I s → M.call s k = some (s', t) → f s' = f s + w t)
    (hresume : ∀ {s t i s' t'}, I s → L s t → M.resume s t i = some (s', t') →
      f s' + w t = f s + w t')
    (henv : ∀ {s e s'}, I s → M.env s e = some s' → f s' = f s) {es : List (Event κ ι ε)}
    (hc : Holds I L R c) (h : f c.shared = (c.tasks.map w).sum) (hmeets : M.Meets g c es)
    (hrun : M.run c es = some c') : f c'.shared = (c'.tasks.map w).sum := by
  have hstep : ∀ d e d', Holds I L R d ∧ f d.shared = (d.tasks.map w).sum → g.Allows d e →
      M.step d e = some d' → Holds I L R d' ∧ f d'.shared = (d'.tasks.map w).sum := by
    rintro d e d' ⟨hd, hsum⟩ hallows hs
    refine ⟨hM.step hd hallows hs, ?_⟩
    cases e with
    | call k =>
      obtain ⟨s, t, hc, rfl⟩ := M.step_call hs
      simp [hcall hd.shared hc, hsum]
    | resume n i =>
      obtain ⟨t, s, t', ht, hr, rfl⟩ := M.step_resume hs
      have hbefore := ((perm_eraseIdx ht).map w).sum_eq
      have hafter := ((perm_set ht t').map w).sum_eq
      simp only [List.map_cons, List.sum_cons] at hbefore hafter
      have hw := hresume hd.shared (hd.focus hM.symm ht).1 hr
      rw [hsum, hbefore] at hw
      rw [hafter]
      refine add_right_cancel (hw.trans ?_)
      ac_rfl
    | env e =>
      obtain ⟨s, he, rfl⟩ := M.step_env hs
      rw [← hsum]
      exact henv hd.shared he
  exact (M.run_induction hstep ⟨hc, h⟩ hmeets hrun).2

/-- The sum without an invariant. -/
theorem Machine.run_sum {α : Type} [AddCancelCommMonoid α] (f : σ → α) (w : τ → α)
    (hcall : ∀ {s k s' t}, M.call s k = some (s', t) → f s' = f s + w t)
    (hresume : ∀ {s t i s' t'}, M.resume s t i = some (s', t') → f s' + w t = f s + w t')
    (henv : ∀ {s e s'}, M.env s e = some s' → f s' = f s)
    {es : List (Event κ ι ε)} (h : f c.shared = (c.tasks.map w).sum)
    (hrun : M.run c es = some c') : f c'.shared = (c'.tasks.map w).sum := by
  have hM : Modular M Guard.any (fun _ => True) (fun _ _ => True) fun _ _ => True :=
    ⟨fun _ => trivial, fun _ _ => ⟨trivial, trivial, fun _ _ => ⟨trivial, trivial⟩⟩,
      fun _ _ _ _ _ => ⟨trivial, trivial, fun _ _ => ⟨trivial, trivial⟩⟩,
      fun _ _ => ⟨trivial, fun _ _ => trivial⟩⟩
  have hc : Holds (fun _ => True) (fun _ _ => True) (fun _ _ => True) c :=
    ⟨trivial, fun _ _ => trivial, List.pairwise_of_forall fun _ _ => trivial⟩
  exact hM.run_sum f w (fun _ => hcall) (fun _ _ => hresume) (fun _ => henv) hc h
    (M.meets_any c es) hrun

end

end Async
