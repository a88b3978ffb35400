-- SUMMARY: Runs related to runs: a run without the tasks of others, and simulations that know what is to come.
import TwinServer.Base.Async

/-!
# Related runs

Two ways to find a run of a machine from another run. The first takes the segments of
some tasks away and shows that the rest of the run is still there. The second follows a
run with a run of another machine; what the second machine does may depend on a choice
that only a later segment of the first explains.
-/

namespace Async

variable {σ σ' τ τ' κ κ' ι ι' ε ε' : Type}

/-! ## Runs without the tasks of others -/

/-- The event belongs to one of the first `n` tasks, or comes from outside. -/
@[local grind] def Event.within (n : Nat) : Event κ ι ε → Bool
  | .call _ => false
  | .resume m _ => m < n
  | .env _ => true

/-- What has to be shown: the tasks that stay do the same on related states, and the
segments of the others keep the states related. -/
structure Hides (M : Machine σ τ κ ι ε) (S : σ → σ → Prop) (T : τ → τ → Prop) (O : τ → Prop) :
    Prop where
  own : ∀ {s s' t t' i s₁ t₁}, S s s' → T t t' → M.resume s t i = some (s₁, t₁) →
    ∃ s₁' t₁', M.resume s' t' i = some (s₁', t₁') ∧ S s₁ s₁' ∧ T t₁ t₁'
  other : ∀ {s s' t i s₁ t₁}, S s s' → O t → M.resume s t i = some (s₁, t₁) → S s₁ s' ∧ O t₁
  env : ∀ {s s' e s₁}, S s s' → M.env s e = some s₁ → ∃ s₁', M.env s' e = some s₁' ∧ S s₁ s₁'

theorem forall₂_getElem? {R : τ → τ' → Prop} {l : List τ} {l' : List τ'}
    (h : List.Forall₂ R l l') {n : Nat} {t : τ} (ht : l[n]? = some t) :
    ∃ t', l'[n]? = some t' ∧ R t t' := by
  induction h generalizing n with
  | nil => cases ht
  | @cons a b l l' hab _ ih =>
      cases n with
      | zero =>
        obtain rfl := Option.some.inj ht
        exact ⟨b, rfl, hab⟩
      | succ n => exact ih ht

theorem forall₂_set {R : τ → τ' → Prop} {l : List τ} {l' : List τ'} (h : List.Forall₂ R l l')
    (n : Nat) {t : τ} {t' : τ'} (ht : R t t') : List.Forall₂ R (l.set n t) (l'.set n t') := by
  induction h generalizing n with
  | nil => exact .nil
  | cons hab hrest ih =>
      cases n with
      | zero => exact .cons ht hrest
      | succ n => exact .cons hab (ih n)

/-- The run is there without the segments of the others. -/
theorem Hides.run {M : Machine σ τ κ ι ε} {S : σ → σ → Prop} {T : τ → τ → Prop} {O : τ → Prop}
    (hM : Hides M S T O) {s s' : σ} {mine mine' others : List τ} {c : Config σ τ}
    {es : List (Event κ ι ε)} (hs : S s s') (hmine : List.Forall₂ T mine mine')
    (hothers : ∀ t ∈ others, O t) (hes : ∀ k, .call k ∉ es)
    (hrun : M.run ⟨s, mine ++ others⟩ es = some c) :
    ∃ c' mine₁ others₁, M.run ⟨s', mine'⟩ (es.filter (Event.within mine.length)) = some c' ∧
      c.tasks = mine₁ ++ others₁ ∧ mine₁.length = mine.length ∧ List.Forall₂ T mine₁ c'.tasks ∧
      S c.shared c'.shared := by
  induction es generalizing s s' mine mine' others with
  | nil =>
      obtain rfl := Option.some.inj hrun
      exact ⟨_, mine, others, rfl, rfl, rfl, hmine, hs⟩
  | cons e es ih =>
      have hes' : ∀ k, .call k ∉ es := fun k hk => hes k (List.mem_cons_of_mem _ hk)
      obtain ⟨d, hstep, hrun⟩ := Option.bind_eq_some_iff.mp hrun
      cases e with
      | call k => exact absurd List.mem_cons_self (hes k)
      | resume n i =>
        obtain ⟨t, s₁, t₁, ht, hresume, rfl⟩ := M.step_resume hstep
        rcases Nat.lt_or_ge n mine.length with hn | hn
        · -- a segment of a task that stays
          rw [List.getElem?_append_left hn] at ht
          obtain ⟨t', ht', hT⟩ := forall₂_getElem? hmine ht
          obtain ⟨s₁', t₁', hresume', hS, hT₁⟩ := hM.own hs hT hresume
          have hstep' : M.step ⟨s', mine'⟩ (.resume n i) = some ⟨s₁', mine'.set n t₁'⟩ :=
            Machine.step_of_resume ht' hresume'
          rw [List.set_append_left _ _ hn] at hrun
          have hrest := ih hS (forall₂_set hmine n hT₁) hothers hes' hrun
          rw [List.length_set] at hrest
          rw [List.filter_cons_of_pos (by simpa [Event.within] using hn)]
          simp only [Machine.run, hstep', Option.bind_some]
          exact hrest
        · -- a segment of a task that is hidden
          rw [List.getElem?_append_right hn] at ht
          obtain ⟨hS, hO⟩ := hM.other hs (hothers t (List.mem_of_getElem? ht)) hresume
          rw [List.set_append_right _ _ hn] at hrun
          rw [List.filter_cons_of_neg (by simpa [Event.within] using hn)]
          refine ih hS hmine (fun u hu => ?_) hes' hrun
          rcases List.mem_or_eq_of_mem_set hu with hu | rfl
          · exact hothers u hu
          · exact hO
      | env e =>
        obtain ⟨s₁, henv, rfl⟩ := M.step_env hstep
        obtain ⟨s₁', henv', hS⟩ := hM.env hs henv
        have hstep' : M.step ⟨s', mine'⟩ (.env e) = some ⟨s₁', mine'⟩ := by
          simp only [Machine.step, henv', Option.map_some]
        rw [List.filter_cons_of_pos rfl]
        simp only [Machine.run, hstep', Option.bind_some]
        exact ih hS hmine hothers hes' hrun

/-! ## Restricted calls -/

/-- The machine that takes only some calls. -/
def Machine.only (M : Machine σ τ κ ι ε) (p : κ → Bool) : Machine σ τ κ ι ε :=
  { M with call := fun s k => if p k then M.call s k else none }

theorem Machine.step_only (M : Machine σ τ κ ι ε) {p : κ → Bool} {c : Config σ τ}
    {e : Event κ ι ε} (h : ∀ k, e = .call k → p k) : (M.only p).step c e = M.step c e := by
  cases e with
  | call k =>
    simp only [Machine.step, Machine.only]
    rw [if_pos (h k rfl)]
  | resume n i => rfl
  | env e => rfl

/-- A run whose calls the machine takes is a run of the restricted machine. -/
theorem Machine.run_only (M : Machine σ τ κ ι ε) {p : κ → Bool} {c : Config σ τ}
    {es : List (Event κ ι ε)} (h : ∀ k, .call k ∈ es → p k) : (M.only p).run c es = M.run c es := by
  induction es generalizing c with
  | nil => rfl
  | cons e es ih =>
      have hhead : ∀ k, e = .call k → p k := fun k hk => h k (hk ▸ List.mem_cons_self)
      have htail : ∀ k, .call k ∈ es → p k := fun k hk => h k (List.mem_cons_of_mem _ hk)
      rw [Machine.run, Machine.run, M.step_only hhead]
      cases M.step c e with
      | none => rfl
      | some d => exact ih htail

theorem Machine.meets_only (M : Machine σ τ κ ι ε) {g : Guard σ τ ι} {p : κ → Bool}
    {c : Config σ τ} {es : List (Event κ ι ε)} (h : ∀ k, .call k ∈ es → p k)
    (hmeets : M.Meets g c es) : (M.only p).Meets g c es := by
  induction es generalizing c with
  | nil => trivial
  | cons e es ih =>
      have hhead : ∀ k, e = .call k → p k := fun k hk => h k (hk ▸ List.mem_cons_self)
      refine ⟨hmeets.1, fun d hd => ?_⟩
      rw [M.step_only hhead] at hd
      exact ih (fun k hk => h k (List.mem_cons_of_mem _ hk)) (hmeets.2 d hd)

/-! ## Calls under a condition -/

/-- The machine that takes a call only where a condition on the shared state holds. -/
def Machine.allowing (M : Machine σ τ κ ι ε) (p : σ → κ → Bool) : Machine σ τ κ ι ε :=
  { M with call := fun s k => if p s k then M.call s k else none }

/-- Every call of the run comes where the condition holds. -/
def Machine.Calls (M : Machine σ τ κ ι ε) (p : σ → κ → Bool) (c : Config σ τ) :
    List (Event κ ι ε) → Prop
  | [] => True
  | e :: es => (∀ k, e = .call k → p c.shared k) ∧ ∀ c', M.step c e = some c' → M.Calls p c' es

theorem Machine.step_allowing (M : Machine σ τ κ ι ε) {p : σ → κ → Bool} {c : Config σ τ}
    {e : Event κ ι ε} (h : ∀ k, e = .call k → p c.shared k) : (M.allowing p).step c e = M.step c e := by
  cases e with
  | call k =>
    simp only [Machine.step, Machine.allowing]
    rw [if_pos (h k rfl)]
  | resume n i => rfl
  | env e => rfl

theorem Machine.call_allowing {M : Machine σ τ κ ι ε} {p : σ → κ → Bool} {s s' : σ} {k : κ} {t : τ}
    (h : (M.allowing p).call s k = some (s', t)) : p s k = true ∧ M.call s k = some (s', t) := by
  unfold Machine.allowing at h
  dsimp only at h
  split at h
  case isTrue hp => exact ⟨hp, h⟩
  case isFalse => cases h

/-- A run whose calls meet the condition is a run of the machine that takes no others. -/
theorem Machine.run_allowing (M : Machine σ τ κ ι ε) {p : σ → κ → Bool} {c c' : Config σ τ}
    {es : List (Event κ ι ε)} (h : M.Calls p c es) (hrun : M.run c es = some c') :
    (M.allowing p).run c es = some c' := by
  induction es generalizing c with
  | nil => exact hrun
  | cons e es ih =>
      obtain ⟨d, hstep, hrun⟩ := Option.bind_eq_some_iff.mp hrun
      rw [Machine.run_cons _ ((M.step_allowing h.1).trans hstep)]
      exact ih (h.2 d hstep) hrun

/-- The calls of a run of the machine that takes no others meet the condition. -/
theorem Machine.calls_of_run {M : Machine σ τ κ ι ε} {p : σ → κ → Bool} {c c' : Config σ τ}
    {es : List (Event κ ι ε)} (hrun : (M.allowing p).run c es = some c') : M.Calls p c es := by
  induction es generalizing c with
  | nil => trivial
  | cons e es ih =>
      obtain ⟨d, hstep, hrun⟩ := Option.bind_eq_some_iff.mp hrun
      have hhead : ∀ k, e = .call k → p c.shared k := by
        rintro k rfl
        obtain ⟨r, hcall, -⟩ := Option.map_eq_some_iff.mp hstep
        exact (Machine.call_allowing hcall).1
      rw [M.step_allowing hhead] at hstep
      refine ⟨hhead, fun c' hc' => ?_⟩
      obtain rfl := Option.some.inj (hstep.symm.trans hc')
      exact ih hrun

/-- Every run of the first machine is followed by runs of the second, one for each choice.
A step of the first machine may follow a choice that differs from the one it leads to. -/
theorem Machine.run_simulation {M : Machine σ τ κ ι ε} {M' : Machine σ' τ' κ' ι' ε'}
    {α : Type} {g : Guard σ τ ι} (R : α → Config σ τ → Config σ' τ' → Prop)
    (hstep : ∀ c e c', g.Allows c e → M.step c e = some c' → ∀ a, ∃ b, ∀ d, R b c d →
      ∃ es d', M'.run d es = some d' ∧ R a c' d')
    {c c' : Config σ τ} {d : Config σ' τ'} (hinit : ∀ a, R a c d) {es : List (Event κ ι ε)}
    (hmeets : M.Meets g c es) (hrun : M.run c es = some c') (a : α) :
    ∃ es' d', M'.run d es' = some d' ∧ R a c' d' := by
  have hall : ∀ a, ∃ es' d', M'.run d es' = some d' ∧ R a c' d' := by
    refine M.run_induction (P := fun c => ∀ a, ∃ es' d', M'.run d es' = some d' ∧ R a c d')
      ?_ (fun a => ⟨[], d, rfl, hinit a⟩) hmeets hrun
    intro c e c' hc hallows hs a
    obtain ⟨b, hb⟩ := hstep c e c' hallows hs a
    obtain ⟨es₁, d₁, hrun₁, hR₁⟩ := hc b
    obtain ⟨es₂, d₂, hrun₂, hR₂⟩ := hb d₁ hR₁
    exact ⟨es₁ ++ es₂, d₂, by rw [M'.run_append hrun₁, hrun₂], hR₂⟩
  exact hall a

end Async
