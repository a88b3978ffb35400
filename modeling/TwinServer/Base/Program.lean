-- SUMMARY: Asynchronous functions as trees of queries to a service, and a rely-guarantee logic for all interleavings of them.
import TwinServer.Base.Async

/-!
# Programs

An asynchronous function is a tree: it ends, or it makes a query and goes on with the answer. Whatever it reads of or
does to a shared state is a query, served in one step; between two queries of a function, those of others are served.

The logic says what a function may do while others run. The invariant holds between any two steps, and what a function
relies on is what the steps of the others leave alone. A triple holds from a state on, whatever the others do.
-/

namespace Async

/-! ## Programs -/

inductive Program (Q : Type) (A : Q → Type) (ε α : Type) : Type where
  | done (r : Except ε α)
  | ask (q : Q) (next : Except ε (A q) → Program Q A ε α)

namespace Program

variable {Q : Type} {A : Q → Type} {ε α β : Type}

/-- The program, and then what is made of its result or of its error. -/
def handle : Program Q A ε α → (Except ε α → Program Q A ε β) → Program Q A ε β
  | .done r, f => f r
  | .ask q next, f => .ask q fun r => (next r).handle f

/-- What is made of a result; an error is passed on. -/
def onward (f : α → Program Q A ε β) : Except ε α → Program Q A ε β
  | .ok a => f a
  | .error e => .done (.error e)

instance : Monad (Program Q A ε) where
  pure a := .done (.ok a)
  bind p f := p.handle (onward f)

/-- `await` of one query. -/
def query (q : Q) : Program Q A ε (A q) := .ask q .done

/-- `throw e`. -/
def raise (e : ε) : Program Q A ε α := .done (.error e)

/-- What `p` ended with, once `last` is done; an error of `last` takes its place. -/
def closing (last : Program Q A ε Unit) (r : Except ε α) : Program Q A ε α :=
  last.handle fun
    | .ok _ => .done r
    | .error e => .done (.error e)

/-- `try { p } finally { last }`. -/
def andFinally (p : Program Q A ε α) (last : Program Q A ε Unit) : Program Q A ε α := p.handle (closing last)

/-- What `p` ended with, or `instead` of its error. -/
def catching (instead : Program Q A ε α) : Except ε α → Program Q A ε α
  | .ok a => .done (.ok a)
  | .error _ => instead

/-- `try { p } catch { instead }`. -/
def orElse (p instead : Program Q A ε α) : Program Q A ε α := p.handle (catching instead)

/-! ### What a program may ask -/

/-- Whatever the answers are, the program makes only queries of a kind. -/
def Asks (ok : Q → Prop) : Program Q A ε α → Prop
  | .done _ => True
  | .ask q next => ok q ∧ ∀ r, (next r).Asks ok

variable {ok : Q → Prop}

theorem Asks.handle {p : Program Q A ε α} {f : Except ε α → Program Q A ε β} (h : p.Asks ok)
    (hf : ∀ r, (f r).Asks ok) : (p.handle f).Asks ok := by
  induction p with
  | done r => exact hf r
  | ask q next ih => exact ⟨h.1, fun r => ih r (h.2 r)⟩

theorem Asks.bind {p : Program Q A ε α} {f : α → Program Q A ε β} (h : p.Asks ok) (hf : ∀ a, (f a).Asks ok) :
    (p >>= f).Asks ok := by
  refine Asks.handle h fun r => ?_
  cases r with
  | ok a => exact hf a
  | error e => trivial

theorem asks_done (r : Except ε α) : (.done r : Program Q A ε α).Asks ok := trivial

theorem asks_pure (a : α) : (pure a : Program Q A ε α).Asks ok := trivial

theorem asks_query {q : Q} (h : ok q) : (query q : Program Q A ε (A q)).Asks ok := ⟨h, fun _ => trivial⟩

theorem Asks.ite {c : Bool} {p p' : Program Q A ε α} (h : p.Asks ok) (h' : p'.Asks ok) :
    (if c then p else p').Asks ok := by
  cases c with
  | true => exact h
  | false => exact h'

theorem Asks.andFinally {p : Program Q A ε α} {last : Program Q A ε Unit} (h : p.Asks ok) (hlast : last.Asks ok) :
    (p.andFinally last).Asks ok := by
  refine Asks.handle h fun r => Asks.handle hlast fun r' => ?_
  cases r' with
  | ok _ => trivial
  | error e => trivial

end Program

/-! ## Services -/

/-- What all functions share, and every call with the state it was made in. -/
structure System (σ κ : Type) where
  state : σ
  calls : List (κ × σ)

/-- The call with its state joins the others. -/
def System.called {σ κ : Type} (s : System σ κ) (k : κ) : System σ κ := { s with calls := s.calls ++ [(k, s.state)] }

/-- A function under way. -/
structure Running (Q : Type) (A : Q → Type) (ε α : Type) where
  id : Nat
  program : Program Q A ε α

/-- The function of each call, and how a query is served for the function with a number. -/
structure Service (σ κ Q : Type) (A : Q → Type) (ε α ι : Type) where
  program : κ → Program Q A ε α
  serve : σ → Nat → (q : Q) → ι → Except ε (A q) × σ

section
variable {σ κ Q : Type} {A : Q → Type} {ε α β ι : Type}

/-- Calls that the service takes, and their functions with one query at a time. -/
def Service.machine (S : Service σ κ Q A ε α ι) (takes : κ → Bool) :
    Machine (System σ κ) (Running Q A ε α) κ ι Empty where
  call s k := if takes k then some (s.called k, ⟨s.calls.length, S.program k⟩) else none
  resume s t i :=
    match t.program with
    | .done _ => none
    | .ask q next =>
      let r := S.serve s.state t.id q i
      some ({ s with state := r.2 }, { t with program := next r.1 })
  env _ e := e.elim

/-! ### Programs by themselves -/

namespace Service

variable (S : Service σ κ Q A ε α ι) (t : Nat)

/-- A program to its end while no other is under way, with what the rest of the world decides at each query. -/
def alone : Program Q A ε β → σ → (Nat → ι) → Except ε β × σ
  | .done r, w, _ => (r, w)
  | .ask q next, w, f => alone (next (S.serve w t q (f 0)).1) (S.serve w t q (f 0)).2 fun n => f (n + 1)

/-- However the rest of the world decides, of what it may, the program ends as is said. -/
def Ends (may : ι → Prop) (ends : Except ε β → σ → Prop) : Program Q A ε β → σ → Prop
  | .done r, w => ends r w
  | .ask q next, w => ∀ i, may i → Ends may ends (next (S.serve w t q i).1) (S.serve w t q i).2

variable {S t} {may : ι → Prop} {ends ends' : Except ε β → σ → Prop} {w : σ}

theorem Ends.mono {p : Program Q A ε β} (h : S.Ends t may ends p w) (hends : ∀ r w, ends r w → ends' r w) :
    S.Ends t may ends' p w := by
  induction p generalizing w with
  | done r => exact hends r w h
  | ask q next ih => exact fun i hi => ih _ (h i hi)

theorem Ends.handle {γ : Type} {B : Except ε γ → σ → Prop} {p : Program Q A ε γ}
    {f : Except ε γ → Program Q A ε β} (h : S.Ends t may B p w)
    (hf : ∀ r w, B r w → S.Ends t may ends (f r) w) : S.Ends t may ends (p.handle f) w := by
  induction p generalizing w with
  | done r => exact hf r w h
  | ask q next ih => exact fun i hi => ih _ (h i hi)

theorem Ends.alone {p : Program Q A ε β} (h : S.Ends t may ends p w) {f : Nat → ι} (hf : ∀ n, may (f n)) :
    ends (S.alone t p w f).1 (S.alone t p w f).2 := by
  induction p generalizing w f with
  | done r => exact h
  | ask q next ih => exact ih _ (h (f 0) (hf 0)) fun n => hf (n + 1)

theorem ends_true (p : Program Q A ε β) (w : σ) : S.Ends t may (fun _ _ => True) p w := by
  induction p generalizing w with
  | done r => trivial
  | ask q next ih => exact fun i _ => ih _ _

/-! #### Results -/

section
variable {γ : Type} {R : β → σ → Prop} {G : γ → σ → Prop} {p : Program Q A ε γ} {f : γ → Program Q A ε β}

variable (S t may) in
/-- If the program returns, it is with a result of this kind. -/
def Yields (R : β → σ → Prop) : Program Q A ε β → σ → Prop := S.Ends t may fun r w => ∀ b, r = .ok b → R b w

variable (S t may) in
/-- The program returns, with a result of this kind. -/
def Returns (R : β → σ → Prop) : Program Q A ε β → σ → Prop := S.Ends t may fun r w => ∃ b, r = .ok b ∧ R b w

theorem Yields.pure {b : β} (h : R b w) : S.Yields t may R (pure b) w := fun _ hb => Except.ok.inj hb ▸ h

theorem yields_raise (e : ε) : S.Yields t may R (Program.raise e) w := fun b hb => by cases hb

theorem Yields.query {q : Q} {R : A q → σ → Prop}
    (h : ∀ i, may i → ∀ a, (S.serve w t q i).1 = .ok a → R a (S.serve w t q i).2) :
    S.Yields t may R (Program.query q) w :=
  fun i hi a ha => h i hi a ha

theorem Yields.bind (h : S.Yields t may G p w) (hf : ∀ c w, G c w → S.Yields t may R (f c) w) :
    S.Yields t may R (p >>= f) w := by
  refine Ends.handle h fun r w hr => ?_
  cases r with
  | ok c => exact hf c w (hr c rfl)
  | error e => exact fun b hb => by cases hb

theorem Yields.andFinally {p : Program Q A ε β} {last : Program Q A ε Unit} {R' : β → σ → Prop}
    (h : S.Yields t may R p w) (hlast : ∀ b w, R b w → S.Yields t may (fun _ => R' b) last w) :
    S.Yields t may R' (p.andFinally last) w := by
  refine Ends.handle h fun r w hr => ?_
  cases r with
  | ok b =>
    refine Ends.handle (hlast b w (hr b rfl)) fun r' w hr' => ?_
    cases r' with
    | ok x => exact fun b' hb' => Except.ok.inj hb' ▸ hr' x rfl
    | error e => exact fun b' hb' => by cases hb'
  | error e =>
    -- after an error there is no result, whatever the last part does
    refine Ends.handle (ends_true last w) fun r' w _ => ?_
    cases r' with
    | ok x => exact fun b' hb' => by cases hb'
    | error e' => exact fun b' hb' => by cases hb'

theorem Returns.pure {b : β} (h : R b w) : S.Returns t may R (pure b) w := ⟨b, rfl, h⟩

theorem Returns.query {q : Q} {R : A q → σ → Prop}
    (h : ∀ i, may i → ∃ a, (S.serve w t q i).1 = .ok a ∧ R a (S.serve w t q i).2) :
    S.Returns t may R (Program.query q) w :=
  fun i hi => h i hi

theorem Returns.bind (h : S.Returns t may G p w) (hf : ∀ c w, G c w → S.Returns t may R (f c) w) :
    S.Returns t may R (p >>= f) w := by
  refine Ends.handle h fun r w hr => ?_
  obtain ⟨c, rfl, hc⟩ := hr
  exact hf c w hc

theorem Returns.andFinally {p : Program Q A ε β} {last : Program Q A ε Unit} {R' : β → σ → Prop}
    (h : S.Returns t may R p w) (hlast : ∀ b w, R b w → S.Returns t may (fun _ => R' b) last w) :
    S.Returns t may R' (p.andFinally last) w := by
  refine Ends.handle h fun r w hr => ?_
  obtain ⟨b, rfl, hb⟩ := hr
  refine Ends.handle (hlast b w hb) fun r' w hr' => ?_
  obtain ⟨x, rfl, hx⟩ := hr'
  exact ⟨b, rfl, hx⟩

theorem Returns.orElse {p instead : Program Q A ε β} (h : S.Returns t may R p w) :
    S.Returns t may R (p.orElse instead) w := by
  refine Ends.handle h fun r w hr => ?_
  obtain ⟨b, rfl, hb⟩ := hr
  exact ⟨b, rfl, hb⟩

end

/-- A call that is not interrupted is a part of a run. -/
theorem thread_alone (takes : κ → Bool) (p : Program Q A ε α) (s : System σ κ) (f : Nat → ι) :
    ∃ n, (S.machine takes).thread s ⟨t, p⟩ ((List.range n).map f) =
      some ({ s with state := (S.alone t p s.state f).2 }, ⟨t, .done (S.alone t p s.state f).1⟩) := by
  induction p generalizing s f with
  | done r => exact ⟨0, rfl⟩
  | ask q next ih =>
    obtain ⟨n, hn⟩ := ih (S.serve s.state t q (f 0)).1 { s with state := (S.serve s.state t q (f 0)).2 } fun k => f (k + 1)
    refine ⟨n + 1, ?_⟩
    have hinputs : (List.range (n + 1)).map f = f 0 :: (List.range n).map fun k => f (k + 1) := by
      rw [List.range_succ_eq_map, List.map_cons, List.map_map]
      rfl
    rw [hinputs]
    exact hn

/-- A call after a run, from its beginning to its end while no other is resumed. -/
theorem run_alone {takes : κ → Bool} {k : κ} (hk : takes k) (c : Config (System σ κ) (Running Q A ε α)) (f : Nat → ι) :
    ∃ es, (S.machine takes).run c es =
      some ⟨{ c.shared.called k with state := (S.alone c.shared.calls.length (S.program k) c.shared.state f).2 },
        c.tasks ++ [⟨c.shared.calls.length, .done (S.alone c.shared.calls.length (S.program k) c.shared.state f).1⟩]⟩ := by
  obtain ⟨n, hthread⟩ :=
    thread_alone (S := S) (t := c.shared.calls.length) takes (S.program k) (c.shared.called k) f
  have hcall : (S.machine takes).step c (.call k) =
      some ⟨c.shared.called k, c.tasks ++ [⟨c.shared.calls.length, S.program k⟩]⟩ := by
    simp only [Machine.step, machine, hk, if_true, Option.map_some]
  exact ⟨_, ((S.machine takes).run_cons hcall _).trans (Machine.run_thread hthread c.tasks)⟩

end Service

/-! ## The logic -/

structure Logic (σ κ ε α : Type) where
  inv : System σ κ → Prop
  /-- What the others leave alone for a function. -/
  rely : Nat → System σ κ → System σ κ → Prop
  /-- What holds from when a function has ended. -/
  post : Nat → Except ε α → System σ κ → Prop

namespace Logic

variable (S : Service σ κ Q A ε α ι) (V : Logic σ κ ε α)

/-- What a step of a function has to show. -/
structure Step (t : Nat) (s s' : System σ κ) : Prop where
  inv : V.inv s'
  others : ∀ u, u ≠ t → V.rely u s s'

/-- The program of a function is right from a state on, and ends as is said. -/
def Valid (t : Nat) (ends : Except ε β → System σ κ → Prop) : Program Q A ε β → System σ κ → Prop
  | .done r, s => ends r s
  | .ask q next, s => ∀ s₁, V.rely t s s₁ → V.inv s₁ → ∀ i,
      V.Step t s₁ { s₁ with state := (S.serve s₁.state t q i).2 } ∧
      Valid t ends (next (S.serve s₁.state t q i).1) { s₁ with state := (S.serve s₁.state t q i).2 }

/-- The one for results, the other for errors. -/
def outcomes (R : β → System σ κ → Prop) (E : ε → System σ κ → Prop) : Except ε β → System σ κ → Prop
  | .ok b => R b
  | .error e => E e

/-- From where `P` holds, the program is right, and ends with `R` of its result or with `E` of its error. -/
def Triple (t : Nat) (P : System σ κ → Prop) (p : Program Q A ε β) (R : β → System σ κ → Prop)
    (E : ε → System σ κ → Prop) : Prop :=
  ∀ s, V.inv s → P s → V.Valid S t (outcomes R E) p s

/-- A property that the others leave alone. -/
def Stable (t : Nat) (P : System σ κ → Prop) : Prop := ∀ s s', P s → V.rely t s s' → P s'

/-- What has to be shown of a service. -/
structure Sound (takes : κ → Bool) : Prop where
  refl : ∀ t s, V.rely t s s
  trans : ∀ {t s s' s''}, V.rely t s s' → V.rely t s' s'' → V.rely t s s''
  post : ∀ t r, V.Stable t (V.post t r)
  call : ∀ {s k}, V.inv s → takes k → V.inv (s.called k) ∧ ∀ t, V.rely t s (s.called k)
  program : ∀ {s k}, V.inv s → takes k →
    V.Triple S s.calls.length (· = s.called k) (S.program k) (fun a => V.post s.calls.length (.ok a))
      fun e => V.post s.calls.length (.error e)

/-! ### Rules -/

variable {S V} {t : Nat} {γ : Type} {ends ends' : Except ε β → System σ κ → Prop} {s s' : System σ κ}
  {P P' : System σ κ → Prop} {E E' : ε → System σ κ → Prop} {R R' : β → System σ κ → Prop}
  {G : γ → System σ κ → Prop} {takes : κ → Bool}

theorem Valid.mono {p : Program Q A ε β} (h : V.Valid S t ends p s) (hends : ∀ r s, ends r s → ends' r s) :
    V.Valid S t ends' p s := by
  induction p generalizing s with
  | done r => exact hends r s h
  | ask q next ih =>
    intro s₁ hrely hinv i
    obtain ⟨hstep, hnext⟩ := h s₁ hrely hinv i
    exact ⟨hstep, ih _ hnext⟩

/-- A program, and then what is made of its end. -/
theorem Valid.handle {before : Except ε γ → System σ κ → Prop} {p : Program Q A ε γ}
    {f : Except ε γ → Program Q A ε β} (hinv : V.inv s) (h : V.Valid S t before p s)
    (hf : ∀ r s, V.inv s → before r s → V.Valid S t ends (f r) s) : V.Valid S t ends (p.handle f) s := by
  induction p generalizing s with
  | done r => exact hf r s hinv h
  | ask q next ih =>
    intro s₁ hrely hinv₁ i
    obtain ⟨hstep, hnext⟩ := h s₁ hrely hinv₁ i
    exact ⟨hstep, ih _ hstep.inv hnext⟩

/-- A program that waits is right whatever the others do, and so is one that has ended when what it ended with stays
true. -/
theorem Valid.rests (hV : V.Sound S takes) {p : Program Q A ε β} (hends : ∀ r, V.Stable t (ends r))
    (h : V.Valid S t ends p s) (hrely : V.rely t s s') : V.Valid S t ends p s' := by
  cases p with
  | done r => exact hends r s s' h hrely
  | ask q next => exact fun s₁ hrely₁ => h s₁ (hV.trans hrely hrely₁)

/-- What everybody leaves alone outlives a program: of a step of its own the others rely on it as well. -/
theorem Valid.frame {Q' : System σ κ → Prop} (hstable : ∀ u, V.Stable u Q') {p : Program Q A ε β}
    (h : V.Valid S t ends p s) (hs : Q' s) : V.Valid S t (fun r s => ends r s ∧ Q' s) p s := by
  induction p generalizing s with
  | done r => exact ⟨h, hs⟩
  | ask q next ih =>
    intro s₁ hrely hinv i
    obtain ⟨hstep, hnext⟩ := h s₁ hrely hinv i
    have hs₁ : Q' s₁ := hstable t s s₁ hs hrely
    exact ⟨hstep, ih _ hnext (hstable (t + 1) s₁ _ hs₁ (hstep.others (t + 1) (Nat.succ_ne_self t)))⟩

namespace Triple

theorem frame {p : Program Q A ε β} (h : V.Triple S t P p R E) (hstable : ∀ u, V.Stable u P') :
    V.Triple S t (fun s => P s ∧ P' s) p (fun b s => R b s ∧ P' s) E := by
  refine fun s hinv hs => ((h s hinv hs.1).frame hstable hs.2).mono fun r s hr => ?_
  cases r with
  | ok b => exact hr
  | error e => exact hr.1

theorem mono {p : Program Q A ε β} (h : V.Triple S t P p R E) (hP : ∀ s, V.inv s → P' s → P s)
    (hR : ∀ b s, R b s → R' b s) (hE : ∀ e s, E e s → E' e s) : V.Triple S t P' p R' E' := by
  intro s hinv hs
  refine (h s hinv (hP s hinv hs)).mono fun r s hr => ?_
  cases r with
  | ok b => exact hR b s hr
  | error e => exact hE e s hr

theorem weaken {p : Program Q A ε β} (h : V.Triple S t P p R E) (hP : ∀ s, V.inv s → P' s → P s) :
    V.Triple S t P' p R E :=
  h.mono hP (fun _ _ hb => hb) fun _ _ he => he

/-- What holds of no state is a hypothesis. -/
theorem extract {φ : Prop} {p : Program Q A ε β} (h : φ → V.Triple S t P p R E) :
    V.Triple S t (fun s => P s ∧ φ) p R E :=
  fun s hinv hs => h hs.2 s hinv hs.1

theorem exists_pre {δ : Type} {P : δ → System σ κ → Prop} {p : Program Q A ε β}
    (h : ∀ d, V.Triple S t (P d) p R E) : V.Triple S t (fun s => ∃ d, P d s) p R E :=
  fun s hinv ⟨d, hs⟩ => h d s hinv hs

theorem pure {b : β} (h : ∀ s, V.inv s → P s → R b s) : V.Triple S t P (pure b : Program Q A ε β) R E :=
  fun s hinv hs => h s hinv hs

theorem done {r : Except ε β} (hok : ∀ b, r = .ok b → ∀ s, V.inv s → P s → R b s)
    (herror : ∀ e, r = .error e → ∀ s, P s → E e s) : V.Triple S t P (.done r) R E := by
  intro s hinv hs
  cases r with
  | ok b => exact hok b rfl s hinv hs
  | error e => exact herror e rfl s hs

theorem raise {e : ε} (h : ∀ s, V.inv s → P s → E e s) : V.Triple S t P (Program.raise e : Program Q A ε β) R E :=
  fun s hinv hs => h s hinv hs

theorem handle {p : Program Q A ε γ} {f : Except ε γ → Program Q A ε β} {F : ε → System σ κ → Prop}
    (h : V.Triple S t P p G F) (hok : ∀ c, V.Triple S t (G c) (f (.ok c)) R E)
    (herror : ∀ e, V.Triple S t (F e) (f (.error e)) R E) : V.Triple S t P (p.handle f) R E := by
  intro s hinv hs
  refine Valid.handle hinv (h s hinv hs) fun r s' hinv' hr => ?_
  cases r with
  | ok c => exact hok c s' hinv' hr
  | error e => exact herror e s' hinv' hr

theorem bind {p : Program Q A ε γ} {f : γ → Program Q A ε β} (h : V.Triple S t P p G E)
    (hf : ∀ c, V.Triple S t (G c) (f c) R E) : V.Triple S t P (p >>= f) R E :=
  h.handle hf fun _ _ _ he => he

theorem map {p : Program Q A ε γ} {f : γ → β} (h : V.Triple S t P p G E) (hR : ∀ c s, G c s → R (f c) s) :
    V.Triple S t P (f <$> p) R E :=
  h.bind fun c => pure fun s _ hs => hR c s hs

/-- After an error the last part runs as well. -/
theorem andFinally {p : Program Q A ε β} {last : Program Q A ε Unit} (h : V.Triple S t P p R E)
    (hok : ∀ b, V.Triple S t (R b) last (fun _ => R' b) E')
    (herror : ∀ e, V.Triple S t (E e) last (fun _ => E' e) E') :
    V.Triple S t P (p.andFinally last) R' E' := by
  refine h.handle (fun b => ?_) fun e => ?_
  · exact (hok b).handle (fun _ _ _ hb => hb) fun _ _ _ he => he
  · exact (herror e).handle (fun _ _ _ he => he) fun _ _ _ he => he

theorem orElse {p instead : Program Q A ε β} (h : V.Triple S t P p R E)
    (hinstead : ∀ e, V.Triple S t (E e) instead R E') : V.Triple S t P (p.orElse instead) R E' :=
  h.handle (fun _ _ _ hb => hb) hinstead

/-- A query is served at a moment at which what holds of the function still holds. -/
theorem query {q : Q} {R : A q → System σ κ → Prop} (hstable : V.Stable t P)
    (h : ∀ s, V.inv s → P s → ∀ i, V.Step t s { s with state := (S.serve s.state t q i).2 } ∧
      outcomes R E (S.serve s.state t q i).1 { s with state := (S.serve s.state t q i).2 }) :
    V.Triple S t P (Program.query q : Program Q A ε (A q)) R E := by
  intro s _ hs s₁ hrely hinv i
  obtain ⟨hstep, hends⟩ := h s₁ hinv (hstable s s₁ hs hrely) i
  exact ⟨hstep, hends⟩

/-- A program whose queries leave alone what holds of its function. -/
theorem of_asks {ok : Q → Prop} {p : Program Q A ε β} (hstable : V.Stable t P)
    (hok : ∀ q, ok q → ∀ s, V.inv s → P s → ∀ i, V.Step t s { s with state := (S.serve s.state t q i).2 } ∧
      P { s with state := (S.serve s.state t q i).2 }) (h : p.Asks ok) :
    V.Triple S t P p (fun _ => P) fun _ => P := by
  induction p with
  | done r => exact done (fun _ _ _ _ hs => hs) fun _ _ _ hs => hs
  | ask q next ih =>
    intro s hinv hs s₁ hrely hinv₁ i
    obtain ⟨hstep, hs'⟩ := hok q h.1 s₁ hinv₁ (hstable s s₁ hs hrely) i
    exact ⟨hstep, ih _ (h.2 _) _ hstep.inv hs'⟩

end Triple

/-! ### Runs -/

/-- A function whose program is right. -/
def Going (S : Service σ κ Q A ε α ι) (V : Logic σ κ ε α) (s : System σ κ) (u : Running Q A ε α) : Prop :=
  u.id < s.calls.length ∧ V.Valid S u.id (V.post u.id) u.program s

theorem Going.rests (hV : V.Sound S takes) {u : Running Q A ε α} (h : Going S V s u)
    (hlength : s.calls.length ≤ s'.calls.length) (hrely : V.rely u.id s s') : Going S V s' u :=
  ⟨Nat.lt_of_lt_of_le h.1 hlength, h.2.rests hV (hV.post u.id) hrely⟩

/-- What a served query leaves, and what holds of the function then. -/
theorem Going.resume (hV : V.Sound S takes) (hinv : V.inv s) {i : ι} {u u' : Running Q A ε α}
    (h : Going S V s u) (hresume : (S.machine takes).resume s u i = some (s', u')) :
    u'.id = u.id ∧ s'.calls = s.calls ∧ V.Step u.id s s' ∧ V.Valid S u.id (V.post u.id) u'.program s' := by
  obtain ⟨id, program⟩ := u
  cases program with
  | done r => cases hresume
  | ask q next =>
    obtain ⟨rfl, rfl⟩ := Prod.mk.inj (Option.some.inj hresume)
    obtain ⟨hstep, hnext⟩ := h.2 s (hV.refl id s) hinv i
    exact ⟨rfl, rfl, hstep, hnext⟩

/-- Invariants of one function at a time suffice. -/
theorem Sound.modular (hV : V.Sound S takes) :
    Modular (S.machine takes) Guard.any V.inv (Going S V) fun u w => u.id ≠ w.id where
  symm h := h.symm
  call := by
    intro s k s' u hinv hcall
    obtain ⟨htakes, heq⟩ := Option.ite_none_right_eq_some.mp hcall
    obtain ⟨rfl, rfl⟩ := Prod.mk.inj (Option.some.inj heq)
    obtain ⟨hinv', hrely⟩ := hV.call hinv htakes
    have hlength : s.calls.length < (s.called k).calls.length := by simp [System.called]
    have hvalid : V.Valid S s.calls.length (V.post s.calls.length) (S.program k) (s.called k) :=
      (hV.program hinv htakes _ hinv' rfl).mono fun r s hr => by
        cases r with
        | ok a => exact hr
        | error e => exact hr
    refine ⟨hinv', ⟨hlength, hvalid⟩, fun w hw => ?_⟩
    exact ⟨hw.rests hV (Nat.le_of_lt hlength) (hrely w.id), Ne.symm (Nat.ne_of_lt hw.1)⟩
  resume := by
    intro s u i s' u' others hinv hu hothers _ hresume
    obtain ⟨hid, hcalls, hstep, hvalid⟩ := hu.resume hV hinv hresume
    refine ⟨hstep.inv, ⟨by rw [hid, hcalls]; exact hu.1, hid ▸ hvalid⟩, fun w hw => ?_⟩
    obtain ⟨hgoing, hne⟩ := hothers w hw
    refine ⟨hgoing.rests hV (Nat.le_of_eq (congrArg List.length hcalls.symm)) (hstep.others w.id hne.symm), ?_⟩
    rw [hid]
    exact hne
  env := by
    intro s e
    exact e.elim

variable {es : List (Event κ ι Empty)} {c c' : Config (System σ κ) (Running Q A ε α)}

theorem Sound.run (hV : V.Sound S takes) (hinv : V.inv s) (hrun : (S.machine takes).run ⟨s, []⟩ es = some c) :
    Holds V.inv (Going S V) (fun u w => u.id ≠ w.id) c :=
  hV.modular.run (.init hinv) (Machine.meets_any _ _ _) hrun

/-- The invariant holds along every run. -/
theorem Sound.run_inv (hV : V.Sound S takes) (hinv : V.inv s)
    (hrun : (S.machine takes).run ⟨s, []⟩ es = some c) : V.inv c.shared :=
  (hV.run hinv hrun).shared

/-- What holds of a function that has ended, at the end of a run. -/
theorem Sound.run_post (hV : V.Sound S takes) (hinv : V.inv s)
    (hrun : (S.machine takes).run ⟨s, []⟩ es = some c) {u : Running Q A ε α} (hu : u ∈ c.tasks) {r : Except ε α}
    (hdone : u.program = .done r) : V.post u.id r c.shared := by
  have hvalid := ((hV.run hinv hrun).tasks u hu).2
  rw [hdone] at hvalid
  exact hvalid

/-- What every function may rely on holds between any two moments of a run. -/
theorem Sound.run_rel (hV : V.Sound S takes) {G : System σ κ → System σ κ → Prop} (hrefl : ∀ s, G s s)
    (htrans : ∀ {s s' s''}, G s s' → G s' s'' → G s s'') (hG : ∀ {t s s'}, V.rely t s s' → G s s')
    (h : Holds V.inv (Going S V) (fun u w => u.id ≠ w.id) c) (hrun : (S.machine takes).run c es = some c') :
    G c.shared c'.shared := by
  refine hV.modular.run_rel hrefl htrans ?_ ?_ ?_ h (Machine.meets_any _ _ _) hrun
  · intro s k s' u hinv hcall
    obtain ⟨htakes, heq⟩ := Option.ite_none_right_eq_some.mp hcall
    obtain ⟨rfl, rfl⟩ := Prod.mk.inj (Option.some.inj heq)
    exact hG ((hV.call hinv htakes).2 s.calls.length)
  · intro s u i s' u' others hinv hu _ _ hresume
    exact hG ((hu.resume hV hinv hresume).2.2.1.others (u.id + 1) (Nat.succ_ne_self _))
  · intro s e
    exact e.elim

/-! ### How functions end -/

/-- The function ends with the step from the one moment to the other. -/
def EndsIn (c c' : Config (System σ κ) (Running Q A ε α)) (t : Nat) (r : Except ε α) : Prop :=
  ⟨t, .done r⟩ ∈ c'.tasks ∧ ⟨t, .done r⟩ ∉ c.tasks

section
variable {final : Nat → Except ε α → System σ κ → Prop}

variable (S V takes) (final) in
/-- Every function ends as is said; what holds at its end need not stay true. -/
def Finishes : Prop :=
  ∀ {s k}, V.inv s → takes k →
    V.Triple S s.calls.length (· = s.called k) (S.program k) (fun a => final s.calls.length (.ok a))
      fun e => final s.calls.length (.error e)

variable (S V) (final) in
/-- If the function is under way, its program is right and ends as is said. -/
def Pending (s : System σ κ) (u : Running Q A ε α) : Prop :=
  ∀ q next, u.program = .ask q next → V.Valid S u.id (final u.id) u.program s

theorem Finishes.valid (h : V.Finishes S takes final) {k : κ} (hV : V.Sound S takes) (hinv : V.inv s)
    (hk : takes k) : V.Valid S s.calls.length (final s.calls.length) (S.program k) (s.called k) :=
  (h hinv hk _ (hV.call hinv hk).1 rfl).mono fun r s hr => by
    cases r with
    | ok a => exact hr
    | error e => exact hr

theorem Pending.rests (hV : V.Sound S takes) {u : Running Q A ε α} (h : V.Pending S final s u)
    (hrely : V.rely u.id s s') : V.Pending S final s' u := by
  intro q next hu
  have hvalid := h q next hu
  rw [hu] at hvalid ⊢
  exact fun s₁ hrely₁ => hvalid s₁ (hV.trans hrely hrely₁)

theorem Sound.extends_pending (hV : V.Sound S takes) (hfinal : V.Finishes S takes final) :
    Extends (S.machine takes) Guard.any V.inv (Going S V) (fun u w => u.id ≠ w.id) (fun _ => True)
      (V.Pending S final) fun _ _ => True where
  symm _ := trivial
  call := by
    intro s k s' u hinv _ hcall
    obtain ⟨htakes, heq⟩ := Option.ite_none_right_eq_some.mp hcall
    obtain ⟨rfl, rfl⟩ := Prod.mk.inj (Option.some.inj heq)
    exact ⟨trivial, fun _ _ _ => hfinal.valid hV hinv htakes,
      fun w _ hw => ⟨hw.rests hV ((hV.call hinv htakes).2 w.id), trivial⟩⟩
  resume := by
    intro s u i s' u' others hinv _ hu hpending hothers _ hresume
    obtain ⟨-, -, hstep, -⟩ := hu.resume hV hinv hresume
    refine ⟨trivial, fun q next hu' => ?_, fun w hw => ?_⟩
    · obtain ⟨id, program⟩ := u
      cases program with
      | done r => cases hresume
      | ask q₀ next₀ =>
        obtain ⟨rfl, rfl⟩ := Prod.mk.inj (Option.some.inj hresume)
        exact (hpending q₀ next₀ rfl s (hV.refl id s) hinv i).2
    · obtain ⟨⟨-, hne⟩, hw', -⟩ := hothers w hw
      exact ⟨hw'.rests hV (hstep.others w.id hne.symm), trivial⟩
  env := by
    intro s e
    exact e.elim

/-- What holds when a function ends, in every run. -/
theorem Sound.run_final (hV : V.Sound S takes) (hfinal : V.Finishes S takes final) (hinv : V.inv s)
    (hrun : (S.machine takes).run ⟨s, []⟩ es = some c) {e : Event κ ι Empty}
    (hstep : (S.machine takes).step c e = some c') {r : Except ε α} (hends : EndsIn c c' t r) :
    final t r c'.shared := by
  have hc := (hV.modular.extend (hV.extends_pending hfinal)).run (.init ⟨hinv, trivial⟩) (Machine.meets_any _ _ _) hrun
  obtain ⟨hmem, hnew⟩ := hends
  cases e with
  | call k =>
    obtain ⟨s', u, hcall, rfl⟩ := (S.machine takes).step_call hstep
    obtain ⟨htakes, heq⟩ := Option.ite_none_right_eq_some.mp hcall
    obtain ⟨rfl, rfl⟩ := Prod.mk.inj (Option.some.inj heq)
    rcases List.mem_append.mp hmem with hmem | hmem
    · exact absurd hmem hnew
    · obtain ⟨hid, hprogram⟩ := Running.mk.inj (List.mem_singleton.mp hmem)
      have hvalid := hfinal.valid hV hc.shared.1 htakes
      rw [← hprogram] at hvalid
      exact hid ▸ hvalid
  | resume n i =>
    obtain ⟨u, s', u', hu, hresume, rfl⟩ := (S.machine takes).step_resume hstep
    rcases List.mem_or_eq_of_mem_set hmem with hmem | rfl
    · exact absurd hmem hnew
    · obtain ⟨id, program⟩ := u
      have hpending := (hc.tasks _ (List.mem_of_getElem? hu)).2
      cases program with
      | done r => cases hresume
      | ask q next =>
        obtain ⟨rfl, heq⟩ := Prod.mk.inj (Option.some.inj hresume)
        obtain ⟨rfl, hprogram⟩ := Running.mk.inj heq
        have hvalid := (hpending q next rfl c.shared (hV.refl id _) hc.shared.1 i).2
        rw [hprogram] at hvalid
        exact hvalid
  | env e => exact e.elim

end

end Logic

end

end Async
