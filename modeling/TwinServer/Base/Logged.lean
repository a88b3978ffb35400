-- SUMMARY: Computations that may fail and leave a log, and the rules for what holds of every entry.

/-!
# Logged computations

A computation leaves the entries of its log also when it fails afterwards. A property of all
entries is proved along the structure of the computation.
-/

structure Logged (ω ε α : Type) where
  log : List ω
  result : Except ε α

namespace Logged

variable {ω ε α β : Type}

instance : Monad (Logged ω ε) where
  pure a := ⟨[], .ok a⟩
  bind x f := match x.result with
    | .error e => ⟨x.log, .error e⟩
    | .ok a => ⟨x.log ++ (f a).log, (f a).result⟩

/-- A computation without entries. -/
instance : MonadLift (Except ε) (Logged ω ε) := ⟨fun x => ⟨[], x⟩⟩

/-- Leave an entry, then go on with an answer. -/
def entry (e : ω) (answer : Except ε α) : Logged ω ε α := ⟨[e], answer⟩

/-- Every entry of the log has the property. -/
def All (p : ω → Prop) (x : Logged ω ε α) : Prop := ∀ e ∈ x.log, p e

variable {p : ω → Prop}

theorem All.pure (a : α) : All p (Pure.pure a : Logged ω ε α) := by
  intro e he
  cases he

theorem All.lift (x : Except ε α) : All p (liftM x : Logged ω ε α) := by
  intro e he
  cases he

theorem All.entry {e : ω} (h : p e) (answer : Except ε α) : All p (Logged.entry e answer) := by
  intro e' he'
  obtain rfl := List.mem_singleton.mp he'
  exact h

theorem All.bind {x : Logged ω ε α} {f : α → Logged ω ε β} (hx : All p x) (hf : ∀ a, All p (f a)) :
    All p (x >>= f) := by
  intro e he
  simp only [Bind.bind] at he
  split at he
  · exact hx e he
  · rename_i a ha
    rcases List.mem_append.mp he with he | he
    · exact hx e he
    · exact hf a e he

theorem All.liftBind {x : Except ε α} {f : α → Logged ω ε β} (hf : ∀ a, x = .ok a → All p (f a)) :
    All p ((liftM x : Logged ω ε α) >>= f) := by
  cases x with
  | error e => exact fun e he => by cases he
  | ok a => exact hf a rfl

/-- A step without entries that succeeds is followed by the rest. -/
theorem lift_ok_bind (a : α) (f : α → Logged ω ε β) :
    ((liftM (Except.ok a : Except ε α) : Logged ω ε α) >>= f) = f a := rfl

/-- An entry stays in the log whatever follows it. -/
theorem mem_log_entry_bind (e : ω) (answer : Except ε α) (f : α → Logged ω ε β) :
    e ∈ (Logged.entry e answer >>= f).log := by
  cases answer with
  | error _ => exact List.mem_singleton_self e
  | ok a => exact List.mem_append_left _ (List.mem_singleton_self e)

end Logged
