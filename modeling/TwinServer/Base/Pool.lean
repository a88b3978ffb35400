-- SUMMARY: A pool of workers that share an index: every item is taken once, and the results are in the order of the items.
import Mathlib.Data.List.Forall2
import Mathlib.Logic.Function.Iterate
import TwinServer.Base.Steps

/-!
# Worker pools

Workers take the next index of a list as long as there is one, call a function on the item, and keep what the
call resolves with under the index. A call may settle at any time and in any order. A worker whose call is
rejected ends, and the pool is rejected, while the others go on.
-/

namespace Pool

variable {α β ε : Type}

/-- A pool at work. The calls that were made are kept in their order. -/
structure State (β ε : Type) where
  next : Nat
  calls : List Nat
  flying : List Nat
  results : List (Option β)
  failure : Option ε

/-- A worker reads the index, and calls the function on the next item or ends. -/
def State.take (length : Nat) (s : State β ε) : State β ε :=
  if s.next < length then
    { s with next := s.next + 1, calls := s.calls ++ [s.next], flying := s.next :: s.flying }
  else s

/-- The pool before its workers start. -/
def State.idle (length : Nat) : State β ε where
  next := 0
  calls := []
  flying := []
  results := List.replicate length none
  failure := none

/-- The workers start one after the other. -/
def start (length concurrency : Nat) : State β ε :=
  (State.take length)^[min concurrency length] (.idle length)

/-- A call settles: it is one that was made, and it answers as calls on the item do. -/
inductive Step (answers : α → Except ε β → Prop) (items : List α) : State β ε → State β ε → Prop
  | resolve {s : State β ε} {i : Nat} {a : α} {b : β} (hflying : i ∈ s.flying) (hitem : items[i]? = some a)
    (hanswer : answers a (.ok b)) :
    Step answers items s
      (State.take items.length
        { s with flying := s.flying.erase i, results := s.results.set i (some b) })
  | reject {s : State β ε} {i : Nat} {a : α} {e : ε} (hflying : i ∈ s.flying) (hitem : items[i]? = some a)
    (hanswer : answers a (.error e)) :
    Step answers items s { s with flying := s.flying.erase i, failure := s.failure.or (some e) }

/-- All calls are settled and none was rejected: these are the results. -/
structure State.Resolved (s : State β ε) (bs : List β) : Prop where
  settled : s.flying = []
  failure : s.failure = none
  results : s.results = bs.map some

/-! ## The invariant -/

variable {answers : α → Except ε β → Prop} {items : List α} {concurrency : Nat} {s t : State β ε}

/-- What holds of a pool of some workers at any time. -/
structure Inv (answers : α → Except ε β → Prop) (items : List α) (workers : Nat) (s : State β ε) : Prop where
  calls : s.calls = List.range s.next
  next_le : s.next ≤ items.length
  flying_nodup : s.flying.Nodup
  flying_lt : ∀ i ∈ s.flying, i < s.next
  flying_le : s.flying.length ≤ workers
  busy : s.failure = none → s.flying.length = workers ∨ s.next = items.length
  length : s.results.length = items.length
  done : s.failure = none → ∀ i < s.next, i ∉ s.flying →
    ∃ a b, items[i]? = some a ∧ answers a (.ok b) ∧ s.results[i]? = some (some b)

/-- A worker that reads the index keeps the invariant, and a pool of one worker more is at work. -/
theorem Inv.take {workers : Nat} (h : Inv answers items workers s) :
    Inv answers items (workers + 1) (s.take items.length) := by
  unfold State.take
  split
  case isTrue hlt =>
    refine ⟨?_, hlt, ?_, ?_, ?_, ?_, h.length, ?_⟩
    · rw [List.range_succ, h.calls]
    · exact List.nodup_cons.mpr ⟨fun hmem => Nat.lt_irrefl _ (h.flying_lt _ hmem), h.flying_nodup⟩
    · intro i hi
      rcases List.mem_cons.mp hi with rfl | hi
      · exact Nat.lt_succ_self _
      · exact Nat.lt_succ_of_lt (h.flying_lt i hi)
    · exact Nat.succ_le_succ h.flying_le
    · intro hfailure
      -- the index was not at the end, so all workers were busy
      refine .inl ?_
      rw [List.length_cons, (h.busy hfailure).resolve_right (Nat.ne_of_lt hlt)]
    · intro hfailure i hi hflying
      rcases Nat.lt_succ_iff_lt_or_eq.mp hi with hi | rfl
      · exact h.done hfailure i hi fun hmem => hflying (List.mem_cons_of_mem _ hmem)
      · exact absurd List.mem_cons_self hflying
  case isFalse hge =>
    have hend : s.next = items.length := Nat.le_antisymm h.next_le (Nat.not_lt.mp hge)
    exact ⟨h.calls, h.next_le, h.flying_nodup, h.flying_lt, Nat.le_succ_of_le h.flying_le,
      fun _ => .inr hend, h.length, h.done⟩

theorem inv_idle : Inv answers items 0 (State.idle items.length) where
  calls := rfl
  next_le := Nat.zero_le _
  flying_nodup := .nil
  flying_lt := nofun
  flying_le := Nat.le_refl _
  busy _ := .inl rfl
  length := List.length_replicate
  done _ _ hi := absurd hi (Nat.not_lt_zero _)

theorem inv_start : Inv answers items (min concurrency items.length) (start items.length concurrency) := by
  unfold start
  induction min concurrency items.length with
  | zero => exact inv_idle
  | succ workers ih =>
    rw [Function.iterate_succ_apply']
    exact ih.take

/-- A call that settles keeps the invariant. -/
theorem Inv.step {workers : Nat} (h : Inv answers items workers s) (hstep : Step answers items s t) :
    Inv answers items workers t := by
  cases hstep with
  | @resolve i a b hflying hitem hanswer =>
    have hlength : (s.flying.erase i).length + 1 = s.flying.length := List.length_erase_add_one hflying
    obtain ⟨k, hk⟩ : ∃ k, workers = k + 1 := ⟨workers - 1, by have := h.flying_le; omega⟩
    subst hk
    -- the worker whose call resolved reads the index again
    refine Inv.take ⟨h.calls, h.next_le, h.flying_nodup.erase i, ?_, ?_, ?_, ?_, ?_⟩
    · exact fun j hj => h.flying_lt j (List.mem_of_mem_erase hj)
    · have := h.flying_le
      dsimp only
      omega
    · intro hfailure
      refine (h.busy hfailure).imp_left fun hfull => ?_
      dsimp only
      omega
    · rw [List.length_set, h.length]
    · intro hfailure j hj hnot
      by_cases hij : j = i
      · subst hij
        have hlt : j < s.results.length := by
          rw [h.length]
          exact Nat.lt_of_lt_of_le hj h.next_le
        exact ⟨a, b, hitem, hanswer, List.getElem?_set_self hlt⟩
      · obtain ⟨a', b', ha', hanswer', hresult⟩ := h.done hfailure j hj fun hmem =>
          hnot ((List.mem_erase_of_ne hij).mpr hmem)
        exact ⟨a', b', ha', hanswer', by rw [List.getElem?_set_ne (Ne.symm hij), hresult]⟩
  | @reject i a e hflying hitem hanswer =>
    have hfailure : (s.failure.or (some e)) ≠ none := by cases s.failure <;> nofun
    refine ⟨h.calls, h.next_le, h.flying_nodup.erase i, ?_, ?_, ?_, h.length, ?_⟩
    · exact fun j hj => h.flying_lt j (List.mem_of_mem_erase hj)
    · exact Nat.le_trans (List.length_erase_le) h.flying_le
    · exact fun hnone => absurd hnone hfailure
    · exact fun hnone => absurd hnone hfailure

theorem inv_run {n : Nat} (hrun : Steps.Run (Step answers items) n (start items.length concurrency) s) :
    Inv answers items (min concurrency items.length) s :=
  hrun.invariant (fun _ _ h hstep => h.step hstep) inv_start

/-! ## What a run comes to -/

end Pool
