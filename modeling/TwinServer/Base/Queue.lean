-- SUMMARY: Queues of jobs by key, where each job waits for the one before it, and their mutual exclusion.
import TwinServer.Base.Json

/-!
# Queues of jobs

A program that serialises its jobs keeps, under a key, the promise of the last job: a
new job waits for that promise to settle and takes its place. The place is cleared by
a job that has settled and is still the last. Jobs are numbered in the order of their
arrival; of two jobs of one key, the later starts only when the earlier has settled.
-/

open Js

structure Queues where
  /-- the key of every job, by its number -/
  keys : List String
  /-- the jobs that have settled -/
  settled : List Nat
  /-- the last job of a key -/
  tails : Record Nat

namespace Queues

def empty : Queues := ⟨[], [], []⟩

/-- The job a new job of the key waits for. -/
def previous (q : Queues) (key : String) : Option Nat := q.tails.get? key

/-- The number of the next job. -/
def next (q : Queues) : Nat := q.keys.length

def enqueue (q : Queues) (key : String) : Queues :=
  { q with keys := q.keys ++ [key], tails := q.tails.set key q.next }

def settle (q : Queues) (job : Nat) : Queues := { q with settled := job :: q.settled }

/-- The place of the last job is cleared, if it is still the job's. -/
def release (q : Queues) (key : String) (job : Nat) : Queues :=
  if q.tails.get? key = some job then { q with tails := q.tails.delete key } else q

/-- What a job waits for has settled. -/
def ready (q : Queues) (prev : Option Nat) : Bool := prev.all q.settled.contains

/-- The job has the key. -/
def Of (q : Queues) (key : String) (job : Nat) : Prop := q.keys[job]? = some key

/-! ## The invariant -/

structure Valid (q : Queues) : Prop where
  ordered : ∀ key job job', q.Of key job → q.Of key job' → job < job' → job' ∈ q.settled →
    job ∈ q.settled
  last : ∀ key job, q.previous key = some job → q.Of key job ∧ ∀ job', q.Of key job' → job' ≤ job
  idle : ∀ key, q.previous key = none → ∀ job, q.Of key job → job ∈ q.settled
  known : ∀ job ∈ q.settled, job < q.next

/-- A job that waits for another one: what came before it has settled, or is that one,
or came before that one. -/
structure Waiting (q : Queues) (key : String) (job : Nat) (prev : Option Nat) : Prop where
  of : q.Of key job
  unsettled : job ∉ q.settled
  after : ∀ job' < job, q.Of key job' →
    job' ∈ q.settled ∨ ∃ p, prev = some p ∧ q.Of key p ∧ job' ≤ p

/-- A job that has started and not settled. -/
structure Running (q : Queues) (key : String) (job : Nat) : Prop where
  of : q.Of key job
  unsettled : job ∉ q.settled
  after : ∀ job' < job, q.Of key job' → job' ∈ q.settled

variable {q : Queues} {key key' : String} {job job' : Nat} {prev : Option Nat}

theorem valid_empty : empty.Valid where
  ordered _ _ _ h := by simp [Of, empty] at h
  last _ _ h := by cases h
  idle _ _ _ h := by simp [Of, empty] at h
  known _ h := by cases h

theorem Of.lt_next (h : q.Of key job) : job < q.next := (List.getElem?_eq_some_iff.mp h).1

/-- At most one job of a key is running. -/
theorem Running.unique (h : q.Running key job) (h' : q.Running key job') : job = job' := by
  rcases Nat.lt_trichotomy job job' with hlt | heq | hlt
  · exact absurd (h'.after job hlt h.of) h.unsettled
  · exact heq
  · exact absurd (h.after job' hlt h'.of) h'.unsettled

/-- A settled job of the key of a running job came before it. -/
theorem Running.lt_of_settled (hq : q.Valid) (h : q.Running key job) (h' : q.Of key job')
    (hsettled : job' ∈ q.settled) : job' < job := by
  rcases Nat.lt_trichotomy job' job with hlt | rfl | hlt
  · exact hlt
  · exact absurd hsettled h.unsettled
  · exact absurd (hq.ordered key job job' h.of h' hlt hsettled) h.unsettled

/-! ## Arrivals -/

theorem of_enqueue : (q.enqueue key).Of key' job ↔ q.Of key' job ∨ key' = key ∧ job = q.next := by
  simp only [Of, enqueue, next, List.getElem?_append]
  split
  case isTrue hlt =>
    have hne : job ≠ q.keys.length := Nat.ne_of_lt hlt
    simp [hne]
  case isFalse hge =>
    have hnone : q.keys[job]? = none := List.getElem?_eq_none (Nat.le_of_not_lt hge)
    rcases Nat.eq_or_lt_of_le (Nat.le_of_not_lt hge) with heq | hlt
    · simp [← heq, eq_comm]
    · have hzero : job - q.keys.length ≠ 0 := by omega
      have hne : job ≠ q.keys.length := Nat.ne_of_gt hlt
      simp [hnone, hzero, hne]

theorem Valid.enqueue (hq : q.Valid) (key : String) : (q.enqueue key).Valid where
  ordered k a b ha hb hlt hsettled := by
    have hb' : b < q.next := hq.known b hsettled
    have hb'' : q.Of k b := (of_enqueue.mp hb).resolve_right fun h => Nat.ne_of_lt hb' h.2
    have ha' : q.Of k a := (of_enqueue.mp ha).resolve_right fun h => by omega
    exact hq.ordered k a b ha' hb'' hlt hsettled
  last k a h := by
    rw [previous, Queues.enqueue, Record.get?_set] at h
    split at h
    case isTrue hk =>
      obtain rfl := Option.some.inj h
      refine ⟨of_enqueue.mpr (.inr ⟨hk, rfl⟩), fun b hb => ?_⟩
      rcases of_enqueue.mp hb with hb | ⟨-, rfl⟩
      · exact Nat.le_of_lt hb.lt_next
      · exact Nat.le_refl _
    case isFalse hk =>
      obtain ⟨ha, hlast⟩ := hq.last k a h
      refine ⟨of_enqueue.mpr (.inl ha), fun b hb => ?_⟩
      exact hlast b ((of_enqueue.mp hb).resolve_right fun h => hk h.1)
  idle k h a ha := by
    rw [previous, Queues.enqueue, Record.get?_set] at h
    split at h
    case isTrue => cases h
    case isFalse hk => exact hq.idle k h a ((of_enqueue.mp ha).resolve_right fun h => hk h.1)
  known a ha := by
    have hlt := hq.known a ha
    simp only [next, Queues.enqueue, List.length_append, List.length_singleton] at hlt ⊢
    omega

theorem Valid.waiting (hq : q.Valid) (key : String) :
    (q.enqueue key).Waiting key q.next (q.previous key) where
  of := of_enqueue.mpr (.inr ⟨rfl, rfl⟩)
  unsettled h := Nat.lt_irrefl _ (hq.known _ h)
  after a hlt ha := by
    have ha' : q.Of key a := (of_enqueue.mp ha).resolve_right fun h => by omega
    cases hprev : q.previous key with
    | none => exact .inl (hq.idle key hprev a ha')
    | some p =>
      obtain ⟨hp, hlast⟩ := hq.last key p hprev
      exact .inr ⟨p, rfl, of_enqueue.mpr (.inl hp), hlast a ha'⟩

theorem Waiting.enqueue (h : q.Waiting key job prev) (key' : String) :
    (q.enqueue key').Waiting key job prev where
  of := of_enqueue.mpr (.inl h.of)
  unsettled := h.unsettled
  after a hlt ha := by
    have hjob := h.of.lt_next
    have ha' : q.Of key a := (of_enqueue.mp ha).resolve_right fun h => by omega
    refine (h.after a hlt ha').imp id ?_
    rintro ⟨p, hprev, hp, hle⟩
    exact ⟨p, hprev, of_enqueue.mpr (.inl hp), hle⟩

theorem Running.enqueue (h : q.Running key job) (key' : String) :
    (q.enqueue key').Running key job where
  of := of_enqueue.mpr (.inl h.of)
  unsettled := h.unsettled
  after a hlt ha := by
    have hjob := h.of.lt_next
    exact h.after a hlt ((of_enqueue.mp ha).resolve_right fun h => by omega)

/-! ## Starts and ends -/

theorem Waiting.start (hq : q.Valid) (h : q.Waiting key job prev) (hready : q.ready prev) :
    q.Running key job where
  of := h.of
  unsettled := h.unsettled
  after a hlt ha := by
    rcases h.after a hlt ha with hsettled | ⟨p, rfl, hp, hle⟩
    · exact hsettled
    · have hp' : p ∈ q.settled := by simpa [ready] using hready
      rcases Nat.eq_or_lt_of_le hle with rfl | hlt'
      · exact hp'
      · exact hq.ordered key a p ha hp hlt' hp'

theorem Valid.settle (hq : q.Valid) (h : q.Running key job) : (q.settle job).Valid where
  ordered k a b ha hb hlt hsettled := by
    rcases List.mem_cons.mp hsettled with rfl | hsettled
    · obtain rfl : k = key := Option.some.inj (Eq.trans (Eq.symm hb) h.of)
      exact List.mem_cons_of_mem _ (h.after a hlt ha)
    · exact List.mem_cons_of_mem _ (hq.ordered k a b ha hb hlt hsettled)
  last := hq.last
  idle k hk a ha := List.mem_cons_of_mem _ (hq.idle k hk a ha)
  known a ha := by
    rcases List.mem_cons.mp ha with rfl | ha
    · exact h.of.lt_next
    · exact hq.known a ha

theorem Waiting.settle (h : q.Waiting key job prev) (hne : job ≠ job') :
    (q.settle job').Waiting key job prev where
  of := h.of
  unsettled hmem := (List.mem_cons.mp hmem).elim hne h.unsettled
  after a hlt ha := (h.after a hlt ha).imp (List.mem_cons_of_mem _) id

theorem Running.settle (h : q.Running key job) (hne : job ≠ job') :
    (q.settle job').Running key job where
  of := h.of
  unsettled hmem := (List.mem_cons.mp hmem).elim hne h.unsettled
  after a hlt ha := List.mem_cons_of_mem _ (h.after a hlt ha)

theorem release_eq (q : Queues) (key : String) (job : Nat) :
    (q.release key job).keys = q.keys ∧ (q.release key job).settled = q.settled := by
  simp only [release]
  split <;> exact ⟨rfl, rfl⟩

theorem Valid.release (hq : q.Valid) (hjob : job ∈ q.settled) : (q.release key job).Valid := by
  simp only [Queues.release]
  split
  case isFalse => exact hq
  rename_i hlast
  have hprev : ∀ k, Queues.previous { q with tails := q.tails.delete key } k =
      if k = key then none else q.previous k := fun k => Record.get?_delete q.tails key k
  refine ⟨hq.ordered, fun k a h => ?_, fun k h a ha => ?_, hq.known⟩
  · rw [hprev] at h
    split at h
    case isTrue => cases h
    case isFalse => exact hq.last k a h
  · rw [hprev] at h
    split at h
    case isTrue hk =>
      subst hk
      -- the last job has settled, so everything before it has
      obtain ⟨hof, hmax⟩ := hq.last k job hlast
      rcases Nat.eq_or_lt_of_le (hmax a ha) with rfl | hlt
      · exact hjob
      · exact hq.ordered k a job ha hof hlt hjob
    case isFalse => exact hq.idle k h a ha

theorem Waiting.release (h : q.Waiting key job prev) (key' : String) (job' : Nat) :
    (q.release key' job').Waiting key job prev := by
  obtain ⟨hkeys, hsettled⟩ := release_eq q key' job'
  refine ⟨?_, ?_, ?_⟩
  · rw [Of, hkeys]
    exact h.of
  · rw [hsettled]
    exact h.unsettled
  · intro a hlt ha
    rw [Of, hkeys] at ha
    simpa only [Of, hkeys, hsettled] using h.after a hlt ha

theorem Running.release (h : q.Running key job) (key' : String) (job' : Nat) :
    (q.release key' job').Running key job := by
  obtain ⟨hkeys, hsettled⟩ := release_eq q key' job'
  refine ⟨?_, ?_, ?_⟩
  · rw [Of, hkeys]
    exact h.of
  · rw [hsettled]
    exact h.unsettled
  · intro a hlt ha
    rw [Of, hkeys] at ha
    simpa only [hsettled] using h.after a hlt ha

end Queues
