-- SUMMARY: Every job is in one place as long as no lookup and no re-enqueue is rejected, and is executed a bounded number of times.
import Mathlib.Data.List.Count
import Mathlib.Data.List.Nodup
import TwinServer.Ingestion.Worker

/-!
# The conservation of jobs

A job is in the queue, in the hands of a call, or among the jobs that have left: the
succeeded ones, those found on the ledger, and the failed ones. A call whose lookup or
re-enqueue is rejected throws, and the job is in no place then.
-/

open Js Async Ledger

namespace Ingestion

/-! ## The property -/

/-- The call has the job in hand: it is in execution. -/
def Phase.carries (k : Nat) : Phase → Bool
  | .dequeued (some item) | .executing item | .looking item | .requeueing item => item.ticket == k
  | _ => false

/-- The number of places the job of a ticket is in. -/
def places (c : Config Worker Task) (k : Nat) : Nat :=
  c.shared.queue.countP (·.ticket == k) + c.tasks.countP (·.phase.carries k) +
    c.shared.succeeded.count k + c.shared.confirmed.count k +
    c.shared.failedJobs.countP (·.ticket == k)

/-- Every job that the queue has accepted is in exactly one place. -/
def Conserved (c : Config Worker Task) : Prop := ∀ k ∈ c.shared.accepted, places c k = 1

def Mark.isBegan (k : Nat) : Mark → Bool
  | .began item => item.ticket == k
  | _ => false

/-- How often the mutation of a job was executed. -/
def Worker.executions (w : Worker) (k : Nat) : Nat := w.journal.countP (Mark.isBegan k)

/-- No lookup and no re-enqueue is rejected. -/
def answered : Guard Worker Task Input := fun _ t _ i =>
  match t.phase, i with
  | .looking _, .lookup (.error _) => False
  | .requeueing _, .enqueued (.error _) => False
  | _, _ => True

theorem answered_of_input {w : Worker} {t : Task} {others : List Task} {i : Input}
    (hlookup : ∀ error, i ≠ .lookup (.error error))
    (henqueued : ∀ error, i ≠ .enqueued (.error error)) : answered w t others i := by
  unfold answered
  split
  · exact hlookup _ rfl
  · exact henqueued _ rfl
  · trivial

/-! ## Tickets -/

structure Worker.Ticketed (w : Worker) : Prop where
  nodup : (w.queue.map QueueItem.ticket).Nodup
  issued : ∀ item ∈ w.queue, item.ticket < w.calls
  once : w.accepted.Nodup
  accepted : ∀ k ∈ w.accepted, k < w.calls

/-- The item of a job that the queue has not accepted yet. -/
def Phase.new? : Phase → Option QueueItem
  | .enqueueing item => some item
  | _ => none

/-- The item in hand is not in the queue, and a new one was not accepted before. -/
structure Task.Ticketed (w : Worker) (t : Task) : Prop where
  held : ∀ item, t.phase.held? = some item →
    item.ticket < w.calls ∧ item.ticket ∉ w.queue.map QueueItem.ticket
  new : ∀ item, t.phase.new? = some item → item.ticket ∉ w.accepted

def Task.Apart (t u : Task) : Prop :=
  ∀ a b, t.phase.held? = some a → u.phase.held? = some b → a.ticket ≠ b.ticket

theorem Task.Apart.symm {t u : Task} (h : t.Apart u) : u.Apart t :=
  fun a b ha hb => (h b a hb ha).symm

/-- What a segment does to the queue and to the item in hand. -/
inductive Moves (w : Worker) (phase : Phase) (w' : Worker) (phase' : Phase) : Prop
  | stays (hqueue : w'.queue = w.queue) (hcalls : w'.calls = w.calls)
    (haccepted : w'.accepted = w.accepted)
    (hheld : phase'.held? = none ∨ phase'.held? = phase.held?)
    (hnew : phase'.new? = none)
  | accepts {item : QueueItem} (hphase : phase = .enqueueing item)
    (hqueue : w'.queue = w.queue ++ [item]) (hcalls : w'.calls = w.calls)
    (haccepted : w'.accepted = w.accepted ++ [item.ticket]) (hheld : phase'.held? = none)
    (hnew : phase'.new? = none)
  | takes {k : Nat} {item : QueueItem} (hitem : w.queue[k]? = some item)
    (hqueue : w'.queue = w.queue.eraseIdx k) (hcalls : w'.calls = w.calls)
    (haccepted : w'.accepted = w.accepted) (hheld : phase' = .dequeued (some item))
  | returns {item : QueueItem} (hphase : phase.held? = some item)
    (hqueue : w'.queue = w.queue ++ [item.retry]) (hcalls : w'.calls = w.calls)
    (haccepted : w'.accepted = w.accepted) (hheld : phase'.held? = none)
    (hnew : phase'.new? = none)

section
variable {maxAttempts : ℕ+} {writer : Writer} {w w' : Worker}

theorem Tested.held? {deadline : Option Nat} {phase : Phase} (h : Tested w deadline phase) :
    phase.held? = none ∧ phase.new? = none ∧ phase.processes = false := by
  cases h <;> exact ⟨rfl, rfl, rfl⟩

theorem Segment.moves {deadline : Option Nat} {phase phase' : Phase} {i : Input}
    (h : Segment maxAttempts writer w deadline phase i w' phase') : Moves w phase w' phase' := by
  cases h with
  | accepted item => exact .accepts rfl rfl rfl rfl rfl rfl
  | tested htests htested =>
    obtain ⟨hheld, hnew, -⟩ := htested.held?
    exact .stays rfl rfl rfl (.inl hheld) hnew
  | took hitem => exact .takes hitem rfl rfl rfl rfl
  | back item => exact .returns rfl rfl rfl rfl rfl rfl
  | finished hphase =>
    obtain rfl | ⟨error, rfl⟩ := hphase <;>
      exact .stays rfl rfl rfl (.inl rfl) rfl
  | began | unsure | again | missing =>
    exact .stays rfl rfl rfl (.inr rfl) rfl
  | declined | failed | nothing | idle | succeeded | gaveUp | confirmed | unavailable | unanswered
  | dropped => exact .stays rfl rfl rfl (.inl rfl) rfl

theorem held?_enqueueing {phase : Phase} {item : QueueItem} (h : phase = .enqueueing item) :
    phase.held? = some item := by
  rw [h]
  rfl

/-- A ticket that is not in the queue is put into it. -/
theorem nodup_queue_append {item : QueueItem} (h : (w.queue.map QueueItem.ticket).Nodup)
    (hitem : item.ticket ∉ w.queue.map QueueItem.ticket) :
    ((w.queue ++ [item]).map QueueItem.ticket).Nodup := by
  rw [List.map_append, List.map_singleton, List.nodup_append]
  refine ⟨h, List.nodup_singleton _, fun a ha b hb => ?_⟩
  obtain rfl := List.mem_singleton.mp hb
  rintro rfl
  exact hitem ha

theorem notMem_queue_append {item : QueueItem} {k : Nat}
    (h : k ∉ w.queue.map QueueItem.ticket) (hne : k ≠ item.ticket) :
    k ∉ (w.queue ++ [item]).map QueueItem.ticket := by
  rw [List.map_append, List.map_singleton, List.mem_append, List.mem_singleton]
  exact not_or.mpr ⟨h, hne⟩

variable (maxAttempts writer) in
theorem ticket_modular :
    Modular (ingestionWorker maxAttempts writer) Guard.any Worker.Ticketed
      (fun w t => t.Ticketed w) Task.Apart where
  symm h := h.symm
  call {w k w' t} hw hcall := by
    cases k with
    | enqueue job =>
      obtain ⟨rfl, rfl⟩ := Prod.mk.inj (Option.some.inj hcall)
      refine ⟨⟨hw.nodup, fun q hq => Nat.lt_succ_of_lt (hw.issued q hq), hw.once,
        fun k hk => Nat.lt_succ_of_lt (hw.accepted k hk)⟩, ⟨?_, ?_⟩, fun u hu => ⟨⟨?_, hu.new⟩, ?_⟩⟩
      · intro item hitem
        obtain rfl := Option.some.inj hitem
        refine ⟨Nat.lt_succ_self _, fun hmem => ?_⟩
        obtain ⟨q, hq, hticket⟩ := List.mem_map.mp hmem
        exact absurd hticket (Nat.ne_of_lt (hw.issued q hq))
      · intro item hitem hmem
        obtain rfl := Option.some.inj hitem
        exact absurd (hw.accepted _ hmem) (Nat.lt_irrefl _)
      · intro item hitem
        exact ⟨Nat.lt_succ_of_lt (hu.held item hitem).1, (hu.held item hitem).2⟩
      · intro a b ha hb
        obtain rfl := Option.some.inj ha
        exact (Nat.ne_of_lt (hu.held b hb).1).symm
    | processNext =>
      obtain ⟨rfl, rfl⟩ := Prod.mk.inj (Option.some.inj hcall)
      refine ⟨hw, ⟨fun item hitem => ?_, fun item hitem => ?_⟩, fun u hu => ⟨hu, fun a b ha hb => ?_⟩⟩
      · cases hitem
      · cases hitem
      · cases ha
    | drain maxWaitMs =>
      obtain ⟨rfl, rfl⟩ := Prod.mk.inj (Option.some.inj hcall)
      refine ⟨hw, ⟨fun item hitem => ?_, fun item hitem => ?_⟩, fun u hu => ⟨hu, fun a b ha hb => ?_⟩⟩
      · cases hitem
      · cases hitem
      · cases ha
  env hw henv := by
    obtain rfl := Option.some.inj henv
    exact ⟨⟨hw.nodup, hw.issued, hw.once, hw.accepted⟩, fun u hu => ⟨hu.held, hu.new⟩⟩
  resume {w t i w' t' others} hw ht hothers _ hresume := by
    obtain ⟨hdeadline, hsegment⟩ := segment_of_resume maxAttempts writer hresume
    cases hsegment.moves with
    | stays hqueue hcalls haccepted hheld hnew =>
      have hsame : ∀ item, t'.phase.held? = some item → t.phase.held? = some item := by
        intro item hitem
        rcases hheld with hnone | hsame
        · rw [hnone] at hitem
          cases hitem
        · rw [← hsame, hitem]
      refine ⟨⟨?_, ?_, ?_, ?_⟩, ⟨?_, ?_⟩, fun u hu => ⟨⟨?_, ?_⟩, ?_⟩⟩
      · rw [hqueue]
        exact hw.nodup
      · rw [hqueue, hcalls]
        exact hw.issued
      · rw [haccepted]
        exact hw.once
      · rw [haccepted, hcalls]
        exact hw.accepted
      · intro item hitem
        rw [hqueue, hcalls]
        exact ht.held item (hsame item hitem)
      · intro item hitem
        rw [hnew] at hitem
        cases hitem
      · rw [hqueue, hcalls]
        exact (hothers u hu).1.held
      · rw [haccepted]
        exact (hothers u hu).1.new
      · exact fun a b ha hb => (hothers u hu).2 a b (hsame a ha) hb
    | @accepts item hphase hqueue hcalls haccepted hheld hnew =>
      have hitem := ht.held item (held?_enqueueing hphase)
      have hfresh : item.ticket ∉ w.accepted := ht.new item (by rw [hphase]; rfl)
      refine ⟨⟨?_, ?_, ?_, ?_⟩, ⟨?_, ?_⟩, fun u hu => ⟨⟨?_, ?_⟩, ?_⟩⟩
      · rw [hqueue]
        exact nodup_queue_append hw.nodup hitem.2
      · rw [hqueue, hcalls]
        exact List.forall_mem_append.mpr ⟨hw.issued, List.forall_mem_singleton.mpr hitem.1⟩
      · rw [haccepted, List.nodup_append]
        refine ⟨hw.once, List.nodup_singleton _, fun a ha b hb => ?_⟩
        obtain rfl := List.mem_singleton.mp hb
        rintro rfl
        exact hfresh ha
      · rw [haccepted, hcalls]
        exact List.forall_mem_append.mpr ⟨hw.accepted, List.forall_mem_singleton.mpr hitem.1⟩
      · intro b hb
        rw [hheld] at hb
        cases hb
      · intro b hb
        rw [hnew] at hb
        cases hb
      · intro b hb
        have hne := (hothers u hu).2 item b (held?_enqueueing hphase) hb
        rw [hqueue, hcalls]
        exact ⟨((hothers u hu).1.held b hb).1,
          notMem_queue_append ((hothers u hu).1.held b hb).2 hne.symm⟩
      · intro b hb hmem
        have hheldb : u.phase.held? = some b := by
          obtain ⟨deadline, phase⟩ := u
          cases phase <;> first | exact hb | cases hb
        rw [haccepted] at hmem
        rcases List.mem_append.mp hmem with hmem | hmem
        · exact (hothers u hu).1.new b hb hmem
        · have hne := (hothers u hu).2 item b (held?_enqueueing hphase) hheldb
          exact hne (List.mem_singleton.mp hmem).symm
      · intro a b ha hb
        rw [hheld] at ha
        cases ha
    | @takes k item hitem hqueue hcalls haccepted hheld =>
      have hsub : (w.queue.eraseIdx k).Sublist w.queue := List.eraseIdx_sublist _ _
      have hperm := ((perm_eraseIdx hitem).map QueueItem.ticket).nodup_iff.mp hw.nodup
      refine ⟨⟨?_, ?_, ?_, ?_⟩, ⟨?_, ?_⟩, fun u hu => ⟨⟨?_, ?_⟩, ?_⟩⟩
      · rw [hqueue]
        exact hw.nodup.sublist (hsub.map _)
      · rw [hqueue, hcalls]
        exact fun q hq => hw.issued q (hsub.subset hq)
      · rw [haccepted]
        exact hw.once
      · rw [haccepted, hcalls]
        exact hw.accepted
      · intro b hb
        rw [hheld] at hb
        obtain rfl := Option.some.inj hb
        rw [hqueue, hcalls]
        exact ⟨hw.issued _ (List.mem_of_getElem? hitem), (List.nodup_cons.mp hperm).1⟩
      · intro b hb
        rw [hheld] at hb
        cases hb
      · intro b hb
        rw [hqueue, hcalls]
        obtain ⟨hlt, hnotMem⟩ := (hothers u hu).1.held b hb
        exact ⟨hlt, fun hmem => hnotMem ((hsub.map _).subset hmem)⟩
      · rw [haccepted]
        exact (hothers u hu).1.new
      · intro a b ha hb
        rw [hheld] at ha
        obtain rfl := Option.some.inj ha
        have hnotMem := ((hothers u hu).1.held b hb).2
        intro heq
        exact hnotMem (heq ▸ List.mem_map_of_mem (List.mem_of_getElem? hitem))
    | @returns item hphase hqueue hcalls haccepted hheld hnew =>
      have hitem := ht.held item hphase
      refine ⟨⟨?_, ?_, ?_, ?_⟩, ⟨?_, ?_⟩, fun u hu => ⟨⟨?_, ?_⟩, ?_⟩⟩
      · rw [hqueue]
        exact nodup_queue_append hw.nodup hitem.2
      · rw [hqueue, hcalls]
        exact List.forall_mem_append.mpr ⟨hw.issued, List.forall_mem_singleton.mpr hitem.1⟩
      · rw [haccepted]
        exact hw.once
      · rw [haccepted, hcalls]
        exact hw.accepted
      · intro b hb
        rw [hheld] at hb
        cases hb
      · intro b hb
        rw [hnew] at hb
        cases hb
      · intro b hb
        have hne := (hothers u hu).2 item b hphase hb
        rw [hqueue, hcalls]
        exact ⟨((hothers u hu).1.held b hb).1,
          notMem_queue_append ((hothers u hu).1.held b hb).2 hne.symm⟩
      · rw [haccepted]
        exact (hothers u hu).1.new
      · intro a b ha hb
        rw [hheld] at ha
        cases ha

omit maxAttempts writer w w' in
theorem ticketed_start (now : Nat) : (Worker.start now).Ticketed where
  nodup := List.nodup_nil
  issued item hitem := by cases hitem
  once := List.nodup_nil
  accepted k hk := by cases hk

/-! ## Counting -/

/-- The accepted items of a ticket less those that are somewhere outside the calls. -/
def Worker.balance (w : Worker) (k : Nat) : Int :=
  w.accepted.count k - w.queue.countP (·.ticket == k) - w.succeeded.count k - w.confirmed.count k -
    w.failedJobs.countP (·.ticket == k) - w.lost.count k

def hit (k a : Nat) : Int := if a == k then 1 else 0

def Phase.weight (k : Nat) : Phase → Int
  | .dequeued (some item) | .executing item | .looking item | .requeueing item => hit k item.ticket
  | _ => 0

theorem weight_eq (k : Nat) (phase : Phase) :
    phase.weight k = if phase.carries k then 1 else 0 := by
  cases phase with
  | dequeued item => cases item <;> rfl
  | _ => rfl

theorem count_snoc (l : List Nat) (k a : Nat) : ((l ++ [a]).count k : Int) = l.count k + hit k a := by
  rw [List.count_append, List.count_singleton, hit]
  split <;> simp

theorem countP_snoc {α : Type} (f : α → Nat) (l : List α) (a : α) (k : Nat) :
    ((l ++ [a]).countP (f · == k) : Int) = l.countP (f · == k) + hit k (f a) := by
  rw [List.countP_append, List.countP_singleton, hit]
  split <;> simp

theorem countP_eraseIdx {α : Type} (f : α → Nat) {l : List α} {n : Nat} {a : α}
    (h : l[n]? = some a) (k : Nat) :
    (l.countP (f · == k) : Int) = (l.eraseIdx n).countP (f · == k) + hit k (f a) := by
  rw [(perm_eraseIdx h).countP_eq, List.countP_cons, hit]
  split <;> simp

theorem Tested.weight {deadline : Option Nat} {phase : Phase} (h : Tested w deadline phase)
    (k : Nat) : phase.weight k = 0 := by
  cases h <;> rfl

theorem weight_of_tests {phase : Phase} (h : phase.tests) (k : Nat) : phase.weight k = 0 := by
  cases phase <;> first | rfl | cases h

/-- No segment loses count of a job. -/
theorem Segment.balance {deadline : Option Nat} {phase phase' : Phase} {i : Input}
    (h : Segment maxAttempts writer w deadline phase i w' phase') (k : Nat) :
    w'.balance k + phase.weight k = w.balance k + phase'.weight k := by
  cases h with
  | tested htests htested => rw [htested.weight, weight_of_tests htests]
  | finished hphase => obtain rfl | ⟨error, rfl⟩ := hphase <;> rfl
  | declined | failed | nothing | idle | began | unsure | again | missing => rfl
  | took hitem =>
    have hcount := countP_eraseIdx QueueItem.ticket hitem k
    simp only [Worker.balance, Phase.weight, hcount]
    omega
  | accepted item =>
    have hcount := countP_snoc QueueItem.ticket w.queue item k
    simp only [Worker.balance, Phase.weight, count_snoc, hcount]
    omega
  | back item =>
    have hcount := countP_snoc QueueItem.ticket w.queue item.retry k
    rw [show item.retry.ticket = item.ticket from rfl] at hcount
    simp only [Worker.balance, Phase.weight, hcount]
    omega
  | @gaveUp item outcome error herror =>
    have hcount := countP_snoc FailedJob.ticket w.failedJobs ⟨item.payload, error, item.ticket⟩ k
    simp only [Worker.balance, Worker.mark, Worker.fail, Phase.weight, hcount]
    omega
  | unavailable item =>
    have hcount := countP_snoc FailedJob.ticket w.failedJobs
      ⟨item.payload, retrySafetyUnavailable, item.ticket⟩ k
    simp only [Worker.balance, Worker.mark, Worker.fail, Phase.weight, hcount]
    omega
  | succeeded | confirmed | unanswered | dropped =>
    simp only [Worker.balance, Worker.mark, Phase.weight, count_snoc]
    omega

omit maxAttempts writer w w' in
theorem sum_weights (tasks : List Task) (k : Nat) :
    (tasks.map fun t => t.phase.weight k).sum = (tasks.countP fun t => t.phase.carries k : Nat) := by
  induction tasks with
  | nil => rfl
  | cons t tasks ih =>
      rw [List.map_cons, List.sum_cons, ih, List.countP_cons, weight_eq]
      split <;> simp [Int.add_comm]

/-- Every accepted job is somewhere, counting the lost ones. -/
theorem run_balance {now : Nat} {es : List (Event Call Input Nat)} {c : Config Worker Task}
    (hrun : (ingestionWorker maxAttempts writer).run ⟨.start now, []⟩ es = some c) (k : Nat) :
    c.shared.accepted.count k = places c k + c.shared.lost.count k := by
  have hsum := Machine.run_sum (fun w : Worker => w.balance k) (fun t : Task => t.phase.weight k)
    ?hcall ?hresume ?henv rfl hrun
  case hcall =>
    intro w call w' t hcall
    cases call <;> obtain ⟨rfl, rfl⟩ := Prod.mk.inj (Option.some.inj hcall) <;>
      exact (Int.add_zero _).symm
  case hresume =>
    intro w t i w' t' hresume
    exact (segment_of_resume maxAttempts writer hresume).2.balance k
  case henv =>
    intro w ms w' henv
    obtain rfl := Option.some.inj henv
    rfl
  rw [sum_weights] at hsum
  simp only [Worker.balance, places] at hsum ⊢
  omega

/-! ## Lost jobs -/

/-- A segment loses a job exactly when its answer is a rejection. -/
theorem Segment.lost {deadline : Option Nat} {phase phase' : Phase} {i : Input}
    (h : Segment maxAttempts writer w deadline phase i w' phase') (others : List Task) :
    w.lost.length ≤ w'.lost.length ∧
      (answered w ⟨deadline, phase⟩ others i ↔ w'.lost.length = w.lost.length) := by
  have hsame : ∀ {p : Phase} {j : Input}, answered w ⟨deadline, p⟩ others j →
      w.lost.length ≤ w.lost.length ∧
        (answered w ⟨deadline, p⟩ others j ↔ w.lost.length = w.lost.length) :=
    fun hanswered => ⟨Nat.le_refl _, fun _ => rfl, fun _ => hanswered⟩
  have hlost : ∀ {p : Phase} {j : Input} (k : Nat), ¬ answered w ⟨deadline, p⟩ others j →
      w.lost.length ≤ (w.lost ++ [k]).length ∧
        (answered w ⟨deadline, p⟩ others j ↔ (w.lost ++ [k]).length = w.lost.length) := by
    intro p j k hanswered
    rw [List.length_append, List.length_singleton]
    exact ⟨Nat.le_succ _, fun h => absurd h hanswered, fun h => absurd h (Nat.succ_ne_self _)⟩
  cases h with
  | unanswered item error => exact hlost _ fun h => h
  | dropped item error => exact hlost _ fun h => h
  | tested htests htested =>
    refine hsame ?_
    cases phase <;> trivial
  | finished hphase => exact hsame trivial
  | accepted | declined | failed | nothing | took | idle | began | succeeded | gaveUp | unsure | again
  | confirmed | unavailable | missing | back => exact hsame trivial

theorem lost_iff {c c' : Config Worker Task} {es : List (Event Call Input Nat)}
    (hrun : (ingestionWorker maxAttempts writer).run c es = some c') :
    c.shared.lost.length ≤ c'.shared.lost.length ∧
      ((ingestionWorker maxAttempts writer).Meets answered c es ↔
        c'.shared.lost.length = c.shared.lost.length) := by
  induction es generalizing c with
  | nil =>
      obtain rfl := Option.some.inj hrun
      exact ⟨Nat.le_refl _, fun _ => rfl, fun _ => trivial⟩
  | cons e es ih =>
      obtain ⟨d, hstep, hrun⟩ := Option.bind_eq_some_iff.mp hrun
      obtain ⟨hle, hrest⟩ := ih hrun
      have hstepLost : c.shared.lost.length ≤ d.shared.lost.length ∧
          (Guard.Allows answered c e ↔ d.shared.lost.length = c.shared.lost.length) := by
        cases e with
        | call k =>
          obtain ⟨w, t, hcall, rfl⟩ := Machine.step_call hstep
          cases k <;> obtain ⟨rfl, rfl⟩ := Prod.mk.inj (Option.some.inj hcall) <;>
            exact ⟨Nat.le_refl _, fun _ => rfl, fun _ => trivial⟩
        | resume n i =>
          obtain ⟨t, w, t', ht, hresume, rfl⟩ := Machine.step_resume hstep
          obtain ⟨hle, hiff⟩ := (segment_of_resume maxAttempts writer hresume).2.lost
            (c.tasks.eraseIdx n)
          refine ⟨hle, fun hallows => hiff.mp (hallows t ht), fun hsame u hu => ?_⟩
          obtain rfl := Option.some.inj (ht.symm.trans hu)
          exact hiff.mpr hsame
        | env ms =>
          obtain ⟨w, henv, rfl⟩ := Machine.step_env hstep
          obtain rfl := Option.some.inj henv
          exact ⟨Nat.le_refl _, fun _ => rfl, fun _ => trivial⟩
      obtain ⟨hle', hallows⟩ := hstepLost
      refine ⟨Nat.le_trans hle' hle, fun hmeets => ?_, fun hsame => ⟨?_, fun d' hd' => ?_⟩⟩
      · have hlast := hrest.mp (hmeets.2 d hstep)
        rw [hlast, hallows.mp hmeets.1]
      · exact hallows.mpr (by omega)
      · obtain rfl := Option.some.inj (hstep.symm.trans hd')
        exact hrest.mpr (by omega)

/-- The jobs are conserved exactly when none is lost. -/
theorem conserved_iff {now : Nat} {es : List (Event Call Input Nat)} {c : Config Worker Task}
    (hrun : (ingestionWorker maxAttempts writer).run ⟨.start now, []⟩ es = some c) :
    Conserved c ↔ c.shared.lost.length = 0 := by
  have htickets := ((ticket_modular maxAttempts writer).run (Holds.init (ticketed_start now))
    (Machine.meets_any _ _ _) hrun).shared
  constructor
  · intro hconserved
    refine Nat.eq_zero_of_not_pos fun hpos => ?_
    obtain ⟨k, hk⟩ := List.exists_mem_of_length_pos hpos
    have hcount := run_balance hrun k
    have hlost := List.count_pos_iff.mpr hk
    have haccepted : k ∈ c.shared.accepted := List.count_pos_iff.mp (by omega)
    have honce := List.count_eq_one_of_mem htickets.once haccepted
    have hplaces := hconserved k haccepted
    omega
  · intro hnone k hk
    have hcount := run_balance hrun k
    rw [List.eq_nil_of_length_eq_zero hnone, List.count_eq_one_of_mem htickets.once hk,
      List.count_nil] at hcount
    omega

/-! ## Attempts -/

/-- An item in the queue has been executed no more often than its job says, and may be executed
once more. -/
structure Worker.Bounded (maxAttempts : ℕ+) (w : Worker) : Prop where
  queue : ∀ item ∈ w.queue, w.executions item.ticket ≤ item.payload.attempts ∧
    w.executions item.ticket < maxAttempts
  all : ∀ k, w.executions k ≤ maxAttempts
  unused : ∀ k, w.calls ≤ k → w.executions k = 0

def Phase.Bounded (maxAttempts : ℕ+) (w : Worker) : Phase → Prop
  | .enqueueing item => w.executions item.ticket = 0
  | .dequeued (some item) => w.executions item.ticket ≤ item.payload.attempts ∧
      w.executions item.ticket < maxAttempts
  | .executing item => w.executions item.ticket ≤ item.payload.attempts + 1
  | .looking item | .requeueing item => w.executions item.ticket ≤ item.payload.attempts + 1 ∧
      item.payload.attempts + 1 < maxAttempts
  | _ => True

theorem Phase.Bounded.of_eq {phase : Phase} (h : phase.Bounded maxAttempts w)
    (heq : ∀ item, phase.held? = some item → w'.executions item.ticket = w.executions item.ticket) :
    phase.Bounded maxAttempts w' := by
  cases phase with
  | dequeued item =>
    cases item with
    | none => trivial
    | some item =>
      simp only [Phase.Bounded, heq item rfl]
      exact h
  | enqueueing item | executing item | looking item | requeueing item =>
    simp only [Phase.Bounded, heq item rfl]
    exact h
  | enqueued | started | dequeuing | finishing | returned | threw | sleeping | drained => trivial

theorem executions_mark (mark : Mark) (k : Nat) :
    (w.mark mark).executions k = w.executions k + if mark.isBegan k then 1 else 0 := by
  unfold Worker.executions Worker.mark
  rw [List.countP_append, List.countP_singleton]

theorem executions_began (item : QueueItem) (k : Nat) :
    (w.mark (.began item)).executions k = w.executions k + if item.ticket = k then 1 else 0 := by
  rw [executions_mark]
  simp only [Mark.isBegan, beq_iff_eq]

/-- A segment that is not the beginning of an execution. -/
theorem Segment.executions {deadline : Option Nat} {phase phase' : Phase} {i : Input}
    (h : Segment maxAttempts writer w deadline phase i w' phase') :
    (∃ item, phase = .dequeued (some item) ∧ phase' = .executing item ∧
      w' = { w.mark (.began item) with processing := true }) ∨
    ∀ k, w'.executions k = w.executions k := by
  cases h with
  | began item => exact .inl ⟨item, rfl, rfl, rfl⟩
  | succeeded | gaveUp | unsure | again | confirmed | unavailable | missing | unanswered =>
    exact .inr fun k => executions_mark _ k
  | accepted | declined | tested | failed | nothing | took | idle | back | dropped | finished =>
    exact .inr fun _ => rfl

/-- What a segment that begins no execution leaves in hand. -/
theorem Segment.bounded {deadline : Option Nat} {phase phase' : Phase} {i : Input}
    (h : Segment maxAttempts writer w deadline phase i w' phase')
    (hbegan : ∀ k, w'.executions k = w.executions k) (hw : w.Bounded maxAttempts)
    (hphase : phase.Bounded maxAttempts w) :
    (∀ item ∈ w'.queue, w'.executions item.ticket ≤ item.payload.attempts ∧
      w'.executions item.ticket < maxAttempts) ∧ phase'.Bounded maxAttempts w' := by
  have hqueue : w'.queue = w.queue → ∀ item ∈ w'.queue,
      w'.executions item.ticket ≤ item.payload.attempts ∧
        w'.executions item.ticket < maxAttempts := by
    intro hsame item hitem
    rw [hbegan]
    exact hw.queue item (hsame ▸ hitem)
  cases h with
  | accepted item =>
    refine ⟨List.forall_mem_append.mpr ⟨hw.queue, List.forall_mem_singleton.mpr ?_⟩, trivial⟩
    have hzero : w.executions item.ticket = 0 := hphase
    rw [hbegan, hzero]
    exact ⟨Nat.zero_le _, maxAttempts.pos⟩
  | took hitem =>
    refine ⟨fun q hq => ?_, hw.queue _ (List.mem_of_getElem? hitem)⟩
    exact hw.queue q ((List.eraseIdx_sublist _ _).subset hq)
  | began item =>
    have hone := hbegan item.ticket
    rw [show ({ w.mark (.began item) with processing := true } : Worker).executions item.ticket =
      (w.mark (.began item)).executions item.ticket from rfl, executions_began, if_pos rfl] at hone
    exact absurd hone (Nat.succ_ne_self _)
  | @unsure item outcome error herror hretryable hmore hunknown =>
    refine ⟨hqueue rfl, ?_, hmore⟩
    rw [hbegan]
    exact hphase
  | @again item outcome error herror hretryable hmore hknown =>
    refine ⟨hqueue rfl, ?_, hmore⟩
    rw [hbegan]
    exact hphase
  | missing item =>
    refine ⟨hqueue rfl, ?_, hphase.2⟩
    rw [hbegan]
    exact hphase.1
  | back item =>
    refine ⟨List.forall_mem_append.mpr ⟨hw.queue, List.forall_mem_singleton.mpr ?_⟩, trivial⟩
    exact ⟨hphase.1, Nat.lt_of_le_of_lt hphase.1 hphase.2⟩
  | tested htests htested =>
    refine ⟨hqueue rfl, ?_⟩
    cases htested <;> trivial
  | finished hphase' =>
    refine ⟨hqueue rfl, ?_⟩
    obtain rfl | ⟨error, rfl⟩ := hphase' <;> trivial
  | declined | failed | nothing | idle | succeeded | gaveUp | confirmed | unavailable | unanswered
  | dropped => exact ⟨hqueue rfl, trivial⟩

variable (maxAttempts writer) in
theorem attempts_extends :
    Extends (ingestionWorker maxAttempts writer) Guard.any Worker.Ticketed
      (fun w t => t.Ticketed w) Task.Apart (Worker.Bounded maxAttempts)
      (fun w t => t.phase.Bounded maxAttempts w) (fun _ _ => True) where
  symm _ := trivial
  call {w k w' t} hticketed hw hcall := by
    cases k with
    | enqueue job =>
      obtain ⟨rfl, rfl⟩ := Prod.mk.inj (Option.some.inj hcall)
      refine ⟨⟨hw.queue, hw.all, fun k hk => hw.unused k (Nat.le_of_succ_le hk)⟩, ?_,
        fun u _ hu => ⟨hu, trivial⟩⟩
      exact hw.unused _ (Nat.le_refl _)
    | processNext =>
      obtain ⟨rfl, rfl⟩ := Prod.mk.inj (Option.some.inj hcall)
      exact ⟨hw, trivial, fun u _ hu => ⟨hu, trivial⟩⟩
    | drain maxWaitMs =>
      obtain ⟨rfl, rfl⟩ := Prod.mk.inj (Option.some.inj hcall)
      exact ⟨hw, trivial, fun u _ hu => ⟨hu, trivial⟩⟩
  env hticketed hw henv := by
    obtain rfl := Option.some.inj henv
    exact ⟨⟨hw.queue, hw.all, hw.unused⟩, fun u _ hu => hu⟩
  resume {w t i w' t' others} hticketed hw ht ht' hothers _ hresume := by
    obtain ⟨hdeadline, hsegment⟩ := segment_of_resume maxAttempts writer hresume
    have hcalls : w'.calls = w.calls := by
      cases hsegment.moves <;> assumption
    rcases hsegment.executions with ⟨item, hphase, hphase', rfl⟩ | hsame
    · -- the execution of the item in hand begins
      have hbegan : ∀ k, ({ w.mark (.began item) with processing := true } : Worker).executions k =
          w.executions k + if item.ticket = k then 1 else 0 := executions_began item
      obtain ⟨hissued, hnotMem⟩ := ht.held item (by rw [hphase]; rfl)
      have hother : ∀ k, k ≠ item.ticket →
          ({ w.mark (.began item) with processing := true } : Worker).executions k =
            w.executions k := by
        intro k hne
        rw [hbegan, if_neg hne.symm, Nat.add_zero]
      rw [hphase] at ht'
      obtain ⟨hattempts, hless⟩ : w.executions item.ticket ≤ item.payload.attempts ∧
        w.executions item.ticket < maxAttempts := ht'
      refine ⟨⟨fun q hq => ?_, fun k => ?_, fun k hk => ?_⟩, ?_, fun u hu => ⟨?_, trivial⟩⟩
      · rw [hother]
        · exact hw.queue q hq
        · rintro heq
          exact hnotMem (heq ▸ List.mem_map_of_mem hq)
      · rw [hbegan]
        split
        case isTrue heq => exact heq ▸ hless
        case isFalse => exact hw.all k
      · rw [hother]
        · exact hw.unused k hk
        · rintro rfl
          exact absurd hissued (Nat.not_lt_of_le hk)
      · rw [hphase']
        show ({ w.mark (.began item) with processing := true } : Worker).executions item.ticket ≤ _
        rw [hbegan, if_pos rfl]
        exact Nat.succ_le_succ hattempts
      · refine (hothers u hu).2.1.of_eq fun b hb => hother _ ?_
        exact ((hothers u hu).1.2 item b (by rw [hphase]; rfl) hb).symm
    · obtain ⟨hqueue, hphase'⟩ := hsegment.bounded hsame hw ht'
      refine ⟨⟨hqueue, fun k => ?_, fun k hk => ?_⟩, hphase', fun u hu => ⟨?_, trivial⟩⟩
      · rw [hsame]
        exact hw.all k
      · rw [hsame]
        exact hw.unused k (hcalls ▸ hk)
      · exact (hothers u hu).2.1.of_eq fun b _ => hsame b.ticket

omit writer w w' in
theorem bounded_start (now : Nat) : (Worker.start now).Bounded maxAttempts where
  queue item hitem := by cases hitem
  all _ := Nat.zero_le _
  unused _ _ := rfl

omit w w' in
/-- The mutation of a job is executed at most as often as the configuration allows. -/
theorem executions_le {now : Nat} {es : List (Event Call Input Nat)} {c : Config Worker Task}
    (hrun : (ingestionWorker maxAttempts writer).run ⟨.start now, []⟩ es = some c) (k : Nat) :
    c.shared.executions k ≤ maxAttempts := by
  have hmodular := (ticket_modular maxAttempts writer).extend (attempts_extends maxAttempts writer)
  have hinit : (Worker.start now).Ticketed ∧ (Worker.start now).Bounded maxAttempts :=
    ⟨ticketed_start now, bounded_start now⟩
  exact (hmodular.run (Holds.init hinit) (Machine.meets_any _ _ _) hrun).shared.2.all k

/-! ## Every run -/

variable (maxAttempts writer) in
/-- **Jobs are conserved** in a run exactly when no lookup and no re-enqueue is rejected in it;
however it goes, no mutation is executed more than `maxAttempts` times. -/
theorem conservation_iff (now : Nat) (es : List (Event Call Input Nat)) (c : Config Worker Task)
    (hrun : (ingestionWorker maxAttempts writer).run ⟨.start now, []⟩ es = some c) :
    (Conserved c ∧ ∀ k, c.shared.executions k ≤ maxAttempts) ↔
      (ingestionWorker maxAttempts writer).Meets answered ⟨.start now, []⟩ es := by
  rw [conserved_iff hrun]
  constructor
  · rintro ⟨hnone, -⟩
    exact (lost_iff hrun).2.mpr hnone
  · intro hmeets
    exact ⟨(lost_iff hrun).2.mp hmeets, executions_le hrun⟩

end

/-- A state to be published. -/
def publication (idempotencyKey : String) : IngestionJob where
  id := "j"
  idempotencyKey
  type := .PUBLISH_STATE
  twinId := "0x1"
  payload := []
  createdAt := 0
  accounting := none

/-- A job that is looked up after a broken connection; what the lookup comes to is given. -/
def lookedUp (answer : Except Raised (Option Bool)) : List (Event Call Input Nat) :=
  [.call (.enqueue (publication "k")), .resume 0 (.enqueued (.ok ())), .call .processNext,
    .resume 1 .go, .resume 1 (.take (.ok (some 0))), .resume 1 .go,
    .resume 1 (.outcome (.lost (.native "Error" "read ECONNRESET") false)),
    .resume 1 (.lookup answer)]

/-- The lookup answers that there is no such mutation. -/
theorem conservation_iff_missing :
    ∃ c, (ingestionWorker 3 .mutate).run ⟨.start 0, []⟩ (lookedUp (.ok (some false))) = some c ∧
      Conserved c ∧ ∀ k, c.shared.executions k ≤ 3 := by
  obtain ⟨c, hc⟩ : ∃ c, (ingestionWorker 3 .mutate).run ⟨.start 0, []⟩
      (lookedUp (.ok (some false))) = some c := ⟨_, rfl⟩
  refine ⟨c, hc, (conservation_iff 3 .mutate 0 _ c hc).mpr ?_⟩
  refine Machine.meets_of_inputs fun n i hi w t others => ?_
  have hinput : (∀ error, i ≠ .lookup (.error error)) ∧ ∀ error, i ≠ .enqueued (.error error) := by
    simp only [lookedUp, List.mem_cons, reduceCtorEq, Event.resume.injEq, List.not_mem_nil, or_false,
      false_or] at hi
    rcases hi with ⟨-, rfl⟩ | ⟨-, rfl⟩ | ⟨-, rfl⟩ | ⟨-, rfl⟩ | ⟨-, rfl⟩ | ⟨-, rfl⟩ <;> simp
  exact answered_of_input hinput.1 hinput.2

/-- The lookup fails: the job is neither in the queue nor in execution, and nothing has become
of it. -/
theorem failed_lookup_loses_job :
    ∃ c, (ingestionWorker 3 .mutate).run ⟨.start 0, []⟩
        (lookedUp (.error (.native "TypeError" "fetch failed"))) = some c ∧
      0 ∈ c.shared.accepted ∧ places c 0 = 0 ∧ ¬ Conserved c := by
  obtain ⟨c, hc⟩ : ∃ c, (ingestionWorker 3 .mutate).run ⟨.start 0, []⟩
      (lookedUp (.error (.native "TypeError" "fetch failed"))) = some c := ⟨_, rfl⟩
  have hplaces : 0 ∈ c.shared.accepted ∧ places c 0 = 0 := by
    obtain rfl := Option.some.inj hc
    exact ⟨List.mem_cons_self, rfl⟩
  refine ⟨c, hc, hplaces.1, hplaces.2, fun hconserved => ?_⟩
  rw [hconserved 0 hplaces.1] at hplaces
  cases hplaces.2

end Ingestion
