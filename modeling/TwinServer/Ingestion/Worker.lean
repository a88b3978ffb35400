-- SUMMARY: The ingestion worker over an arbitrary queue provider: jobs, attempts, the failure handler, and calls as tasks.
import Mathlib.Data.PNat.Basic
import TwinServer.Base.Async
import TwinServer.Ledger.Errors
import TwinServer.Security.Tenants

/-!
# The ingestion worker

`src/queue/ingestionWorker.ts`. A job is taken from the queue, its mutation is executed,
and a job that failed is given up, looked up on the ledger, or put back into the queue.

The queue provider is arbitrary: it accepts an item or rejects it, and hands out any of
its items, or none, whatever they say about when they become available. What the
mutation, the lookup and the provider come to is input. Every call of `enqueue` has a
number, its ticket, which the item keeps when it is put back.
-/

open Js Async Ledger Security

namespace Ingestion

/-! ## Jobs -/

inductive IngestionJobType where
  | PUBLISH_STATE | ADD_DATASET | EMIT_EVENT
  deriving DecidableEq

structure IngestionJob where
  id : String
  idempotencyKey : String
  type : IngestionJobType
  twinId : String
  payload : Record Json
  attempts : Nat := 0
  createdAt : Nat
  accounting : Option AccountingContext

structure QueueItem where
  id : String
  payload : IngestionJob
  attempts : Nat
  createdAt : Nat
  ticket : Nat

/-- The item that `enqueue` hands to the provider. -/
def itemOf (job : IngestionJob) (ticket : Nat) : QueueItem where
  id := job.id
  payload := job
  attempts := job.attempts
  createdAt := job.createdAt
  ticket

/-- The item of the next attempt. -/
def QueueItem.retry (item : QueueItem) : QueueItem :=
  { item with
    attempts := item.payload.attempts + 1
    payload := { item.payload with attempts := item.payload.attempts + 1 } }

/-- What a job asks of the ledger. -/
structure Mutation where
  type : IngestionJobType
  twinId : String
  payload : Record Json
  accounting : Option AccountingContext

def mutationOf (job : IngestionJob) : Mutation where
  type := job.type
  twinId := job.twinId
  payload := job.payload.set "externalReference" (.string job.idempotencyKey)
  accounting := job.accounting

/-! ## Attempts and what they come to -/

/-- How the ledger is written: through a method of the SDK, or by the publisher of the
server. -/
inductive Writer where
  | mutate | publisher
  deriving DecidableEq

/-- The error of a submission as the worker sees it. -/
def Writer.surface : Writer → Raised → Raised
  | .publisher, .app error =>
    if error.code ≠ "OBJECTID_SPONSORED_TRANSACTION_FAILED" then .app error
    else .app (mapObjectIdError (.app error))
  | .mutate, error | .publisher, error => .app (mapObjectIdError error)

inductive Outcome where
  | success
  /-- The mutation was not submitted, or definitely refused. -/
  | rejected (error : Raised)
  /-- The submission has raised an error, after which the ledger has committed the mutation or
  has not. -/
  | lost (error : Raised) (committed : Bool)

def Outcome.mayHaveCommitted : Outcome → Bool
  | .success | .lost _ _ => true
  | .rejected _ => false

@[local grind] def Outcome.committed : Outcome → Bool
  | .success => true
  | .rejected _ => false
  | .lost _ committed => committed

def normalizeError : Raised → AppError
  | .app error => error
  | error => { code := "INGESTION_FAILED", message := error.message }

def retryable (error : AppError) : Bool :=
  match error.details.get? "retryable" with
  | some (.bool true) => true
  | _ => false

def submissionUnknown (error : AppError) : Bool :=
  match error.details.get? "submissionUnknown" with
  | some (.bool true) => true
  | _ => false

/-- What has happened on the ledger, in order. -/
inductive Mark where
  | began (item : QueueItem)
  | ended (item : QueueItem) (outcome : Outcome)
  /-- `findMutationByIdempotencyKey`; `none` stands for an answer that says nothing. -/
  | looked (item : QueueItem) (answer : Except Raised (Option Bool))

/-! ## The worker -/

structure FailedJob where
  job : IngestionJob
  error : AppError
  ticket : Nat

/-- The worker, its queue and the clock; the number of calls of `enqueue`, the tickets whose item
the provider has accepted, the items in the order in which they were taken, and the tickets of
the jobs that have left. -/
structure Worker where
  now : Nat
  queue : List QueueItem := []
  processing : Bool := false
  failedJobs : List FailedJob := []
  journal : List Mark := []
  calls : Nat := 0
  accepted : List Nat := []
  taken : List QueueItem := []
  succeeded : List Nat := []
  confirmed : List Nat := []
  lost : List Nat := []

def Worker.fail (w : Worker) (item : QueueItem) (error : AppError) : Worker :=
  { w with failedJobs := w.failedJobs ++ [⟨item.payload, error, item.ticket⟩] }

/-- The error of a job whose mutation cannot be looked up. -/
def retrySafetyUnavailable : AppError where
  code := "OBJECTID_RETRY_SAFETY_UNAVAILABLE"
  message := "Mutation outcome is unknown and the configured ObjectID provider cannot verify its " ++
    "idempotency reference"
  status := 503
  category := .OBJECTID

inductive Phase where
  /-- `queue.enqueue` of a new job. -/
  | enqueueing (item : QueueItem)
  | enqueued
  /-- Before the first segment. -/
  | started
  | dequeuing
  | dequeued (item : Option QueueItem)
  | executing (item : QueueItem)
  | looking (item : QueueItem)
  /-- `queue.enqueue` of the next attempt. -/
  | requeueing (item : QueueItem)
  /-- Before `finally`. -/
  | finishing (result : Except Raised Unit)
  | returned (processed : Bool)
  | threw (error : Raised)
  | sleeping
  | drained

/-- A call; `drain` has a deadline. -/
structure Task where
  deadline : Option Nat
  phase : Phase

inductive Call where
  | enqueue (job : IngestionJob)
  | processNext
  | drain (maxWaitMs : Nat)

inductive Input where
  | go
  /-- The provider hands out the item at a place, or none, or fails. -/
  | take (choice : Except Raised (Option Nat))
  | outcome (outcome : Outcome)
  | lookup (answer : Except Raised (Option Bool))
  /-- The provider has accepted an item, or has not. -/
  | enqueued (result : Except Raised Unit)

/-- The condition of the loop in `drain`, and the call of `processNext` in it. -/
def loopPhase (w : Worker) (deadline : Nat) : Phase :=
  if (!w.queue.isEmpty || w.processing) && w.now < deadline then
    if w.processing then .sleeping else .dequeuing
  else .drained

@[local grind] def call (w : Worker) : Call → Option (Worker × Task)
  | .enqueue job =>
    some ({ w with calls := w.calls + 1 }, ⟨none, .enqueueing (itemOf job w.calls)⟩)
  | .processNext => some (w, ⟨none, .started⟩)
  | .drain maxWaitMs => some (w, ⟨some (w.now + maxWaitMs), .started⟩)

section
variable (maxAttempts : ℕ+) (writer : Writer)

def handleFailure (w : Worker) (item : QueueItem) (error : AppError) : Worker × Phase :=
  if !retryable error || item.payload.attempts + 1 ≥ maxAttempts then
    (w.fail item error, .finishing (.ok ()))
  else if submissionUnknown error then (w, .looking item)
  else (w, .requeueing item)

/-- The mutation has come to an end. -/
@[local grind] def ended (w : Worker) (item : QueueItem) (outcome : Outcome) : Worker × Phase :=
  let w := { w with journal := w.journal ++ [.ended item outcome] }
  match outcome with
  | .success => ({ w with succeeded := w.succeeded ++ [item.ticket] }, .finishing (.ok ()))
  | .rejected error => handleFailure maxAttempts w item (normalizeError error)
  | .lost error _ => handleFailure maxAttempts w item (normalizeError (writer.surface error))

/-- The lookup has come to an end. -/
@[local grind] def looked (w : Worker) (item : QueueItem) (answer : Except Raised (Option Bool)) :
    Worker × Phase :=
  let w := { w with journal := w.journal ++ [.looked item answer] }
  match answer with
  | .ok (some true) => ({ w with confirmed := w.confirmed ++ [item.ticket] }, .finishing (.ok ()))
  | .ok none => (w.fail item retrySafetyUnavailable, .finishing (.ok ()))
  | .ok (some false) => (w, .requeueing item)
  | .error error => ({ w with lost := w.lost ++ [item.ticket] }, .finishing (.error error))

/-- The provider has answered `enqueue`. -/
def requeued (w : Worker) (item : QueueItem) (result : Except Raised Unit) : Worker × Phase :=
  match result with
  | .ok () => ({ w with queue := w.queue ++ [item.retry] }, .finishing (.ok ()))
  | .error error => ({ w with lost := w.lost ++ [item.ticket] }, .finishing (.error error))

def resume (w : Worker) (t : Task) (i : Input) : Option (Worker × Task) :=
  let next (r : Worker × Phase) : Worker × Task := (r.1, { t with phase := r.2 })
  match t.phase, i with
  | .enqueueing item, .enqueued (.ok ()) =>
    some (next ({ w with queue := w.queue ++ [item], accepted := w.accepted ++ [item.ticket] },
      .enqueued))
  | .enqueueing _, .enqueued (.error error) => some (next (w, .threw error))
  | .started, .go =>
    match t.deadline with
    | none => some (next (w, if w.processing then .returned false else .dequeuing))
    | some deadline => some (next (w, loopPhase w deadline))
  | .dequeuing, .take (.error error) => some (next (w, .threw error))
  | .dequeuing, .take (.ok none) => some (next (w, .dequeued none))
  | .dequeuing, .take (.ok (some k)) => w.queue[k]?.map fun item =>
      next ({ w with queue := w.queue.eraseIdx k, taken := w.taken ++ [item] }, .dequeued (some item))
  | .dequeued none, .go => some (next (w, .returned false))
  | .dequeued (some item), .go =>
    some (next ({ w with processing := true, journal := w.journal ++ [.began item] }, .executing item))
  | .executing item, .outcome outcome => some (next (ended maxAttempts writer w item outcome))
  | .looking item, .lookup answer => some (next (looked w item answer))
  | .requeueing item, .enqueued result => some (next (requeued w item result))
  | .finishing result, .go =>
    some (next ({ w with processing := false },
      match result with
      | .ok () => .returned true
      | .error error => .threw error))
  | .returned processed, .go => t.deadline.map fun deadline =>
      next (w, if processed then loopPhase w deadline else .sleeping)
  | .sleeping, .go => t.deadline.map fun deadline => next (w, loopPhase w deadline)
  | _, _ => none

/-- The worker of a server. -/
def ingestionWorker : Machine Worker Task Call Input Nat where
  call := call
  resume := resume maxAttempts writer
  env w ms := some { w with now := w.now + ms }

end

/-- A worker before its first call. -/
def Worker.start (now : Nat) : Worker := { now }

/-! ## What a segment can do -/

/-- The item a call has in hand: taken from the queue, or not in it yet. -/
def Phase.held? : Phase → Option QueueItem
  | .enqueueing item | .dequeued (some item) | .executing item | .looking item
  | .requeueing item => some item
  | _ => none

/-- The call has set the flag. -/
def Phase.processes : Phase → Bool
  | .executing _ | .looking _ | .requeueing _ | .finishing _ => true
  | _ => false

/-- The call reads the flag in its next segment. -/
def Phase.tests : Phase → Bool
  | .started | .returned _ | .sleeping => true
  | _ => false

/-- What a call does after a test of the flag. -/
inductive Tested (w : Worker) (deadline : Option Nat) : Phase → Prop
  | busy : Tested w deadline (.returned false)
  | free (hfree : w.processing = false) : Tested w deadline .dequeuing
  | waits : Tested w deadline .sleeping
  | empty (hqueue : w.queue = []) (hfree : w.processing = false) : Tested w deadline .drained
  | late {d : Nat} (hdeadline : deadline = some d) (hlate : d ≤ w.now) : Tested w deadline .drained

/-- The error an attempt has failed with. -/
def Outcome.error? (writer : Writer) : Outcome → Option AppError
  | .success => none
  | .rejected error => some (normalizeError error)
  | .lost error _ => some (normalizeError (writer.surface error))

def Worker.mark (w : Worker) (mark : Mark) : Worker := { w with journal := w.journal ++ [mark] }

section
variable (maxAttempts : ℕ+) (writer : Writer)

/-- A segment of a call, with its input. -/
inductive Segment (w : Worker) (deadline : Option Nat) : Phase → Input → Worker → Phase → Prop
  | accepted (item : QueueItem) :
    Segment w deadline (.enqueueing item) (.enqueued (.ok ()))
      { w with queue := w.queue ++ [item], accepted := w.accepted ++ [item.ticket] } .enqueued
  | declined (item : QueueItem) (error : Raised) :
    Segment w deadline (.enqueueing item) (.enqueued (.error error)) w (.threw error)
  | tested {phase phase' : Phase} (htests : phase.tests) (htested : Tested w deadline phase') :
    Segment w deadline phase .go w phase'
  | failed (error : Raised) : Segment w deadline .dequeuing (.take (.error error)) w (.threw error)
  | nothing : Segment w deadline .dequeuing (.take (.ok none)) w (.dequeued none)
  | took {k : Nat} {item : QueueItem} (hitem : w.queue[k]? = some item) :
    Segment w deadline .dequeuing (.take (.ok (some k)))
      { w with queue := w.queue.eraseIdx k, taken := w.taken ++ [item] } (.dequeued (some item))
  | idle : Segment w deadline (.dequeued none) .go w (.returned false)
  | began (item : QueueItem) :
    Segment w deadline (.dequeued (some item)) .go
      { w.mark (.began item) with processing := true } (.executing item)
  | succeeded (item : QueueItem) :
    Segment w deadline (.executing item) (.outcome .success)
      { w.mark (.ended item .success) with succeeded := w.succeeded ++ [item.ticket] }
      (.finishing (.ok ()))
  | gaveUp {item : QueueItem} {outcome : Outcome} {error : AppError}
    (herror : outcome.error? writer = some error) :
    Segment w deadline (.executing item) (.outcome outcome)
      ((w.mark (.ended item outcome)).fail item error) (.finishing (.ok ()))
  | unsure {item : QueueItem} {outcome : Outcome} {error : AppError}
    (herror : outcome.error? writer = some error) (hretryable : retryable error)
    (hmore : item.payload.attempts + 1 < maxAttempts) (hunknown : submissionUnknown error) :
    Segment w deadline (.executing item) (.outcome outcome) (w.mark (.ended item outcome))
      (.looking item)
  | again {item : QueueItem} {outcome : Outcome} {error : AppError}
    (herror : outcome.error? writer = some error) (hretryable : retryable error)
    (hmore : item.payload.attempts + 1 < maxAttempts) (hknown : submissionUnknown error = false) :
    Segment w deadline (.executing item) (.outcome outcome) (w.mark (.ended item outcome))
      (.requeueing item)
  | confirmed (item : QueueItem) :
    Segment w deadline (.looking item) (.lookup (.ok (some true)))
      { w.mark (.looked item (.ok (some true))) with confirmed := w.confirmed ++ [item.ticket] }
      (.finishing (.ok ()))
  | unavailable (item : QueueItem) :
    Segment w deadline (.looking item) (.lookup (.ok none))
      ((w.mark (.looked item (.ok none))).fail item retrySafetyUnavailable) (.finishing (.ok ()))
  | missing (item : QueueItem) :
    Segment w deadline (.looking item) (.lookup (.ok (some false)))
      (w.mark (.looked item (.ok (some false)))) (.requeueing item)
  | unanswered (item : QueueItem) (error : Raised) :
    Segment w deadline (.looking item) (.lookup (.error error))
      { w.mark (.looked item (.error error)) with lost := w.lost ++ [item.ticket] }
      (.finishing (.error error))
  | back (item : QueueItem) :
    Segment w deadline (.requeueing item) (.enqueued (.ok ()))
      { w with queue := w.queue ++ [item.retry] } (.finishing (.ok ()))
  | dropped (item : QueueItem) (error : Raised) :
    Segment w deadline (.requeueing item) (.enqueued (.error error))
      { w with lost := w.lost ++ [item.ticket] } (.finishing (.error error))
  | finished {result : Except Raised Unit} {phase' : Phase}
    (hphase : phase' = .returned true ∨ ∃ error, phase' = .threw error) :
    Segment w deadline (.finishing result) .go { w with processing := false } phase'

theorem tested_loopPhase {w : Worker} {deadline : Option Nat} {d : Nat} (h : deadline = some d) :
    Tested w deadline (loopPhase w d) := by
  unfold loopPhase
  split
  · cases hprocessing : w.processing with
    | true => exact .waits
    | false => exact .free hprocessing
  · rename_i hexit
    simp only [Bool.and_eq_true, Bool.or_eq_true, Bool.not_eq_true', decide_eq_true_eq, not_and,
      Nat.not_lt] at hexit
    cases hempty : w.queue.isEmpty with
    | false => exact .late h (hexit (.inl hempty))
    | true =>
      cases hprocessing : w.processing with
      | true => exact .late h (hexit (.inr hprocessing))
      | false => exact .empty (List.isEmpty_iff.mp hempty) hprocessing

theorem segment_of_ended {w : Worker} {deadline : Option Nat} (item : QueueItem)
    (outcome : Outcome) :
    Segment maxAttempts writer w deadline (.executing item) (.outcome outcome)
      (ended maxAttempts writer w item outcome).1 (ended maxAttempts writer w item outcome).2 := by
  have hfailure : ∀ error, outcome.error? writer = some error →
      Segment maxAttempts writer w deadline (.executing item) (.outcome outcome)
        (handleFailure maxAttempts (w.mark (.ended item outcome)) item error).1
        (handleFailure maxAttempts (w.mark (.ended item outcome)) item error).2 := by
    intro error herror
    unfold handleFailure
    split
    · exact .gaveUp herror
    · rename_i hretry
      simp only [Bool.or_eq_true, Bool.not_eq_true', decide_eq_true_eq, not_or, Nat.not_le,
        Bool.not_eq_false] at hretry
      split
      · rename_i hunknown
        exact .unsure herror hretry.1 hretry.2 hunknown
      · rename_i hknown
        exact .again herror hretry.1 hretry.2 (Bool.not_eq_true _ ▸ hknown)
  cases outcome with
  | success => exact .succeeded item
  | rejected error => exact hfailure _ rfl
  | lost error committed => exact hfailure _ rfl

theorem segment_of_resume {w w' : Worker} {t t' : Task} {i : Input}
    (h : resume maxAttempts writer w t i = some (w', t')) :
    t'.deadline = t.deadline ∧ Segment maxAttempts writer w t.deadline t.phase i w' t'.phase := by
  obtain ⟨deadline, phase⟩ := t
  cases phase with
  | enqueueing item =>
    cases i with
    | enqueued result =>
      cases result with
      | ok u =>
        obtain ⟨rfl, rfl⟩ := Prod.mk.inj (Option.some.inj h)
        exact ⟨rfl, .accepted item⟩
      | error error =>
        obtain ⟨rfl, rfl⟩ := Prod.mk.inj (Option.some.inj h)
        exact ⟨rfl, .declined item error⟩
    | _ => cases h
  | started =>
    cases i with
    | go =>
      cases hdeadline : deadline with
      | none =>
        subst hdeadline
        obtain ⟨rfl, rfl⟩ := Prod.mk.inj (Option.some.inj h)
        refine ⟨rfl, .tested rfl ?_⟩
        show Tested _ _ (if _ then _ else _)
        split
        · exact .busy
        · rename_i hfree
          exact .free (Bool.not_eq_true _ ▸ hfree)
      | some d =>
        subst hdeadline
        obtain ⟨rfl, rfl⟩ := Prod.mk.inj (Option.some.inj h)
        exact ⟨rfl, .tested rfl (tested_loopPhase rfl)⟩
    | _ => cases h
  | dequeuing =>
    cases i with
    | take choice =>
      cases choice with
      | error error =>
        obtain ⟨rfl, rfl⟩ := Prod.mk.inj (Option.some.inj h)
        exact ⟨rfl, .failed error⟩
      | ok choice =>
        cases choice with
        | none =>
          obtain ⟨rfl, rfl⟩ := Prod.mk.inj (Option.some.inj h)
          exact ⟨rfl, .nothing⟩
        | some k =>
          simp only [resume, Option.map_eq_some_iff] at h
          obtain ⟨item, hitem, heq⟩ := h
          obtain ⟨rfl, rfl⟩ := Prod.mk.inj heq
          exact ⟨rfl, .took hitem⟩
    | _ => cases h
  | dequeued item =>
    cases item with
    | none =>
      cases i with
      | go =>
        obtain ⟨rfl, rfl⟩ := Prod.mk.inj (Option.some.inj h)
        exact ⟨rfl, .idle⟩
      | _ => cases h
    | some item =>
      cases i with
      | go =>
        obtain ⟨rfl, rfl⟩ := Prod.mk.inj (Option.some.inj h)
        exact ⟨rfl, .began item⟩
      | _ => cases h
  | executing item =>
    cases i with
    | outcome outcome =>
      obtain ⟨rfl, rfl⟩ := Prod.mk.inj (Option.some.inj h)
      exact ⟨rfl, segment_of_ended maxAttempts writer item outcome⟩
    | _ => cases h
  | looking item =>
    cases i with
    | lookup answer =>
      obtain ⟨rfl, rfl⟩ := Prod.mk.inj (Option.some.inj h)
      refine ⟨rfl, ?_⟩
      match answer with
      | .ok (some true) => exact .confirmed item
      | .ok none => exact .unavailable item
      | .ok (some false) => exact .missing item
      | .error error => exact .unanswered item error
    | _ => cases h
  | requeueing item =>
    cases i with
    | enqueued result =>
      obtain ⟨rfl, rfl⟩ := Prod.mk.inj (Option.some.inj h)
      cases result with
      | ok u => exact ⟨rfl, .back item⟩
      | error error => exact ⟨rfl, .dropped item error⟩
    | _ => cases h
  | finishing result =>
    cases i with
    | go =>
      obtain ⟨rfl, rfl⟩ := Prod.mk.inj (Option.some.inj h)
      refine ⟨rfl, .finished ?_⟩
      cases result with
      | ok u => exact .inl rfl
      | error error => exact .inr ⟨error, rfl⟩
    | _ => cases h
  | returned processed =>
    cases i with
    | go =>
      simp only [resume, Option.map_eq_some_iff] at h
      obtain ⟨d, hdeadline, heq⟩ := h
      obtain ⟨rfl, rfl⟩ := Prod.mk.inj heq
      refine ⟨rfl, .tested rfl ?_⟩
      cases processed with
      | true => exact tested_loopPhase hdeadline
      | false => exact .waits
    | _ => cases h
  | sleeping =>
    cases i with
    | go =>
      simp only [resume, Option.map_eq_some_iff] at h
      obtain ⟨d, hdeadline, heq⟩ := h
      obtain ⟨rfl, rfl⟩ := Prod.mk.inj heq
      exact ⟨rfl, .tested rfl (tested_loopPhase hdeadline)⟩
    | _ => cases h
  | enqueued => cases h
  | threw error => cases h
  | drained => cases h

end

end Ingestion
