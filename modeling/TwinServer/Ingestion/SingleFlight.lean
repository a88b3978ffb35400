-- SUMMARY: One job is executed at a time, in dequeue order, in runs in which no call tests the flag while another call dequeues.
import TwinServer.Ingestion.Conservation

/-!
# Single flight

`processNext` tests the flag `processing` before it awaits `dequeue`, and sets it
afterwards. In between another call that tests the flag finds it free. In runs without
such a test one job at a time is executed, and a drain leaves nothing behind.
-/

open Js Async Ledger

namespace Ingestion

/-! ## The property -/

/-- The next segment of the call reads the flag. -/
def Phase.reads : Phase → Bool
  | .started | .returned true | .sleeping => true
  | _ => false

/-- The call has found the flag free, and has not set it: it may still take an item, or has one. -/
def Phase.claims : Phase → Bool
  | .dequeuing | .dequeued (some _) => true
  | _ => false

/-- The call dequeues or executes a job. -/
def Phase.busy (phase : Phase) : Bool := phase.claims || phase.processes

/-- The item that was taken and whose execution has not begun. -/
def Task.hand? (t : Task) : Option QueueItem :=
  match t.phase with
  | .dequeued item => item
  | _ => none

def Mark.begun? : Mark → Option QueueItem
  | .began item => some item
  | _ => none

/-- The items in the order in which their execution has begun. -/
def Worker.begun (w : Worker) : List QueueItem := w.journal.filterMap Mark.begun?

section
variable {maxAttempts : ℕ+} {writer : Writer} {w w' : Worker}

/-- Two calls are not busy at once. -/
def Task.Excludes (t u : Task) : Prop := ¬ (t.phase.busy = true ∧ u.phase.busy = true)

theorem Task.Excludes.symm {t u : Task} (h : t.Excludes u) : u.Excludes t :=
  fun hbusy => h hbusy.symm

/-- The other calls are not busy. -/
theorem Task.Excludes.idle {t u : Task} (h : t.Excludes u) (ht : t.phase.busy) :
    u.phase.busy = false :=
  Bool.not_eq_true _ ▸ fun hu => h ⟨ht, hu⟩

/-- What was taken has begun, or is in the hands of a call that has not begun it. -/
def InOrder (c : Config Worker Task) : Prop :=
  c.shared.taken = c.shared.begun ++ c.tasks.filterMap Task.hand?

end

end Ingestion
