-- SUMMARY: A retention pass over stored objects beside store calls on the same files, segment by segment.
import TwinServer.Retention.States
import TwinServer.Storage.Files

/-!
# Retention of stored objects

`execute` of `src/storage/retention.ts` and `listManagedObjects` of `src/storage/filesystem.ts`,
over one filesystem provider. A pass lists the files one by one, asks for the owner of each Twin
and for the policy of each owner, and deletes by the modification times that it listed.
-/

open Js Storage Async

namespace Retention

structure ManagedStoredObject where
  uri : String
  twinId : String
  category : String
  createdAt : Int

structure RetentionRunResult where
  startedAt : Int
  completedAt : Int
  scanned : Nat
  eligible : Nat
  deleted : Nat
  skippedUnresolved : Nat
  failed : Nat
  capped : Bool
  onChainStates : OnChainStateRetentionResult

/-- A file that was deleted, when, and by which policy. -/
structure Deletion where
  file : Inode
  days : Dyadic
  clock : Int

/-- What is awaited. -/
inductive PassPhase where
  | listing (objects : List ManagedStoredObject)
  | owner (object : ManagedStoredObject) (rest : List ManagedStoredObject)
  | policy (ownerDid : String) (object : ManagedStoredObject) (rest : List ManagedStoredObject)
  | deleting (object : ManagedStoredObject) (days : Dyadic) (path : Path)
    (rest : List ManagedStoredObject)
  | pruning
  | completed (result : RetentionRunResult)
  | failed

def PassPhase.Over : PassPhase → Prop
  | .completed _ | .failed => True
  | _ => False

structure Pass where
  startedAt : Int
  phase : PassPhase := .listing []
  scanned : Nat := 0
  owners : Record (Option String) := []
  eligible : Nat := 0
  deleted : Nat := 0
  skippedUnresolved : Nat := 0
  failed : Nat := 0
  deletions : List Deletion := []

inductive PassAnswer where
  /-- A file is found by `readdir` and `stat`. -/
  | found (path : Path)
  | listed
  | owned (ownerDid : Option String)
  | days (days : Option Dyadic)
  | unlinked
  | pruned (onChainStates : OnChainStateRetentionResult)
  /-- What is awaited rejects. -/
  | failed

/-- The modification time is no later than the retention period ago. -/
def Expired (clock : Int) (days : Dyadic) (time : Int) : Prop :=
  ¬ (time : Dyadic) > (clock : Dyadic) - days * DAY_MS

instance (clock : Int) (days : Dyadic) (time : Int) : Decidable (Expired clock days time) :=
  inferInstanceAs (Decidable (¬ _))

theorem Expired.mono {clock clock' time time' : Int} {days : Dyadic} (h : Expired clock days time)
    (hclock : clock ≤ clock') (htime : time' ≤ time) : Expired clock' days time' := by
  have hclock' := Js.Number.intCast_le_intCast.mpr hclock
  have htime' := Js.Number.intCast_le_intCast.mpr htime
  unfold Expired at h ⊢
  grind

/-! ## A pass -/

section
variable [Platform] (config : FilesystemStorageConfig) (maxDeletesPerRun : Nat)

/-- A file in a directory of a category of a Twin. -/
def managedObject (disk : Disk) (path : Path) : Option ManagedStoredObject :=
  if config.root.isPrefixOf path then
    match path.drop config.root.length with
    | ["twins", twinId, category, _] =>
      if twinId = "unscoped" then none
      else (disk.file path).map fun f =>
        { uri := config.uriFor path, twinId, category, createdAt := f.modified }
    | _ => none
  else none

namespace Pass

omit [Platform] in
/-- The loop of `execute` up to where it waits. -/
@[local grind] def next (pass : Pass) : List ManagedStoredObject → Pass
  | [] => { pass with phase := .pruning }
  | object :: rest =>
    if object.category = "plants" ∨ object.twinId = "unscoped" then pass.next rest
    else
      match pass.owners.get? object.twinId with
      | none => { pass with phase := .owner object rest }
      | some none => next { pass with skippedUnresolved := pass.skippedUnresolved + 1 } rest
      | some (some ownerDid) => { pass with phase := .policy ownerDid object rest }

/-- What follows the policy of the owner of an object. -/
@[local grind] def decide (clock : Int) (object : ManagedStoredObject) (rest : List ManagedStoredObject)
    (days : Option Dyadic) (pass : Pass) : Pass :=
  match days with
  | none => pass.next rest
  | some days =>
    if ¬ Expired clock days object.createdAt then pass.next rest
    else
      let pass := { pass with eligible := pass.eligible + 1 }
      if pass.deleted ≥ maxDeletesPerRun then pass.next rest
      else
        match config.pathFor object.uri with
        | .ok path => { pass with phase := .deleting object days path rest }
        | .error _ => next { pass with failed := pass.failed + 1 } rest

omit [Platform] in
/-- A file that is not there counts as deleted. -/
def recordDeletion (disk : Disk) (path : Path) (days : Dyadic) (pass : Pass) : Pass :=
  { pass with
    deleted := pass.deleted + 1
    deletions := match disk.file path with
      | some file => pass.deletions ++ [⟨file, days, disk.clock⟩]
      | none => pass.deletions }

omit [Platform] in
def result (clock : Int) (onChainStates : OnChainStateRetentionResult) (pass : Pass) :
    RetentionRunResult where
  startedAt := pass.startedAt
  completedAt := clock
  scanned := pass.scanned
  eligible := pass.eligible
  deleted := pass.deleted
  skippedUnresolved := pass.skippedUnresolved
  failed := pass.failed
  capped := pass.eligible > pass.deleted + pass.failed
  onChainStates := onChainStates

end Pass

/-! ## The server -/

structure Server where
  disk : Disk
  /-- When the pass began that `this.running` stands for. -/
  running : Option Int := none
  lastRun : Option RetentionRunResult := none

inductive Request where
  | store (input : StoreInput)
  | run

inductive Task where
  | store (t : StoreTask)
  | pass (p : Pass)
  /-- A call of `run` while a pass is running, which returns the promise of that pass. -/
  | joined

inductive Answer where
  | store (answer : StoreAnswer)
  | pass (answer : PassAnswer)

@[local grind] def Pass.resume (s : Server) (pass : Pass) : PassAnswer → Option (Server × Pass)
  | .found path =>
    match pass.phase with
    | .listing objects => (managedObject config s.disk path).map fun object =>
        (s, { pass with phase := .listing (objects ++ [object]) })
    | _ => none
  | .listed =>
    match pass.phase with
    | .listing objects => some (s, next { pass with scanned := objects.length }
        (objects.insertionSort fun a b => a.createdAt ≤ b.createdAt))
    | _ => none
  | .owned ownerDid =>
    match pass.phase with
    | .owner object rest =>
      some (s, next { pass with owners := pass.owners.set object.twinId ownerDid } (object :: rest))
    | _ => none
  | .days days =>
    match pass.phase with
    | .policy _ object rest =>
      some (s, pass.decide config maxDeletesPerRun s.disk.clock object rest days)
    | _ => none
  | .unlinked =>
    match pass.phase with
    | .deleting _ days path rest =>
      some ({ s with disk := s.disk.unlink path }, (pass.recordDeletion s.disk path days).next rest)
    | _ => none
  | .pruned onChainStates =>
    match pass.phase with
    | .pruning =>
      let result := pass.result s.disk.clock onChainStates
      some ({ s with running := none, lastRun := some result },
        { pass with phase := .completed result })
    | _ => none
  | .failed =>
    match pass.phase with
    | .deleting _ _ _ rest => some (s, next { pass with failed := pass.failed + 1 } rest)
    | .listing _ | .policy .. | .pruning =>
      some ({ s with running := none }, { pass with phase := .failed })
    | _ => none

/-! ## What a segment of a pass can do -/

/-- The pass waits in its loop, and is not about to delete. -/
def PassPhase.Waits : PassPhase → Prop
  | .owner .. | .policy .. | .pruning | .listing _ => True
  | _ => False

namespace Pass

/-- The pass goes on: its beginning and what it deleted stay. -/
def Follows (pass pass' : Pass) : Prop :=
  pass'.startedAt = pass.startedAt ∧ pass'.deletions = pass.deletions

omit [Platform] in
theorem next_spec (objects : List ManagedStoredObject) (pass : Pass) :
    Follows pass (pass.next objects) ∧ (pass.next objects).phase.Waits := by
  induction objects generalizing pass with
  | nil => exact ⟨⟨rfl, rfl⟩, trivial⟩
  | cons object rest ih =>
      unfold next
      split
      · exact ih pass
      · split
        · exact ⟨⟨rfl, rfl⟩, trivial⟩
        · exact ih { pass with skippedUnresolved := pass.skippedUnresolved + 1 }
        · exact ⟨⟨rfl, rfl⟩, trivial⟩

inductive Step (s : Server) (pass : Pass) : PassAnswer → Server → Pass → Prop where
  | wait {answer pass'} (hphase : ¬ pass.phase.Over) (hfollows : Follows pass pass')
      (hwaits : pass'.phase.Waits) : Step s pass answer s pass'
  | choose {answer pass' object days path rest} (hphase : ¬ pass.phase.Over)
      (hfollows : Follows pass pass') (hphase' : pass'.phase = .deleting object days path rest)
      (hexpired : Expired s.disk.clock days object.createdAt) : Step s pass answer s pass'
  | unlink {object days path rest pass'} (hphase : pass.phase = .deleting object days path rest)
      (hfollows : Follows (pass.recordDeletion s.disk path days) pass') (hwaits : pass'.phase.Waits) :
      Step s pass .unlinked { s with disk := s.disk.unlink path } pass'
  | finish {answer pass' lastRun} (hphase : ¬ pass.phase.Over) (hfollows : Follows pass pass')
      (hover : pass'.phase.Over) : Step s pass answer { s with running := none, lastRun } pass'

variable {config maxDeletesPerRun} {s s' : Server} {pass pass' : Pass}

theorem step_decide {answer : PassAnswer} (hphase : ¬ pass.phase.Over)
    (object : ManagedStoredObject) (rest : List ManagedStoredObject) (days : Option Dyadic) :
    Step s pass answer s (pass.decide config maxDeletesPerRun s.disk.clock object rest days) := by
  have hnext (q : Pass) (hq : Follows pass q) : Step s pass answer s (q.next rest) := by
    obtain ⟨hfollows, hwaits⟩ := next_spec rest q
    exact .wait hphase ⟨hfollows.1.trans hq.1, hfollows.2.trans hq.2⟩ hwaits
  unfold decide
  cases days with
  | none => exact hnext pass ⟨rfl, rfl⟩
  | some days =>
    dsimp only
    split
    · exact hnext pass ⟨rfl, rfl⟩
    · next hexpired =>
      split
      · exact hnext _ ⟨rfl, rfl⟩
      · split
        · exact .choose hphase ⟨rfl, rfl⟩ rfl (not_not.mp hexpired)
        · exact hnext _ ⟨rfl, rfl⟩

theorem step_of_resume {answer : PassAnswer}
    (h : pass.resume config maxDeletesPerRun s answer = some (s', pass')) :
    Step s pass answer s' pass' := by
  have hover {phase : PassPhase} (hphase : pass.phase = phase) (hnot : ¬ phase.Over) :
      ¬ pass.phase.Over := hphase ▸ hnot
  unfold resume at h
  cases answer with
  | found path =>
    dsimp only at h
    split at h
    · next objects hphase =>
      obtain ⟨object, -, h⟩ := Option.map_eq_some_iff.mp h
      obtain ⟨rfl, rfl⟩ := Prod.mk.inj h
      exact .wait (hover hphase id) ⟨rfl, rfl⟩ trivial
    · cases h
  | listed =>
    dsimp only at h
    split at h
    · next objects hphase =>
      obtain ⟨rfl, rfl⟩ := Prod.mk.inj (Option.some.inj h)
      obtain ⟨hfollows, hwaits⟩ := next_spec
        (objects.insertionSort fun a b => a.createdAt ≤ b.createdAt)
        { pass with scanned := objects.length }
      exact .wait (hover hphase id) hfollows hwaits
    · cases h
  | owned ownerDid =>
    dsimp only at h
    split at h
    · next object rest hphase =>
      obtain ⟨rfl, rfl⟩ := Prod.mk.inj (Option.some.inj h)
      obtain ⟨hfollows, hwaits⟩ := next_spec (object :: rest)
        { pass with owners := pass.owners.set object.twinId ownerDid }
      exact .wait (hover hphase id) hfollows hwaits
    · cases h
  | days days =>
    dsimp only at h
    split at h
    · next ownerDid object rest hphase =>
      obtain ⟨rfl, rfl⟩ := Prod.mk.inj (Option.some.inj h)
      exact step_decide (hover hphase id) object rest days
    · cases h
  | unlinked =>
    dsimp only at h
    split at h
    · next object days path rest hphase =>
      obtain ⟨rfl, rfl⟩ := Prod.mk.inj (Option.some.inj h)
      obtain ⟨hfollows, hwaits⟩ := next_spec rest (pass.recordDeletion s.disk path days)
      exact .unlink hphase hfollows hwaits
    · cases h
  | pruned onChainStates =>
    dsimp only at h
    split at h
    · next hphase =>
      obtain ⟨rfl, rfl⟩ := Prod.mk.inj (Option.some.inj h)
      exact .finish (hover hphase id) ⟨rfl, rfl⟩ trivial
    · cases h
  | failed =>
    dsimp only at h
    split at h
    · next object days path rest hphase =>
      obtain ⟨rfl, rfl⟩ := Prod.mk.inj (Option.some.inj h)
      obtain ⟨hfollows, hwaits⟩ := next_spec rest { pass with failed := pass.failed + 1 }
      exact .wait (hover hphase id) hfollows hwaits
    · next objects hphase =>
      obtain ⟨rfl, rfl⟩ := Prod.mk.inj (Option.some.inj h)
      exact .finish (hover hphase id) ⟨rfl, rfl⟩ trivial
    · next ownerDid object rest hphase =>
      obtain ⟨rfl, rfl⟩ := Prod.mk.inj (Option.some.inj h)
      exact .finish (hover hphase id) ⟨rfl, rfl⟩ trivial
    · next hphase =>
      obtain ⟨rfl, rfl⟩ := Prod.mk.inj (Option.some.inj h)
      exact .finish (hover hphase id) ⟨rfl, rfl⟩ trivial
    · cases h

end Pass

/-- Store calls and passes side by side, while time passes. -/
@[local grind] def retention : Machine Server Task Request Answer Nat where
  call s
    | .store input => some (s, .store { input, started := s.disk.clock })
    | .run =>
      match s.running with
      | some _ => some (s, .joined)
      | none => some ({ s with running := some s.disk.clock },
          .pass { startedAt := s.disk.clock })
  resume s
    | .store t, .store answer =>
      (t.resume config s.disk answer).map fun r => ({ s with disk := r.1 }, .store r.2)
    | .pass pass, .pass answer =>
      (pass.resume config maxDeletesPerRun s answer).map fun r => (r.1, .pass r.2)
    | _, _ => none
  env s elapsed := some { s with disk := { s.disk with clock := s.disk.clock + elapsed } }

end

end Retention
