-- SUMMARY: Updates of the policy file of a Twin: a queue for each Twin, and two commits around the change of the ledger.
import TwinServer.Base.Async
import TwinServer.Base.Queue
import TwinServer.Sharing.Service

/-!
# Policy updates

`update` of the sharing service as a task. The updates of one Twin are queued. A
running update checks the revision its request presents against the file, commits a
policy that denies everybody, changes the metadata of the Twin on the ledger, and
commits the policy it was asked for. A commit writes a temporary file and renames it;
the listeners of the change are called afterwards and may throw.
-/

open Js Js.Json Async

namespace Sharing

/-! ## What an update computes -/

/-- A request that has passed the checks that need no file. -/
structure Draft where
  fields : Json
  mode : Mode
  visibility : String
  liveLocationVisibility : String
  allowedDids : List String
  ownerDid : String
  revision : String

/-- A request that has passed all checks. -/
structure Plan extends Draft where
  metadata : Json
  storageDids : List String

/-- What `updateTwin` is called with. -/
structure Mutation where
  name : String
  description : String
  mutableMetadata : Json

structure UpdateResult where
  mode : Mode
  visibility : String
  liveLocationVisibility : String
  revision : String
  digest : Json

/-- The value, when it is `private` or `public`. -/
def visibilityOf : Option Json → Option String
  | some (.string s) => if s = "private" || s = "public" then some s else none
  | _ => none

section
variable [Runtime] (o : SharingOptions)

/-- The checks of a request before the file is read. -/
@[local grind] def draft (fields input : Json) (revision : String) : Except Thrown Draft := do
  match Mode.parse (input.get? "mode"), visibilityOf (input.get? "visibility"),
    visibilityOf (input.get? "liveLocationVisibility"), input.get? "allowedDids" with
  | some mode, some visibility, some liveLocationVisibility, allowed =>
    if mode == .public_ && visibility != "public" then
      fail "Public data requires a public Twin" 422
    else
      match allowed with
      | some (.array items) =>
        if items.length > 100 then fail "Provide at most 100 authorized DIDs" 422
        else
          let dids ← items.mapM fun d => didOf o (some d)
          let allowedDids := dids.eraseDups
          if mode == .restricted && allowedDids.isEmpty then
            fail "Add at least one authorized DID, or choose Private to revoke all access" 422
          else
            let ownerDid ← lowerField fields "owner_did"
            return { fields, mode, visibility, liveLocationVisibility,
                     allowedDids, ownerDid, revision }
      | _ => fail "Provide at most 100 authorized DIDs" 422
  | _, _, _, _ => fail "Invalid access mode" 422

/-- The storage access a request asks for. A request without the field keeps what the
same owner has granted. -/
def requestedStorage (input : Json) (current : Option StoredPolicy) (d : Draft) :
    Option (List Json) :=
  match input.get? "storageDids" with
  | none =>
    let kept := ((current.filter (·.ownerDid == d.ownerDid)).bind (·.storageDids)).getD []
    some ((kept.filter d.allowedDids.contains).map .string)
  | some (.array items) => some items
  | some _ => none

/-- The checks of a request against the content of the file. -/
def plan (input : Json) (content : Option Json) (d : Draft) : Except Thrown Plan := do
  let current ← stored content
  if !(input.get? "revision").any (·.strictEq (currentRevision current)) then
    fail "Access settings changed. Close and reopen the dialog." 409
  else
    match requestedStorage input current d with
    | none => fail "Invalid storage access permissions" 422
    | some items =>
      if items.length > 100 then fail "Invalid storage access permissions" 422
      else
        let dids ← items.mapM fun did => didOf o (some did)
        let storageDids := dids.eraseDups
        if !storageDids.all d.allowedDids.contains then
          fail "Storage access requires realtime access for the same DID" 422
        else
          let m ← metadata o (d.fields.get? "mutable_metadata")
          return { d with metadata := m, storageDids }

/-- The change of the ledger. -/
def Plan.mutation (p : Plan) : Except Thrown Mutation := do
  let name ← conversion (textOf? (p.fields.get? "name"))
  let description ← conversion (textOf? (p.fields.get? "description"))
  let fieldsOf : Option Json → Record Json
    | some (.object fields) => fields
    | _ => []
  let live := if p.visibility = "public" then p.liveLocationVisibility else "private"
  let objectid := (((fieldsOf (p.metadata.get? "objectid")).set "visibility"
    (.string p.visibility)).set "dataVisibility" (.string p.mode.name)).set
      "liveLocationVisibility" (.string live)
  return { name, description,
           mutableMetadata := .object ((fieldsOf (some p.metadata)).set "objectid" (.object objectid)) }

end

/-- The two commits of an update. The second comes with the digest of the change. -/
inductive Stage where
  | pending
  | final (digest : Json)

/-- The policy of a commit. -/
def Plan.policy (p : Plan) : Stage → StoredPolicy
  | .pending =>
    { mode := .private_, allowedDids := [], storageDids := none, ownerDid := p.ownerDid,
      revision := some (.string p.revision), pending := true }
  | .final _ =>
    { mode := p.mode
      allowedDids := if p.mode == .restricted then p.allowedDids.map .string else []
      storageDids := some (if p.mode == .restricted then p.storageDids else [])
      ownerDid := p.ownerDid, revision := some (.string p.revision), pending := false }

def Plan.result (p : Plan) (digest : Json) : UpdateResult :=
  { mode := p.mode, visibility := p.visibility, liveLocationVisibility := p.liveLocationVisibility,
    revision := p.revision, digest }

/-! ## The machine -/

/-- A policy that was renamed into place, by the job of a number. -/
structure Commit where
  id : String
  job : Nat
  policy : StoredPolicy

structure UpdateState where
  queues : Queues
  /-- the files of the policies, by Twin -/
  files : Record Json
  /-- the revisions that were drawn, or stood in a file at the start -/
  issued : List String
  /-- the commits so far -/
  commits : List Commit

structure Job where
  number : Nat
  id : String
  did : String
  input : Json

/-- The revision a request presents. -/
def Job.presented (j : Job) : Option Json := j.input.get? "revision"

/-- Which of its two commits an update has made. -/
inductive Progress where
  | untouched | closed | opened
  deriving DecidableEq

inductive Phase where
  /-- before the job it waits for has settled -/
  | queued (prev : Option Nat)
  /-- while the Twin is read -/
  | managing
  /-- while the policy on chain is read -/
  | checking (fields : Json)
  /-- before the file is read -/
  | reading (d : Draft)
  /-- after the file was read -/
  | read (d : Draft) (content : Option Json)
  /-- while the temporary file of a commit is written -/
  | opening (stage : Stage) (p : Plan)
  /-- before the temporary file is renamed -/
  | moving (stage : Stage) (p : Plan)
  /-- after the temporary file was renamed -/
  | renamed (stage : Stage) (p : Plan)
  /-- while the ledger is changed -/
  | mutating (p : Plan) (m : Mutation)
  /-- the job has settled, and `update` has not gone on -/
  | settled (progress : Progress) (result : Except Thrown UpdateResult)
  | returned (progress : Progress) (result : Except Thrown UpdateResult)

def Phase.progress : Phase → Progress
  | .renamed .pending _ | .mutating _ _ | .opening (.final _) _ | .moving (.final _) _ => .closed
  | .renamed (.final _) _ => .opened
  | .settled progress _ | .returned progress _ => progress
  | _ => .untouched

structure UpdateTask where
  job : Job
  phase : Phase

structure UpdateCall where
  id : String
  did : String
  input : Json

/-- What an update is resumed with. A commit is rejected where the file system or a
listener rejects it. -/
inductive UpdateInput where
  | done
  | rejected
  | value (v : Json)
  /-- the answer of the chain, and the revision that is drawn next -/
  | answered (chain : Option Json) (uuid : String)

def UpdateState.commit (s : UpdateState) (j : Job) (policy : StoredPolicy) : UpdateState :=
  { s with files := s.files.set j.id policy.encode
           commits := s.commits ++ [⟨j.id, j.number, policy⟩] }

/-- The job ends with a result. -/
def UpdateTask.settle (t : UpdateTask) (s : UpdateState) (result : Except Thrown UpdateResult) :
    UpdateState × UpdateTask :=
  ({ s with queues := s.queues.settle t.job.number },
   { t with phase := .settled t.phase.progress result })

section
variable [Runtime] (o : SharingOptions)

/-- `update` up to its first suspension; a call with an invalid id does not get there. -/
def updateCall (s : UpdateState) (k : UpdateCall) : Option (UpdateState × UpdateTask) :=
  match twinIdOf k.id with
  | .error _ => none
  | .ok id =>
    some ({ s with queues := s.queues.enqueue id },
      { job := { number := s.queues.next, id, did := k.did, input := k.input }
        phase := .queued (s.queues.previous id) })

/-- One segment of an update. -/
@[local grind] def updateResume (s : UpdateState) (t : UpdateTask) : UpdateInput → Option (UpdateState × UpdateTask)
  | .done =>
    match t.phase with
    | .queued prev => if s.queues.ready prev then some (s, { t with phase := .managing }) else none
    | .reading d => some (s, { t with phase := .read d (s.files.get? t.job.id) })
    | .read d content =>
      match plan o t.job.input content d with
      | .error e => some (t.settle s (.error e))
      | .ok p => some (s, { t with phase := .opening .pending p })
    | .opening stage p => some (s, { t with phase := .moving stage p })
    | .moving stage p =>
      some (s.commit t.job (p.policy stage), { t with phase := .renamed stage p })
    | .renamed .pending p =>
      match p.mutation with
      | .error e => some (t.settle s (.error e))
      | .ok m => some (s, { t with phase := .mutating p m })
    | .renamed (.final digest) p => some (t.settle s (.ok (p.result digest)))
    | .settled progress result =>
      some ({ s with queues := s.queues.release t.job.id t.job.number },
        { t with phase := .returned progress result })
    | _ => none
  | .rejected =>
    match t.phase with
    | .queued _ | .checking _ | .read _ _ | .settled _ _ | .returned _ _ => none
    | _ => some (t.settle s (.error .rejection))
  | .value v =>
    match t.phase with
    | .managing =>
      match twinFields o v with
      | .error e => some (t.settle s (.error e))
      | .ok fields =>
        match manage o t.job.did fields with
        | .error e => some (t.settle s (.error e))
        | .ok () => some (s, { t with phase := .checking fields })
    | .mutating p _ =>
      some (s, { t with phase := .opening (.final ((coalesce (v.get? "digest") none).getD .null)) p })
    | _ => none
  | .answered chain uuid =>
    match t.phase with
    | .checking fields =>
      match chainPolicy o fields chain with
      | .error e => some (t.settle s (.error e))
      | .ok (some _) =>
        some (t.settle s
          (fail "On-chain permissions must be signed by the owner in the webview" 409))
      | .ok none =>
        match draft o fields t.job.input uuid with
        | .error e => some (t.settle s (.error e))
        | .ok d => some ({ s with issued := uuid :: s.issued }, { t with phase := .reading d })
    | _ => none

def updateMachine : Machine UpdateState UpdateTask UpdateCall UpdateInput Empty where
  call := updateCall
  resume := updateResume o
  env _ _ := none

end

/-- The revision in the file of a Twin, `null` where there is none. -/
def UpdateState.revision (s : UpdateState) (id : String) : Json :=
  match stored (s.files.get? id) with
  | .ok current => currentRevision current
  | .error _ => .null

/-- No revision is drawn twice, and none that stood in a file. -/
def FreshRevisions : Guard UpdateState UpdateTask UpdateInput := fun s _ _ i =>
  ∀ chain uuid, i = .answered chain uuid → uuid ∉ s.issued

/-- The service before the first update. -/
def UpdateState.start (files : Record Json) : UpdateState where
  queues := .empty
  files := files
  issued := files.filterMap fun e =>
    match stored (some e.2) with
    | .ok current => asString? (some (currentRevision current))
    | .error _ => none
  commits := []

/-! ## What a segment can do -/

/-- The job has started and not settled. -/
def Phase.running : Phase → Bool
  | .queued _ | .settled _ _ | .returned _ _ => false
  | _ => true

inductive UpdateSegment [Runtime] (o : SharingOptions) (s : UpdateState) (j : Job)
    (i : UpdateInput) : Phase → UpdateState → Phase → Prop where
  | started {prev : Option Nat} (hready : s.queues.ready prev) :
    UpdateSegment o s j i (.queued prev) s .managing
  | managed {fields : Json} : UpdateSegment o s j i .managing s (.checking fields)
  | drafted {fields : Json} {chain : Option Json} {uuid : String} {d : Draft}
    (hi : i = .answered chain uuid) (hdraft : draft o fields j.input uuid = .ok d) :
    UpdateSegment o s j i (.checking fields) { s with issued := uuid :: s.issued } (.reading d)
  | sampled {d : Draft} : UpdateSegment o s j i (.reading d) s (.read d (s.files.get? j.id))
  | planned {d : Draft} {content : Option Json} {p : Plan}
    (hplan : plan o j.input content d = .ok p) :
    UpdateSegment o s j i (.read d content) s (.opening .pending p)
  | written {stage : Stage} {p : Plan} : UpdateSegment o s j i (.opening stage p) s (.moving stage p)
  | committed {stage : Stage} {p : Plan} :
    UpdateSegment o s j i (.moving stage p) (s.commit j (p.policy stage)) (.renamed stage p)
  | sent {p : Plan} {m : Mutation} : UpdateSegment o s j i (.renamed .pending p) s (.mutating p m)
  | mutated {p : Plan} {m : Mutation} {digest : Json} :
    UpdateSegment o s j i (.mutating p m) s (.opening (.final digest) p)
  | settled {phase : Phase} {result : Except Thrown UpdateResult} (hrunning : phase.running)
    (hok : ∀ r, result = .ok r → phase.progress = .opened) :
    UpdateSegment o s j i phase { s with queues := s.queues.settle j.number }
      (.settled phase.progress result)
  | released {progress : Progress} {result : Except Thrown UpdateResult} :
    UpdateSegment o s j i (.settled progress result)
      { s with queues := s.queues.release j.id j.number } (.returned progress result)

section
variable [Runtime] {o : SharingOptions}

theorem segment_of_updateResume {s s' : UpdateState} {t t' : UpdateTask} {i : UpdateInput}
    (h : updateResume o s t i = some (s', t')) :
    t'.job = t.job ∧ UpdateSegment o s t.job i t.phase s' t'.phase := by
  obtain ⟨j, phase⟩ := t
  cases i with
  | done =>
    cases phase with
    | queued prev =>
      simp only [updateResume] at h
      split at h
      case isTrue hready =>
        obtain ⟨rfl, rfl⟩ := Prod.mk.inj (Option.some.inj h)
        exact ⟨rfl, .started hready⟩
      case isFalse => cases h
    | reading d =>
      obtain ⟨rfl, rfl⟩ := Prod.mk.inj (Option.some.inj h)
      exact ⟨rfl, .sampled⟩
    | read d content =>
      simp only [updateResume] at h
      split at h
      case h_1 =>
        obtain ⟨rfl, rfl⟩ := Prod.mk.inj (Option.some.inj h)
        exact ⟨rfl, .settled rfl (by simp)⟩
      case h_2 p hplan =>
        obtain ⟨rfl, rfl⟩ := Prod.mk.inj (Option.some.inj h)
        exact ⟨rfl, .planned hplan⟩
    | opening stage p =>
      obtain ⟨rfl, rfl⟩ := Prod.mk.inj (Option.some.inj h)
      exact ⟨rfl, .written⟩
    | moving stage p =>
      obtain ⟨rfl, rfl⟩ := Prod.mk.inj (Option.some.inj h)
      exact ⟨rfl, .committed⟩
    | renamed stage p =>
      cases stage with
      | pending =>
        simp only [updateResume] at h
        split at h
        case h_1 =>
          obtain ⟨rfl, rfl⟩ := Prod.mk.inj (Option.some.inj h)
          exact ⟨rfl, .settled rfl (by simp)⟩
        case h_2 =>
          obtain ⟨rfl, rfl⟩ := Prod.mk.inj (Option.some.inj h)
          exact ⟨rfl, .sent⟩
      | final digest =>
        obtain ⟨rfl, rfl⟩ := Prod.mk.inj (Option.some.inj h)
        exact ⟨rfl, .settled rfl fun _ _ => rfl⟩
    | settled progress result =>
      obtain ⟨rfl, rfl⟩ := Prod.mk.inj (Option.some.inj h)
      exact ⟨rfl, .released⟩
    | managing | checking | mutating | returned => cases h
  | rejected =>
    cases phase with
    | queued | checking | read | settled | returned => cases h
    | managing | reading | opening | moving | renamed | mutating =>
      obtain ⟨rfl, rfl⟩ := Prod.mk.inj (Option.some.inj h)
      exact ⟨rfl, .settled rfl (by simp)⟩
  | value v =>
    cases phase with
    | managing =>
      simp only [updateResume] at h
      split at h
      case h_1 =>
        obtain ⟨rfl, rfl⟩ := Prod.mk.inj (Option.some.inj h)
        exact ⟨rfl, .settled rfl (by simp)⟩
      case h_2 =>
        split at h
        case h_1 =>
          obtain ⟨rfl, rfl⟩ := Prod.mk.inj (Option.some.inj h)
          exact ⟨rfl, .settled rfl (by simp)⟩
        case h_2 =>
          obtain ⟨rfl, rfl⟩ := Prod.mk.inj (Option.some.inj h)
          exact ⟨rfl, .managed⟩
    | mutating p m =>
      obtain ⟨rfl, rfl⟩ := Prod.mk.inj (Option.some.inj h)
      exact ⟨rfl, .mutated⟩
    | queued | checking | reading | read | opening | moving | renamed | settled | returned =>
      cases h
  | answered chain uuid =>
    cases phase with
    | checking fields =>
      simp only [updateResume] at h
      split at h
      case h_1 =>
        obtain ⟨rfl, rfl⟩ := Prod.mk.inj (Option.some.inj h)
        exact ⟨rfl, .settled rfl (by simp)⟩
      case h_2 =>
        obtain ⟨rfl, rfl⟩ := Prod.mk.inj (Option.some.inj h)
        exact ⟨rfl, .settled rfl (by simp [fail])⟩
      case h_3 =>
        split at h
        case h_1 =>
          obtain ⟨rfl, rfl⟩ := Prod.mk.inj (Option.some.inj h)
          exact ⟨rfl, .settled rfl (by simp)⟩
        case h_2 d hdraft =>
          obtain ⟨rfl, rfl⟩ := Prod.mk.inj (Option.some.inj h)
          exact ⟨rfl, .drafted rfl hdraft⟩
    | queued | managing | reading | read | opening | moving | renamed | mutating | settled
    | returned => cases h

end

end Sharing
