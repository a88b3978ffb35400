-- SUMMARY: The service of plants on a shared directory: puts under the lock of the catalog, lists, and what a segment can do.
import TwinServer.Base.Simulation
import TwinServer.Plants.Blobs
import TwinServer.Plants.Store

/-!
# The service

`put` and `list` of `src/plants/service.ts`; every `await` ends a segment. An instance keeps nothing
of its own, so the instances that share a directory are tasks on it. What follows the rename of the
catalog is assumed to succeed.
-/

open Js Js.Json Thread Async

namespace Plants.Service

/-! ## Calls -/

inductive Call where
  | put (tenantId id : String) (input : Option Json)
  | list (tenantId : String)

/-- A put whose input has passed the checks. -/
structure Request where
  tenantId : String
  id : String
  update : Update

/-- The plant that a put leaves. -/
def Request.plant (r : Request) : Stored where
  scope := r.tenantId
  id := r.id
  revision := r.update.revision + 1
  document := r.update.document
  publication := r.update.publication

/-- A plant that was sealed and stored under a URI. -/
structure Blob where
  plant : Stored
  nonce : Nonce
  uri : String

/-- What the instances share, and the blobs that were committed, in their order. -/
structure Disk where
  file : Option String
  locked : Bool
  blobs : List Blob
  /-- What the server stored beside the plants. -/
  foreign : List (List Nat)
  history : List Blob

def Disk.empty : Disk := ⟨none, false, [], [], []⟩

inductive PutStage where
  | key
  | directory
  | lock
  | catalog
  | validation (plants : List Pointer)
  | storage (plants : List Pointer) (nonce : Nonce)
  | temporary (plants : List Pointer) (b : Blob)
  | rename (plants : List Pointer) (b : Blob)
  | unlock (outcome : Except Thrown Blob)
  | done (outcome : Except Thrown Blob)

/-- The stages of a list; `seen` is the history when it read the catalog. -/
inductive ListStage where
  | key
  | catalog
  | blobs (pointers : List Pointer) (seen : List Blob)
  | done (seen : List Blob) (outcome : Except Thrown (List Plant))

/-- A task with the history when it was called. -/
inductive Task where
  | put (r : Request) (called : List Blob) (stage : PutStage)
  | list (tenantId : String) (called : List Blob) (stage : ListStage)
  | refused (e : Thrown)

/-- What a task waits for. A store that fails may leave the blob behind. -/
inductive Answer where
  | answer (a : Except Thrown Unit)
  | validation (a : Except Thrown Unit) (nonce : Nonce)
  | stored (uri : String)
  | storeFailed (e : Thrown) (landed : Option String)
  | unlock (removed : Bool)
  | blobs (content : String → Option (List Nat))

def writeBusy : AppError :=
  { code := "PLANT_WRITE_BUSY", message := "Plant catalog is locked; retry the request", status := 409
    category := .VALIDATION }

def revisionConflict (revision : Nat) : AppError :=
  { code := "PLANT_REVISION_CONFLICT", message := "Plant revision does not match", status := 409
    category := .VALIDATION, details := [("revision", .number revision)] }

def integrityFailure : AppError :=
  { code := "PLANT_INTEGRITY_FAILURE"
    message := "Plant document could not be authenticated or read", status := 503
    category := .INTERNAL }

section
variable [Services]

def Blob.pointer (b : Blob) : Pointer where
  scope := sha256 b.plant.scope
  plant := sha256 b.plant.id
  revision := b.plant.revision
  uri := b.uri
  publication := b.plant.publication.map fun p => { p with id := b.plant.id }

/-- The revision of a plant in a catalog. -/
def catalogRevision (plants : List Pointer) (tenantId id : String) : Nat :=
  (plants.find? fun p => p.scope == sha256 tenantId && p.plant == sha256 id).elim 0 Pointer.revision

/-- The catalog with the pointer in the place of the one of its plant. -/
def replaced (plants : List Pointer) (pointer : Pointer) : List Pointer :=
  plants.filter (fun p => p.scope != pointer.scope || p.plant != pointer.plant) ++ [pointer]

variable (A : Aead) (key : List Nat) (parse : String → Option Json)

def Blob.bytes (b : Blob) : List Nat :=
  envelope A key b.nonce b.pointer.aad (recordText b.plant.id b.plant.document)

/-- The plants of the pointers, on what their URIs hold. -/
def readPlants (content : String → Option (List Nat)) (pointers : List Pointer) :
    Except Thrown (List Plant) :=
  pointers.mapM fun p =>
    match (content p.uri).bind (openBlob A parse key p) with
    | some plant => .ok plant
    | none => .error (.app integrityFailure)

/-! ## Segments -/

@[local grind] def call (s : Disk) : Call → Option (Disk × Task)
  | .put tenantId id input => some (s, match checkUpdate id input with
    | .ok update => .put ⟨tenantId, id, update⟩ s.history .key
    | .error e => .refused e)
  | .list tenantId => some (s, .list tenantId s.history .key)

/-- The catalog, when it has the plant at the revision that the put presents. -/
def readCurrent (file : Option String) (r : Request) : Except Thrown (List Pointer) := do
  let plants ← catalog parse file
  let revision := catalogRevision plants r.tenantId r.id
  throwIf (revision != r.update.revision) (revisionConflict revision)
  return plants

@[local grind] def putStep (s : Disk) (r : Request) : PutStage → Answer → Option (Disk × PutStage)
  | .key, .answer (.ok _) => some (s, .directory)
  | .key, .answer (.error e) => some (s, .done (.error e))
  | .directory, .answer (.ok _) => some (s, .lock)
  | .directory, .answer (.error e) => some (s, .done (.error e))
  | .lock, .answer (.ok _) =>
    if s.locked then some (s, .done (.error (.app writeBusy)))
    else some ({ s with locked := true }, .catalog)
  | .lock, .answer (.error e) => some (s, .done (.error e))
  | .catalog, .answer (.ok _) => some (s, match readCurrent parse s.file r with
    | .ok plants => .validation plants
    | .error e => .unlock (.error e))
  | .catalog, .answer (.error e) => some (s, .unlock (.error e))
  | .validation plants, .validation (.ok _) nonce => some (s, .storage plants nonce)
  | .validation _, .validation (.error e) _ => some (s, .unlock (.error e))
  | .storage plants nonce, .stored uri =>
    some ({ s with blobs := ⟨r.plant, nonce, uri⟩ :: s.blobs }, .temporary plants ⟨r.plant, nonce, uri⟩)
  | .storage _ nonce, .storeFailed e landed =>
    some ({ s with blobs := (landed.map fun uri => ⟨r.plant, nonce, uri⟩).toList ++ s.blobs },
      .unlock (.error e))
  | .temporary plants b, .answer (.ok _) => some (s, .rename plants b)
  | .temporary _ _, .answer (.error e) => some (s, .unlock (.error e))
  | .rename plants b, .answer (.ok _) =>
    some ({ s with file := some (catalogText (replaced plants b.pointer)), history := s.history ++ [b] },
      .unlock (.ok b))
  | .rename _ _, .answer (.error e) => some (s, .unlock (.error e))
  | .unlock outcome, .unlock true => some ({ s with locked := false }, .done outcome)
  -- the lock of a put that failed may stay
  | .unlock (.error e), .unlock false => some (s, .done (.error e))
  | _, _ => none

@[local grind] def listStep (s : Disk) (tenantId : String) : ListStage → Answer → Option ListStage
  | .key, .answer (.ok _) => some .catalog
  | .key, .answer (.error e) => some (.done s.history (.error e))
  | .catalog, .answer (.ok _) => some (match catalog parse s.file with
    | .ok plants => .blobs (plants.filter (·.scope == sha256 tenantId)) s.history
    | .error e => .done s.history (.error e))
  | .catalog, .answer (.error e) => some (.done s.history (.error e))
  | .blobs pointers seen, .blobs content =>
    some (.done seen (readPlants A key parse content pointers))
  | _, _ => none

@[local grind] def advance (s : Disk) : Task → Answer → Option (Disk × Task)
  | .put r called stage, i =>
    (putStep parse s r stage i).map fun next => (next.1, .put r called next.2)
  | .list tenantId called stage, i =>
    (listStep A key parse s tenantId stage i).map fun next => (s, .list tenantId called next)
  | .refused _, _ => none

/-- The service; from outside, other parts of the server store their blobs. -/
def machine : Machine Disk Task Call Answer (List Nat) where
  call := call
  resume := advance A key parse
  env s bytes := some { s with foreign := bytes :: s.foreign }

/-- The names whose digests a call makes. -/
def Call.names : Call → List String
  | .put tenantId id _ => [tenantId, id]
  | .list tenantId => [tenantId]

/-- The service for calls about the names. -/
def machineFor (names : List String) : Machine Disk Task Call Answer (List Nat) :=
  (machine A key parse).only fun k => k.names.all (names.contains ·)

/-- What a URI holds. -/
def Disk.content (s : Disk) (uri : String) : Option (List Nat) :=
  (s.blobs.find? (·.uri = uri)).map (Blob.bytes A key)

/-- A read gives what was stored, or it fails. -/
def faithful : Guard Disk Task Answer := fun s _ _ i =>
  match i with
  | .blobs content => ∀ uri bytes, content uri = some bytes → s.content A key uri = some bytes
  | _ => True

/-- A plant as a list returns it: its document as its text leaves it. -/
def listed (p : Stored) : Plant :=
  { id := p.id, revision := p.revision, document := leftOf p.document, publication := p.publication }

/-- The blob that a successful put has committed. -/
@[local grind] def PutStage.committed : PutStage → Option Blob
  | .unlock (.ok b) => some b
  | .done (.ok b) => some b
  | _ => none

def Task.committed : Task → Option Blob
  | .put _ _ stage => stage.committed
  | _ => none

/-! ## What a segment of a put can do -/

/-- The put waits for the lock, or has not come to it. -/
def PutStage.waits : PutStage → Bool
  | .key | .directory | .lock => true
  | _ => false

/-- The put holds the lock. -/
def PutStage.holds : PutStage → Bool
  | .key | .directory | .lock | .done _ => false
  | _ => true

/-- A URI that no blob has. -/
def Disk.Free (s : Disk) (uri : String) : Prop := uri ≠ "" ∧ ∀ b ∈ s.blobs, b.uri ≠ uri

/-- Every blob is stored under a URI of its own. -/
def freshUris : Guard Disk Task Answer := fun s _ _ i =>
  match i with
  | .stored uri => s.Free uri
  | .storeFailed _ (some uri) => s.Free uri
  | _ => True

inductive Moves (s : Disk) (r : Request) : PutStage → Disk → PutStage → Prop
  | wait {t t' : PutStage} (ht : t.waits) (ht' : t'.waits) : Moves s r t s t'
  | give_up {t : PutStage} {e : Thrown} (ht : t.waits) : Moves s r t s (.done (.error e))
  | acquire (h : s.locked = false) : Moves s r .lock { s with locked := true } .catalog
  | read {plants : List Pointer} (h : catalog parse s.file = .ok plants)
      (hrevision : catalogRevision plants r.tenantId r.id = r.update.revision) :
      Moves s r .catalog s (.validation plants)
  | validated {plants : List Pointer} {nonce : Nonce} :
      Moves s r (.validation plants) s (.storage plants nonce)
  | stored {plants : List Pointer} {nonce : Nonce} {uri : String} (h : s.Free uri) :
      Moves s r (.storage plants nonce) { s with blobs := ⟨r.plant, nonce, uri⟩ :: s.blobs }
        (.temporary plants ⟨r.plant, nonce, uri⟩)
  | orphaned {plants : List Pointer} {nonce : Nonce} {uri : String} {e : Thrown} (h : s.Free uri) :
      Moves s r (.storage plants nonce) { s with blobs := ⟨r.plant, nonce, uri⟩ :: s.blobs }
        (.unlock (.error e))
  | written {plants : List Pointer} {b : Blob} : Moves s r (.temporary plants b) s (.rename plants b)
  | renamed {plants : List Pointer} {b : Blob} :
      Moves s r (.rename plants b)
        { s with file := some (catalogText (replaced plants b.pointer)), history := s.history ++ [b] }
        (.unlock (.ok b))
  | failed {t : PutStage} {e : Thrown} (ht : t.holds) (hnone : t.committed = none) :
      Moves s r t s (.unlock (.error e))
  | released {outcome : Except Thrown Blob} :
      Moves s r (.unlock outcome) { s with locked := false } (.done outcome)
  | abandoned {e : Thrown} : Moves s r (.unlock (.error e)) s (.done (.error e))

variable {parse} {s s' : Disk} {r : Request} {t t' : PutStage} {i : Answer}

theorem readCurrent_ok {plants : List Pointer} (h : readCurrent parse s.file r = .ok plants) :
    catalog parse s.file = .ok plants ∧
      catalogRevision plants r.tenantId r.id = r.update.revision := by
  obtain ⟨plants', hcatalog, h⟩ := Except.bind_eq_ok.mp h
  obtain ⟨hrevision, h⟩ := Except.check_bind_eq_ok.mp h
  obtain rfl := Except.pure_eq_ok.mp h
  exact ⟨hcatalog, by simpa using hrevision⟩

theorem moves_of_putStep {u : Task} {others : List Task} (hfresh : freshUris s u others i)
    (h : putStep parse s r t i = some (s', t')) : Moves parse s r t s' t' := by
  unfold putStep at h
  split at h
  case h_1 => cases h; exact .wait rfl rfl
  case h_2 => cases h; exact .give_up rfl
  case h_3 => cases h; exact .wait rfl rfl
  case h_4 => cases h; exact .give_up rfl
  case h_5 =>
    split at h
    case isTrue => cases h; exact .give_up rfl
    case isFalse hlocked => cases h; exact .acquire (by simpa using hlocked)
  case h_6 => cases h; exact .give_up rfl
  case h_7 =>
    obtain ⟨rfl, rfl⟩ := Prod.mk.inj (Option.some.inj h)
    split
    case h_1 hread =>
      obtain ⟨hcatalog, hrevision⟩ := readCurrent_ok hread
      exact .read hcatalog hrevision
    case h_2 => exact .failed rfl rfl
  case h_8 => cases h; exact .failed rfl rfl
  case h_9 => cases h; exact .validated
  case h_10 => cases h; exact .failed rfl rfl
  case h_11 => cases h; exact .stored hfresh
  case h_12 plants nonce e landed =>
    cases landed with
    | none => cases h; exact .failed rfl rfl
    | some uri => cases h; exact .orphaned hfresh
  case h_13 => cases h; exact .written
  case h_14 => cases h; exact .failed rfl rfl
  case h_15 => cases h; exact .renamed
  case h_16 => cases h; exact .failed rfl rfl
  case h_17 => cases h; exact .released
  case h_18 => cases h; exact .abandoned
  case h_19 => cases h

/-- A segment that changes the catalog commits its put. -/
theorem file_putStep (h : putStep parse s r t i = some (s', t')) :
    s'.file = s.file ∨ ∃ b, t' = .unlock (.ok b) := by
  unfold putStep at h
  split at h
  case h_15 => cases h; exact .inr ⟨_, rfl⟩
  case h_5 => split at h <;> cases h <;> exact .inl rfl
  case h_19 => cases h
  all_goals cases h; exact .inl rfl

theorem committed_putStep {b : Blob} (ht : t.committed = some b)
    (h : putStep parse s r t i = some (s', t')) : t'.committed = some b := by
  unfold PutStage.committed at ht
  split at ht
  case h_1 =>
    obtain rfl := Option.some.inj ht
    cases i with
    | unlock removed =>
      cases removed with
      | true => cases h; rfl
      | false => cases h
    | _ => cases h
  case h_2 => simp [putStep] at h
  case h_3 => cases ht

/-- The bytes of the URIs, opened one by one. -/
theorem readPlants_ok_iff {A : Aead} {key : List Nat} {content : String → Option (List Nat)}
    {pointers : List Pointer} {plants : List Plant} :
    readPlants A key parse content pointers = .ok plants ↔
      List.Forall₂ (fun p plant => (content p.uri).bind (openBlob A parse key p) = some plant) pointers
        plants := by
  unfold readPlants
  rw [Except.mapM_eq_ok]
  refine Iff.of_eq (congrArg (List.Forall₂ · pointers plants) ?_)
  funext p plant
  cases (content p.uri).bind (openBlob A parse key p) with
  | none => simp
  | some plant' => simp

theorem readPlants_error {A : Aead} {key : List Nat} {content : String → Option (List Nat)}
    {pointers : List Pointer} {e : Thrown} (h : readPlants A key parse content pointers = .error e) :
    e = .app integrityFailure := by
  obtain ⟨p, -, h⟩ := Except.exists_of_mapM_eq_error h
  split at h
  · cases h
  · exact (Except.error.inj h).symm

theorem foreign_putStep (h : putStep parse s r t i = some (s', t')) : s'.foreign = s.foreign := by
  unfold putStep at h
  split at h
  case h_5 => split at h <;> cases h <;> rfl
  case h_19 => cases h
  all_goals cases h; rfl

/-- What is stored beside the plants was stored by the other parts of the server. -/
theorem foreign_of_run {A : Aead} {key : List Nat} {c c' : Config Disk Task}
    {es : List (Event Call Answer (List Nat))} (hrun : (machine A key parse).run c es = some c')
    {bytes : List Nat} (h : bytes ∈ c'.shared.foreign) : bytes ∈ c.shared.foreign ∨ .env bytes ∈ es := by
  induction es generalizing c with
  | nil =>
      obtain rfl := Option.some.inj hrun
      exact .inl h
  | cons e es ih =>
      obtain ⟨d, hstep, hrun⟩ := Option.bind_eq_some_iff.mp hrun
      rcases ih hrun with hd | hd
      case inr => exact .inr (List.mem_cons_of_mem _ hd)
      cases e with
      | call k =>
        obtain ⟨s, t, hcall, rfl⟩ := (machine A key parse).step_call hstep
        cases k <;> cases hcall <;> exact .inl hd
      | resume n i =>
        obtain ⟨t, s, t', -, hresume, rfl⟩ := (machine A key parse).step_resume hstep
        left
        cases t with
        | refused e => cases hresume
        | list tenantId called stage =>
          obtain ⟨_, -, heq⟩ := Option.map_eq_some_iff.mp hresume
          obtain ⟨rfl, rfl⟩ := Prod.mk.inj heq
          exact hd
        | put r called stage =>
          obtain ⟨⟨s₁, stage'⟩, hstage, heq⟩ := Option.map_eq_some_iff.mp hresume
          obtain ⟨rfl, rfl⟩ := Prod.mk.inj heq
          exact foreign_putStep hstage ▸ hd
      | env e =>
        obtain ⟨s, henv, rfl⟩ := (machine A key parse).step_env hstep
        obtain rfl := Option.some.inj henv
        rcases List.mem_cons.mp hd with rfl | hd
        · exact .inr List.mem_cons_self
        · exact .inl hd

/-- A list that reads the catalog. -/
theorem thread_list (A : Aead) (key : List Nat) (tenantId : String) (called : List Blob)
    {plants : List Pointer} (h : catalog parse s.file = .ok plants) :
    (machine A key parse).thread s (.list tenantId called .key) [.answer (.ok ()), .answer (.ok ())] =
      some (s, .list tenantId called (.blobs (plants.filter (·.scope == sha256 tenantId)) s.history)) := by
  simp only [Machine.thread, machine, advance, listStep, h, Option.map_some, Option.bind_some]

/-- A list that reads the blobs. -/
theorem thread_blobs {A : Aead} {key : List Nat} {tenantId : String} {called seen : List Blob}
    {pointers : List Pointer} {content : String → Option (List Nat)} {outcome : Except Thrown (List Plant)}
    (h : readPlants A key parse content pointers = outcome) :
    (machine A key parse).thread s (.list tenantId called (.blobs pointers seen)) [.blobs content] =
      some (s, .list tenantId called (.done seen outcome)) := by
  simp only [Machine.thread, machine, advance, listStep, h, Option.map_some, Option.bind_some]

end

end Plants.Service
