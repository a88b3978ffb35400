-- SUMMARY: The device workbenches over one store of records: registration, ingestion, revocation, classification and credentials.
import TwinServer.Base.Map
import TwinServer.Base.Program
import TwinServer.Devices.Schema
import TwinServer.Plants.Store
import TwinServer.Security.Tenants

/-!
# The device workbench

`src/devices/service.ts` as programs. Any number of workbenches share the store of records, the broker and the chain; a
workbench has its own samples and its own set of devices that are busy. A put to the store takes effect in one step, if
it presents the current revision, and may still be reported as failed; every other operation may fail as well.
-/

open Js Js.Json Async ObjectId Plants

namespace Devices

/-! ## Data -/

/-- Who calls, and for whom; a creation context in which the plant may be absent. -/
structure DeviceContext where
  requesterDid : String
  ownerDid : String
  tenantId : Option String
  plantId : Option String := none
  nodeId : Option String := none
  source : Source

/-- A property of an object, when it is defined. -/
def property (name : String) (v : Option Json) : Record Json := v.toList.map fun v => (name, v)

def DeviceContext.json (c : DeviceContext) : Record Json :=
  [("requesterDid", .string c.requesterDid), ("ownerDid", .string c.ownerDid),
    ("tenantId", (c.tenantId.map .string).getD .null)] ++ property "plantId" (c.plantId.map .string) ++
    property "nodeId" (c.nodeId.map .string) ++ [("source", .string c.source.name)]

structure Options where
  network : String
  apiUrl : String
  mqttUrl : String
  topicPrefix : String
  mqttEnabled : Bool
  /-- The checks of an owner are given. -/
  verifyTwin : Bool
  verifyStorageTwin : Bool
  membership : Bool

structure Sample where
  value : Json
  receivedAt : Int
  sampleId : String

inductive CredentialAction where
  | status | download | rotate

/-- What the operations of the workbench return. -/
inductive Outcome where
  | value (v : Json)
  /-- The configuration of a device. -/
  | configuration (c : Json)

/-! ## What the workbenches share -/

/-- A record that was put, and the call that put it. -/
structure Commit where
  plant : Stored
  author : Nat

/-- A call of `createTwin` that is no preparation, for a device of an owner. -/
structure Creation where
  ownerDid : String
  id : String
  author : Nat

/-- An update of a password that the broker has confirmed. -/
structure BrokerUpdate where
  ownerDid : String
  id : String
  username : String
  password : String

/-- What a workbench keeps in memory. A device that is busy stands with the call that it is busy with. -/
structure Memory where
  samples : Map Sample
  busy : List (String × Nat)

structure World where
  history : List Commit
  workbenches : Nat → Memory
  creations : List Creation
  updates : List BrokerUpdate
  /-- The calls whose sample was kept. -/
  accepted : List Nat

def Memory.empty : Memory := ⟨.empty, []⟩

/-- Workbenches that start over an empty store. -/
def World.empty : World where
  history := []
  workbenches _ := .empty
  creations := []
  updates := []
  accepted := []

/-- The records after the puts. -/
def recordsOf (history : List Commit) : Store := replay (history.map Commit.plant)

def World.store (w : World) : Store := recordsOf w.history

/-- The scope of the devices of an owner. -/
def scope (owner : String) : String := "devices:" ++ owner

/-! ## Queries -/

/-- Operations that leave alone what the workbenches share. -/
inductive Outside where
  | findByOwnerDid (ownerDid : String)
  | tenant (tenantId : String)
  | isDynamic (ownerDid : String)
  | twinCredentialStatus (ownerDid twinId : String)
  | rotateTwinCredentials (ownerDid twinId username password : String)
  | revokeTwinCredentials (ownerDid id : String)
  | verifyTwin (storage : Bool) (twinId : Option Json) (ownerDid : Option Json)
  | membership (twinId : Option Json) (ownerDid : Option Json)
  | decodeDevicePayload (payload : Json) (password : Option Json)
  | classifyPayload (payload : Json) (signals : Option Json)
  | encodeDevicePayload (payload : Json) (password : Option Json)
  | publish (topic : String) (twinId : Option Json) (value : Json)
  | prepareTwin (body context : Record Json)
  | randomUUID
  | randomBytes
  | now

/-- `TwinDeviceCredentialStatus`, as far as it is read. -/
structure TwinCredentialStatus where
  mqttUsername : Option String
  tenantId : String
  subscriptionId : String
  active : Bool
  version : Nat

/-- What is read of the membership of a Twin in a plant. -/
structure Membership where
  plantId : Json
  tenantId : Json
  name : Json
  nodeId : Json

@[reducible] def Outside.Answer : Outside → Type
  | findByOwnerDid _ => Option Security.AccountingContext
  | tenant _ => Security.AccountingContext
  | isDynamic _ | verifyTwin _ _ _ => Bool
  | twinCredentialStatus _ _ => TwinCredentialStatus
  | rotateTwinCredentials _ _ _ _ => Nat
  | membership _ _ => Option Membership
  | decodeDevicePayload _ _ | classifyPayload _ _ | encodeDevicePayload _ _ => Json
  | randomUUID | randomBytes | now => String
  | revokeTwinCredentials _ _ | publish _ _ _ | prepareTwin _ _ => Unit

inductive Query where
  | list (scope : String)
  | put (scope id : String) (revision : Nat) (document : Record Json)
  | createTwin (ownerDid id : String) (body context : Record Json)
  | rotateBootstrapCredentials (ownerDid id username password : String)
  /-- `busy.has` and `busy.add` of a workbench. -/
  | acquire (workbench : Nat) (key : String)
  | release (workbench : Nat) (key : String)
  /-- `latest` of each device. -/
  | latest (workbench : Nat) (ids : List String)
  /-- The sample takes the place of the one before, if that is a second old. -/
  | keep (workbench : Nat) (id : String) (payload : Json)
  | forget (workbench : Nat) (id : String)
  | outside (q : Outside)

@[reducible] def Query.Answer : Query → Type
  | list _ => List Plant
  | put _ _ _ _ => Plant
  | createTwin _ _ _ _ => Json
  | acquire _ _ | keep _ _ _ => Bool
  | latest _ _ => List (Option Sample)
  | rotateBootstrapCredentials _ _ _ _ | release _ _ | forget _ _ => Unit
  | outside q => q.Answer

/-- How a put ends: it is refused or fails before it takes effect, it is reported as failed although it took effect, or
it is done. -/
inductive PutEnd where
  | refused
  | unreported
  | done

/-- What the rest of the world decides when a query is served. -/
structure Fate where
  fails : Bool
  put : PutEnd
  now : Int
  uuid : String
  created : Json
  outside : (q : Outside) → Except Thrown q.Answer

def revisionConflict (revision : Nat) : AppError :=
  { code := "PLANT_REVISION_CONFLICT", message := "Plant revision does not match", status := 409
    category := .VALIDATION, details := [("revision", .number revision)] }

def listed (p : Stored) : Plant :=
  { id := p.id, revision := p.revision, document := p.document, publication := p.publication }

/-- The memory of one workbench changes. -/
def World.modify (w : World) (n : Nat) (f : Memory → Memory) : World :=
  { w with workbenches := Function.update w.workbenches n (f (w.workbenches n)) }

/-- The sample is of the last quarter of an hour. -/
def Sample.isRecent (sample : Sample) (now : Int) : Bool := now - sample.receivedAt ≤ 15 * 60000

/-- `latest`. -/
def Memory.latest (m : Memory) (now : Int) (id : String) : Option Sample :=
  (m.samples.get? id).filter (·.isRecent now)

/-- The samples without those that `latest` drops. -/
def Memory.pruned (m : Memory) (now : Int) (ids : List String) : Map Sample :=
  ids.foldl (fun samples id => if (samples.get? id).any (!·.isRecent now) then samples.delete id else samples) m.samples

def Memory.keep (m : Memory) (now : Int) (uuid id : String) (payload : Json) : Bool × Memory :=
  let previous := m.samples.get? id
  if previous.any fun sample => now - sample.receivedAt < 1000 then (false, m)
  else
    let samples := match m.samples.keys with
      | first :: _ => if m.samples.keys.length ≥ 256 && previous.isNone then m.samples.delete first else m.samples
      | [] => m.samples
    (true, { m with samples := samples.set id ⟨payload, now, uuid⟩ })

/-- The world with one more record. -/
def World.committed (w : World) (call : Nat) (scope id : String) (revision : Nat) (document : Record Json) : World :=
  { w with history := w.history ++ [⟨{ scope, id, revision := revision + 1, document := leftOf document
                                       publication := none }, call⟩] }

/-- `put` of the store, which ends as the fate says. -/
@[local grind] def World.put (w : World) (call : Nat) (scope id : String) (revision : Nat) (document : Record Json) :
    PutEnd → Except Thrown Plant × World
  | .refused => (.error .rejection, w)
  | .unreported =>
    (.error .rejection, if w.store.revision (scope, id) = revision then w.committed call scope id revision document
      else w)
  | .done =>
    if w.store.revision (scope, id) = revision then
      (.ok { id, revision := revision + 1, document, publication := none }, w.committed call scope id revision document)
    else (.error (.app (revisionConflict (w.store.revision (scope, id)))), w)

/-- The query of a call is served. -/
@[local grind] def serve (w : World) (call : Nat) : (q : Query) → Fate → Except Thrown q.Answer × World
  | .list scope, f => (if f.fails then .error .rejection else .ok ((w.store.list scope).map listed), w)
  | .put scope id revision document, f => w.put call scope id revision document f.put
  | .createTwin ownerDid id _ _, f =>
    (if f.fails then .error .rejection else .ok f.created, { w with creations := w.creations ++ [⟨ownerDid, id, call⟩] })
  | .rotateBootstrapCredentials ownerDid id username password, f =>
    if f.fails then (.error .rejection, w)
    else (.ok (), { w with updates := w.updates ++ [⟨ownerDid, id, username, password⟩] })
  | .acquire n key, _ =>
    if (w.workbenches n).busy.any (·.1 == key) then (.ok false, w)
    else (.ok true, w.modify n fun m => { m with busy := (key, call) :: m.busy })
  | .release n key, _ => (.ok (), w.modify n fun m => { m with busy := m.busy.filter (·.1 != key) })
  | .latest n ids, f =>
    (.ok (ids.map ((w.workbenches n).latest f.now)), w.modify n fun m => { m with samples := m.pruned f.now ids })
  | .keep n id payload, f =>
    (.ok ((w.workbenches n).keep f.now f.uuid id payload).1,
      { w.modify n fun m => (m.keep f.now f.uuid id payload).2 with
        accepted := if ((w.workbenches n).keep f.now f.uuid id payload).1 then w.accepted ++ [call] else w.accepted })
  | .forget n id, _ => (.ok (), w.modify n fun m => { m with samples := m.samples.delete id })
  | .outside q, f => (f.outside q, w)

abbrev Act := Program Query Query.Answer Thrown

/-- A refusal when the condition holds. -/
def refuseIf (c : Bool) (code : String) (status : Nat := 422) : Act Unit :=
  .done (if c then deviceError code status else .ok ())

def refused {α : Type} (code : String) (status : Nat := 422) : Act α := .done (deviceError code status)

/-- `c ? await p : a`. -/
def choose {α : Type} (c : Bool) (p : Act α) (a : α) : Act α := if c then p else pure a

/-- `if (c) await p`. -/
def whenever (c : Bool) (p : Act Unit) : Act Unit := choose c p ()

/-! ### Queries -/

/-- An operation outside. -/
def await (q : Outside) : Act q.Answer := Program.query (Query.outside q)

def plants (scope : String) : Act (List Plant) := Program.query (Query.list scope)

def putPlant (scope id : String) (revision : Nat) (document : Record Json) : Act Plant :=
  Program.query (Query.put scope id revision document)

/-- `createTwin` that is no preparation. -/
def createTwin (ownerDid id : String) (body context : Record Json) : Act Json :=
  Program.query (Query.createTwin ownerDid id body context)

def rotateBootstrapCredentials (ownerDid id username password : String) : Act Unit :=
  Program.query (Query.rotateBootstrapCredentials ownerDid id username password)

def acquire (n : Nat) (key : String) : Act Bool := Program.query (Query.acquire n key)

def release (n : Nat) (key : String) : Act Unit := Program.query (Query.release n key)

def latest (n : Nat) (ids : List String) : Act (List (Option Sample)) := Program.query (Query.latest n ids)

def keep (n : Nat) (id : String) (payload : Json) : Act Bool := Program.query (Query.keep n id payload)

def forget (n : Nat) (id : String) : Act Unit := Program.query (Query.forget n id)

/-! ## Records -/

/-- `v === w`, where `none` is `undefined`. -/
def isSame : Option Json → Option Json → Bool
  | none, none => true
  | some v, some w => v.strictEq w
  | _, _ => false

/-- `allowed`. -/
def allowed (document : Record Json) (context : DeviceContext) : Bool :=
  let at_ (name : String) : Option Json := (document.get? "context").bind (·.get? name)
  let plant := isSame (at_ "plantId") (context.plantId.map .string)
  let tenant := isSame (at_ "tenantId") (some ((context.tenantId.map .string).getD .null))
  !(context.source == .twinscope && (!plant || !tenant)) &&
    isSame (document.get? "ownerDid") (some (.string context.ownerDid)) &&
    (context.requesterDid == context.ownerDid ||
      (isSame (at_ "requesterDid") (some (.string context.requesterDid)) && plant &&
        isSame (at_ "nodeId") (context.nodeId.map .string)))

/-- `list`: the devices, each with the sample that is told of it. -/
def listDevices (n : Nat) (context : DeviceContext) : Act (List (Plant × Option Sample)) := do
  let items ← plants (scope context.ownerDid)
  let devices := items.filter fun item => allowed item.document context
  let samples ← latest n (devices.map (·.id))
  return devices.zip samples

def record (context : DeviceContext) (id : String) : Act Plant := do
  let items ← plants (scope context.ownerDid)
  match items.find? (·.id == id) with
  | none => refused "DEVICE_NOT_FOUND" 404
  | some found => if allowed found.document context then pure found else refused "DEVICE_NOT_FOUND" 404

def put (owner id : String) (revision : Nat) (document : Record Json) : Act Plant :=
  putPlant (scope owner) id revision document

/-- `{ ...document, [name]: v }`. -/
def assign (document : Record Json) (name : String) (v : Option Json) : Record Json :=
  match v with
  | some v => document.set name v
  | none => document.delete name

/-- The work on a device that is not busy, which then is until the work ends. -/
def exclusively {α : Type} (n : Nat) (key : String) (work : Act α) : Act α := do
  let free ← acquire n key
  if free then work.andFinally (release n key) else refused "DEVICE_BUSY" 409

/-- `a || b`. -/
def orElse (a b : Option Json) : Option Json := if truthy? a then a else b

/-- A property of a property. -/
def path (v : Option Json) (names : List String) : Option Json := names.foldl (fun v name => v.bind (·.get? name)) v

def stateOf (document : Record Json) : Option String := asString? (document.get? "state")

/-! ## The operations -/

section
variable [Runtime] (digest : String → String) (o : Options) (n : Nat)

/-- `String(v)`. -/
def textOf (v : Option Json) : Act String := .done (conversion (keyString v))

def usernameOf (id : String) : String := "oid_bootstrap_" ++ o.network ++ "_" ++ .ofList (id.toList.drop 7)

/-- The topics and the endpoint of a device, and what it identifies itself with. -/
def configurationOf (id : String) (name tenantId : Option Json) (tenant httpToken password : String)
    (encryptionPassword : Option Json) : Record Json :=
  [("specVersion", .string "objectid.device-onboarding.v1"), ("network", .string o.network),
    ("deviceId", .string id)] ++ property "name" name ++ property "tenantId" tenantId ++
  [("http", .object [("endpoint", .string (o.apiUrl ++ "/device-input/" ++ tenant ++ "/" ++ id)),
    ("token", .string httpToken)])] ++
  (if o.mqttEnabled then [("mqtt", .object [("endpoint", .string o.mqttUrl), ("username", .string (usernameOf o id)),
    ("password", .string password), ("topics", .object [("telemetry",
      .string (o.topicPrefix ++ "/" ++ tenant ++ "/devices/" ++ id ++ "/telemetry"))])])] else []) ++
  [("encryption", match encryptionPassword.filter truthy with
    | some password => .object [("algorithm", .string "AES-256-GCM"), ("kdf", .string "scrypt"), ("password", password)]
    | none => .null)]

/-- The record of a device that is registered. -/
def waitingDocument (context : DeviceContext) (name httpToken createdAt tenantId : String) (encryptionPassword : Option Json) :
    Record Json :=
  [("ownerDid", .string context.ownerDid), ("context", .object context.json), ("name", .string name),
    ("state", .string "waiting"), ("tokenHash", .string (digest httpToken)),
    ("encryptionRequired", .bool (truthy? encryptionPassword)), ("createdAt", .string createdAt),
    ("tenantId", .string tenantId)]

/-- `input.name` as it is accepted. -/
def nameOf (input : Json) : Option String :=
  (asString? (input.get? "name")).filter fun name => trim name != "" && utf16Length name ≤ 128

/-- The password of an encryption is absent, or a text that is not too long. -/
def isPassword (v : Option Json) : Bool :=
  match v with
  | none => true
  | some (.string password) => utf16Length password ≤ 1024
  | _ => false

def register (context : DeviceContext) (input : Json) : Act Outcome := do
  refuseIf (o.apiUrl == "" || (o.mqttEnabled && o.mqttUrl == "")) "DEVICE_PUBLIC_ENDPOINT_NOT_CONFIGURED" 503
  match nameOf input with
  | none => refused "DEVICE_INPUT_INVALID"
  | some name =>
    let encryptionPassword := input.get? "encryptionPassword"
    refuseIf (!isPassword encryptionPassword) "DEVICE_INPUT_INVALID"
    match ← await (.findByOwnerDid context.ownerDid) with
    | none => refused "DEVICE_SUBSCRIPTION_ACCOUNT_REQUIRED" 402
    | some accounting =>
      let devices ← listDevices n { context with requesterDid := context.ownerDid }
      refuseIf (devices.length ≥ 64) "DEVICE_LIMIT" 409
      let id := "device-" ++ (← await .randomUUID)
      let password ← await .randomBytes
      let httpToken ← await .randomBytes
      let createdAt ← await .now
      let _ ← put context.ownerDid id 0
        (waitingDocument digest context (trim name) httpToken createdAt accounting.tenantId encryptionPassword)
      whenever o.mqttEnabled
        (rotateBootstrapCredentials context.ownerDid id (usernameOf o id) password)
      let configuration := configurationOf o id (some (.string (trim name))) (some (.string accounting.tenantId))
        accounting.tenantId httpToken password encryptionPassword
      let saved ← record context id
      let _ ← put context.ownerDid id saved.revision (saved.document.set "deviceConfiguration" (.object configuration))
      return .configuration (.object configuration)

/-- The Twin of a device is told of a sample. -/
def forward (tenantId id : String) (payload : Json) (document : Record Json) : Act Unit := do
  let password := document.get? "payloadPassword"
  let decoded ← await (.decodeDevicePayload payload password)
  let classified ← await (.classifyPayload decoded (document.get? "signals"))
  let value ← choose (truthy? password) (await (.encodeDevicePayload classified password)) classified
  await (.publish (o.topicPrefix ++ "/" ++ tenantId ++ "/devices/" ++ id ++ "/telemetry") (document.get? "twinId") value)

/-- The token is the one whose digest the record has. -/
def isToken (document : Record Json) (token : Option String) : Bool :=
  token.any fun token => token != "" && isSame (document.get? "tokenHash") (some (.string (digest token)))

def ingest (tenantId id : String) (payload : Json) (token : Option String) (mqtt : Bool) : Act Outcome := do
  refuseIf (!Security.isDeviceId id) "DEVICE_NOT_FOUND" 404
  let accounting ← await (.tenant tenantId)
  let found ← record { ownerDid := accounting.ownerDid, requesterDid := accounting.ownerDid, tenantId := none
                       source := .dt } id
  let document := found.document
  refuseIf (truthy? (document.get? "credentialRotationPending")) "DEVICE_CREDENTIAL_ROTATION_PENDING" 409
  refuseIf (!isSame (document.get? "tenantId") (some (.string tenantId))) "DEVICE_NOT_FOUND" 404
  refuseIf (truthy? (document.get? "revokedAt")) "DEVICE_REVOKED" 403
  refuseIf (!mqtt && !isToken digest document token) "DEVICE_CREDENTIALS_INVALID" 401
  refuseIf (payload.stringify.utf8ByteSize > 65536) "DEVICE_SAMPLE_TOO_LARGE" 413
  refuseIf (truthy? (document.get? "encryptionRequired") && !isSame (payload.get? "encrypted") (some (.bool true)))
    "DEVICE_ENCRYPTION_REQUIRED" 403
  let kept ← keep n id payload
  whenever (kept && stateOf document == some "created" && truthy? (document.get? "twinId"))
    (forward o tenantId id payload document)
  return .value .null

def revoke (context : DeviceContext) (id : String) : Act Outcome :=
  exclusively n id do
    let found ← record context id
    let revokedAt ← await .now
    let _ ← put context.ownerDid id found.revision (found.document.set "revokedAt" (.string revokedAt))
    forget n id
    whenever o.mqttEnabled (await (.revokeTwinCredentials context.ownerDid id))
    return .value (.object [("revoked", .bool true)])

/-- `export`. -/
def exportDevice (context : DeviceContext) (id : String) : Act Outcome := do
  let document := (← record context id).document
  refuseIf (stateOf document != some "created") "DEVICE_TWIN_NOT_CREATED" 409
  let twinId := document.get? "twinId"
  let owner := document.get? "ownerDid"
  let owned ← choose o.verifyTwin (await (.verifyTwin false twinId owner)) true
  refuseIf (!owned) "DEVICE_TWIN_NO_LONGER_OWNED" 404
  let membership ← choose o.membership (await (.membership twinId owner)) none
  let plantId := coalesce (membership.map (·.plantId)) (document.get? "plantId")
  let tenantId := match membership with
    | some membership => some membership.tenantId
    | none => path (document.get? "context") ["tenantId"]
  return .value (.object [("specVersion", .string "objectid.twin-catalog.v1"), ("network", .string o.network),
    ("integrationServer", .string o.apiUrl), ("twins", .array [.object (property "twinId" twinId ++
      [("deviceId", .string id)] ++ property "name" (document.get? "name") ++ property "ownerDid" owner ++
      property "plantId" plantId ++ property "tenantId" tenantId ++ property "plantName" (membership.map (·.name)) ++
      property "nodeId" (membership.map (·.nodeId)) ++ property "signals" (document.get? "signals") ++
      [("schemaVersion", .number 1)])])])

def signalJson (signal : Signal) : Json :=
  .object (property "key" signal.key ++ [("source", .string signal.source), ("name", .string signal.name),
    ("unit", .string signal.unit), ("type", .string signal.type)])

def creationBody (id name : String) (context : Record Json) (signals : Json) : Record Json :=
  [("name", .string name),
    ("namespace", .string (if asString? (context.get? "source") == some "twinscope" then "objectid.twinscope"
      else "objectid")),
    ("twinType", .string "device"), ("targetKind", .string "physical-asset"), ("lifecycleState", .number 1),
    ("fidelityLevel", .number 1), ("maturityLevel", .number 1)] ++ property "plantId" (context.get? "plantId") ++
  property "nodeId" (context.get? "nodeId") ++ [("visibility", .string "private"), ("dataVisibility", .string "private"),
    ("mutableMetadata", .string (stringify (.object [("objectid", .object [("deviceId", .string id),
      ("signalSchema", .object [("version", .number 1), ("signals", signals)])])])))]

/-- The creation on the chain and the record of it, after the record says that it is tried. -/
def create (context : DeviceContext) (id name : String) (body creationContext pending : Record Json) (revision : Nat) :
    Act Unit :=
  Program.orElse (do
    let created ← createTwin context.ownerDid id body creationContext
    let twinId := orElse (created.get? "twinId") (created.get? "id")
    match (asString? twinId).filter isObjectIdText with
    | none => .raise .rejection
    | some twinId =>
      let created := assign (assign (assign pending "state" (some (.string "created"))) "twinId" (some (.string twinId)))
        "plantId" (created.get? "plantId")
      let _ ← put context.ownerDid id revision (created.set "name" (.string name))
      return ())
    (refused "DEVICE_CREATION_RECONCILIATION_REQUIRED" 409)

/-- What `classify` does while the device is busy; the export of the Twin follows. -/
def classifyBusy (context : DeviceContext) (id : String) (input : Json) : Act Unit := do
  let found ← record context id
  let document := found.document
  refuseIf (truthy? (document.get? "revokedAt")) "DEVICE_REVOKED" 403
  if stateOf document == some "created" then return ()
  else if stateOf document == some "creating" || stateOf document == some "uncertain" then
    refused "DEVICE_CREATION_RECONCILIATION_REQUIRED" 409
  else
    match (← latest n [id]).head?.join with
    | none => refused "DEVICE_WAITING_FOR_DATA" 409
    | some sample =>
      -- a sample is always decoded again
      let payload ← await (.decodeDevicePayload sample.value (input.get? "password"))
      let signals : Json := .array ((← .done (classifySignals (input.get? "signals") payload)).map signalJson)
      let creationContext := (Sharing.asRecord (document.get? "context")).set "requesterDid" (.string context.requesterDid)
      match nameOf input with
      | none => refused "TWIN_NAME_REQUIRED"
      | some name =>
        let body := creationBody id (trim name) creationContext signals
        await (.prepareTwin body creationContext)
        let password := if truthy? (sample.value.get? "encrypted") then input.get? "password" else none
        let pending := assign ((document.set "state" (.string "creating")).set "signals" signals) "payloadPassword" password
        let saved ← put context.ownerDid id found.revision pending
        create context id (trim name) body creationContext pending saved.revision

def classify (context : DeviceContext) (id : String) (input : Json) : Act Outcome := do
  exclusively n id (classifyBusy n context id input)
  exportDevice o context id

/-- The new credentials of a device: its record is pending until the broker and the record have them. -/
def rotate (context : DeviceContext) (id : String) (found : Plant) : Act Outcome := do
  let document := found.document
  let encryptionPassword := orElse (document.get? "payloadPassword")
    (path (document.get? "deviceConfiguration") ["encryption", "password"])
  refuseIf (truthy? (document.get? "encryptionRequired") && !truthy? encryptionPassword)
    "DEVICE_ENCRYPTION_PASSWORD_UNAVAILABLE" 409
  let password ← await .randomBytes
  let httpToken ← await .randomBytes
  let tenant ← textOf (document.get? "tenantId")
  let configuration : Json := .object (configurationOf o id (document.get? "name") (document.get? "tenantId") tenant
    httpToken password encryptionPassword)
  let pending ← put context.ownerDid id found.revision
    (((document.set "credentialRotationPending" (.bool true)).set "deviceConfiguration" configuration).set "tokenHash"
      (.string (digest httpToken)))
  whenever o.mqttEnabled
    (rotateBootstrapCredentials context.ownerDid id (usernameOf o id) password)
  let _ ← put context.ownerDid id pending.revision
    ((pending.document.set "credentialRotationPending" (.bool false)).delete "revokedAt")
  forget n id
  return .configuration configuration

/-- The credentials of a device can be read back. -/
def isRecoverable (document : Record Json) : Bool :=
  truthy? (document.get? "deviceConfiguration") && !truthy? (document.get? "revokedAt") &&
    !truthy? (document.get? "credentialRotationPending")

def credentialsBusy (context : DeviceContext) (id : String) (action : CredentialAction) : Act Outcome := do
  let found ← record context id
  let document := found.document
  match action with
  | .status => return .value (.object [("associated", .bool true), ("deviceId", .string id),
      ("recoverable", .bool (isRecoverable document)), ("revoked", .bool (truthy? (document.get? "revokedAt"))),
      ("rotationPending", .bool (truthy? (document.get? "credentialRotationPending")))])
  | .download =>
    if isRecoverable document then return .configuration ((document.get? "deviceConfiguration").getD .null)
    else refused "DEVICE_CREDENTIALS_NOT_RECOVERABLE" 409
  | .rotate => rotate digest o n context id found

/-- The configuration of a Twin that has credentials of its own. -/
def legacyConfiguration (twinId username password : String) (status : TwinCredentialStatus) (version : Nat) : Json :=
  let root := o.topicPrefix ++ "/" ++ status.tenantId ++ "/twins/" ++ twinId
  let commands := (if o.topicPrefix.toList.reverse.take 8 == "/tenants".toList.reverse then
    .ofList (o.topicPrefix.toList.take (o.topicPrefix.length - 8)) else o.topicPrefix) ++ "/twins/" ++ twinId ++ "/commands/"
  .object [("specVersion", .string "objectid.device-provisioning.v1"), ("network", .string o.network),
    ("twinId", .string twinId), ("tenantId", .string status.tenantId), ("subscriptionId", .string status.subscriptionId),
    ("active", .bool true), ("version", .number version),
    ("objectid", .object [("network", .string o.network), ("tenantId", .string status.tenantId),
      ("subscriptionId", .string status.subscriptionId)]),
    ("twin", .object [("id", .string twinId)]),
    ("mqtt", .object [("endpoint", .string o.mqttUrl), ("username", .string username), ("password", .string password),
      ("topics", .object [("state", .string (root ++ "/telemetry/state")), ("dataset", .string (root ++ "/telemetry/dataset")),
        ("commandRequests", .string (commands ++ "request")), ("commandResults", .string (commands ++ "+/result"))])])]

/-- The credentials of a Twin that no device of the list has. -/
def legacyCredentials (context : DeviceContext) (twinId : String) (action : CredentialAction) : Act Outcome :=
  exclusively n twinId do
    let notAssociated : Act Outcome := match action with
      | .status => return .value (.object [("associated", .bool false)])
      | _ => refused "DEVICE_NOT_ASSOCIATED" 404
    if !(← await (.isDynamic context.ownerDid)) then notAssociated
    else
      let status ← await (.twinCredentialStatus context.ownerDid twinId)
      match status.mqttUsername.filter (· != "") with
      | none => notAssociated
      | some username =>
        let storageScope := "device-exports:" ++ context.ownerDid
        let found := (← plants storageScope).find? (·.id == twinId)
        let saved : Record Json := (found.map (·.document)).getD []
        let recoverable := status.active && isSame (saved.get? "version") (some (.number status.version)) &&
          truthy? (saved.get? "configuration")
        match action with
        | .status => return .value (.object [("associated", .bool true), ("legacy", .bool true),
            ("recoverable", .bool recoverable), ("revoked", .bool !status.active)])
        | .download =>
          if recoverable then return .value ((saved.get? "configuration").getD .null)
          else refused "DEVICE_CREDENTIALS_NOT_RECOVERABLE" 409
        | .rotate =>
          let password ← await .randomBytes
          let version ← await (.rotateTwinCredentials context.ownerDid twinId username password)
          let configuration := legacyConfiguration o twinId username password status version
          let _ ← putPlant storageScope twinId ((found.map (·.revision)).getD 0)
            [("version", .number version), ("configuration", configuration)]
          return .value configuration

def deviceCredentials (context : DeviceContext) (twinId : String) (action : CredentialAction)
    (storageAuthority : Bool) : Act Outcome := do
  let verified ← choose (if storageAuthority then o.verifyStorageTwin else o.verifyTwin)
    (await (.verifyTwin storageAuthority (some (.string twinId)) (some (.string context.ownerDid)))) false
  refuseIf (!verified) "DEVICE_TWIN_NO_LONGER_OWNED" 403
  let devices ← listDevices n context
  match (devices.map Prod.fst).filter fun device => isSame (device.document.get? "twinId") (some (.string twinId)) with
  | [] => legacyCredentials o n context twinId action
  | [device] => exclusively n device.id (credentialsBusy digest o n context device.id action)
  | _ => refused "MULTIPLE_DEVICES_REQUIRE_SELECTION" 409

end

/-! ## Calls -/

inductive Operation where
  | register (context : DeviceContext) (input : Json)
  | ingest (tenantId id : String) (payload : Json) (token : Option String) (mqtt : Bool)
  | revoke (context : DeviceContext) (id : String)
  | classify (context : DeviceContext) (id : String) (input : Json)
  | deviceCredentials (context : DeviceContext) (twinId : String) (action : CredentialAction) (storageAuthority : Bool)

/-- An operation of one of the workbenches. -/
structure Call where
  workbench : Nat
  operation : Operation

section
variable [Runtime] (digest : String → String) (o : Options)

def Call.program (k : Call) : Act Outcome :=
  match k.operation with
  | .register context input => register digest o k.workbench context input
  | .ingest tenantId id payload token mqtt => ingest digest o k.workbench tenantId id payload token mqtt
  | .revoke context id => revoke o k.workbench context id
  | .classify context id input => classify o k.workbench context id input
  | .deviceCredentials context twinId action storageAuthority =>
    deviceCredentials digest o k.workbench context twinId action storageAuthority

def service : Service World Call Query Query.Answer Thrown Outcome Fate where
  program := Call.program digest o
  serve := serve

/-- The workbenches under the calls that are taken, from the start on. -/
def machine (takes : Call → Bool) : Machine (System World Call) (Running Query Query.Answer Thrown Outcome) Call Fate Empty :=
  (service digest o).machine takes

abbrev Moment := Config (System World Call) (Running Query Query.Answer Thrown Outcome)

def start : Moment := ⟨⟨World.empty, []⟩, []⟩

end

end Devices
