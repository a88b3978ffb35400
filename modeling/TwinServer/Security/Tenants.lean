-- SUMMARY: The dynamic tenants, the edit each credential operation makes of them, and the broker files generated from them.
import TwinServer.Base.Errors
import TwinServer.Base.Topic

/-!
# Tenants

The data of `src/security/tenants.ts`: the entries of the dynamic tenant file, what
each operation makes of them and asks of the broker, and the access list the broker
is given. A point in time is its number of milliseconds. The operations run as
tasks in `TwinServer/Security/TenantRegistry.lean`.
-/

open Js

namespace Security

/-! ## Data -/

structure AccountingContext where
  tenantId : String
  customerId : String
  ownerDid : String
  subscriptionId : String
  deriving DecidableEq

structure TwinDeviceCredential where
  bootstrap : Bool
  twinId : String
  username : String
  version : Nat
  rotatedAt : Int
  revokedAt : Option Int := none
  deriving DecidableEq

structure TenantDefinition extends AccountingContext where
  apiKeyCredential : Option String := none
  apiKeyHash : Option String := none
  externalApiKeyHash : Option String := none
  mqttUsername : Option String := none
  mqttTwinIds : Option (List String) := none
  credentialsVersion : Option Nat := none
  credentialsRotatedAt : Option Int := none
  credentialsRevokedAt : Option Int := none
  deviceCredentials : Option (List TwinDeviceCredential) := none
  deriving DecidableEq

/-- `tenant.deviceCredentials ?? []`. -/
def TenantDefinition.devices (t : TenantDefinition) : List TwinDeviceCredential :=
  t.deviceCredentials.getD []

/-! ## The access list -/

inductive Access where
  | read | write | readwrite
  deriving DecidableEq

inductive AclLine where
  | user (name : String)
  | topic (access : Access) (filter : String)
  | blank
  deriving DecidableEq

/-- The broker settings of `tenantProvisioning`. The two flags say whether the
password file and the access list are configured. -/
structure Provisioning where
  topicPrefix : Option String
  serviceUsername : String
  passwordFile : Bool
  aclFile : Bool

/-- `s.replace(/^\/+|\/+$/g, "")`. -/
def trimSlashes (s : String) : String :=
  .ofList ((s.toList.dropWhile (· == '/')).reverse.dropWhile (· == '/')).reverse

def Provisioning.telemetryPrefix (p : Provisioning) : String :=
  trimSlashes (p.topicPrefix.getD "objectid/tenants")

/-- The prefix without its last level, when that is `tenants`. -/
def Provisioning.commandPrefix (p : Provisioning) : String :=
  let name := p.telemetryPrefix
  if "/tenants".toList.isSuffixOf name.toList then
    .ofList (name.toList.take (name.length - 8))
  else name

/-- The four topics of a Twin. -/
def twinTopics (p : Provisioning) (tenantId twinId : String) : List AclLine :=
  let root := p.telemetryPrefix ++ "/" ++ tenantId ++ "/twins/" ++ twinId
  [.topic .write (root ++ "/telemetry/state"), .topic .write (root ++ "/telemetry/dataset"),
   .topic .read (p.commandPrefix ++ "/twins/" ++ twinId ++ "/commands/request"),
   .topic .write (p.commandPrefix ++ "/twins/" ++ twinId ++ "/commands/+/result")]

/-- The lines of a tenant's own broker user. -/
def tenantLines (p : Provisioning) (t : TenantDefinition) : List AclLine :=
  match t.mqttUsername.filter (· != ""), t.externalApiKeyHash.filter (· != ""),
    t.credentialsRevokedAt with
  | some username, some _, none =>
    .user username :: (t.mqttTwinIds.getD []).flatMap (twinTopics p t.tenantId) ++ [.blank]
  | _, _, _ => []

/-- The lines of a device. -/
def deviceLines (p : Provisioning) (tenantId : String) (c : TwinDeviceCredential) :
    List AclLine :=
  if c.revokedAt.isSome then []
  else if c.bootstrap then
    [.user c.username,
     .topic .write (p.telemetryPrefix ++ "/" ++ tenantId ++ "/devices/" ++ c.twinId ++ "/telemetry"),
     .blank]
  else .user c.username :: twinTopics p tenantId c.twinId ++ [.blank]

/-- The lines of `rewriteMqttAcl`. -/
def aclLines (p : Provisioning) (tenants : List TenantDefinition) : List AclLine :=
  [.user p.serviceUsername, .topic .readwrite "#", .topic .read "$SYS/#", .blank] ++
    tenants.flatMap (tenantLines p) ++
    tenants.flatMap fun t => t.devices.flatMap (deviceLines p t.tenantId)

/-- The topic lines that stand under a user; the flag says whether the current user
is that one. -/
@[local grind] def topicsOf (name : String) : Bool → List AclLine → List (Access × String)
  | _, [] => []
  | _, .user other :: lines => topicsOf name (other == name) lines
  | true, .topic access filter :: lines => (access, filter) :: topicsOf name true lines
  | false, .topic _ _ :: lines => topicsOf name false lines
  | current, .blank :: lines => topicsOf name current lines

/-- The broker lets the user publish on the topic. -/
def mayPublish (acl : List AclLine) (user topic : String) : Bool :=
  (topicsOf user false acl).any fun line => line.1 != .read && Mqtt.filterMatches line.2 topic

theorem mayPublish_of_mem {acl : List AclLine} {user topic filter : String} {access : Access}
    (hline : (access, filter) ∈ topicsOf user false acl) (haccess : access ≠ .read)
    (hmatch : Mqtt.filterMatches filter topic) : mayPublish acl user topic := by
  rw [mayPublish, List.any_eq_true]
  refine ⟨(access, filter), hline, ?_⟩
  simp [haccess, hmatch]

/-- The broker lets the user read the topic. -/
def mayRead (acl : List AclLine) (user topic : String) : Bool :=
  (topicsOf user false acl).any fun line => line.1 != .write && Mqtt.filterMatches line.2 topic

/-! ## Operations -/

/-- What an operation asks of the broker after it has written the file. -/
inductive BrokerAction where
  | delete (username : String)
  | upsert (username password : String)
  | rewriteAcl (tenants : List TenantDefinition)

/-- The tenants an operation writes, and what it asks of the broker. -/
structure Edit where
  tenants : List TenantDefinition
  actions : List BrokerAction

inductive Operation where
  | saveDynamic (accounting : AccountingContext) (apiKey : String)
  | rotateExternal (ownerDid apiKey mqttUsername mqttPassword : String) (twinIds : List String)
  | rotateTwin (ownerDid twinId mqttUsername mqttPassword : String) (bootstrap : Bool)
  | rotateBootstrap (ownerDid deviceId username password : String)
  | revokeTwin (ownerDid twinId : String)
  | revokeExternal (ownerDid : String) (revokeDevices : Bool)

def tenantUnknown : AppError :=
  { code := "AUTH_TENANT_UNKNOWN", message := "A dynamic tenant subscription is required",
    status := 404, category := .AUTHORIZATION }

def deviceIdInvalid : AppError :=
  { code := "DEVICE_ID_INVALID", message := "Invalid device ID", status := 422,
    category := .VALIDATION }

/-- The expression `/^device-[a-f0-9-]{36}$/`. -/
def isDeviceId (s : String) : Bool :=
  "device-".toList.isPrefixOf s.toList && (s.toList.drop 7).length == 36 &&
    (s.toList.drop 7).all fun c => isLowerHex c || c == '-'

section
variable [Runtime]

/-- The entry belongs to the owner. -/
def TenantDefinition.ownedBy (t : TenantDefinition) (ownerDid : String) : Bool :=
  toLowerCase t.ownerDid == toLowerCase ownerDid

/-- The credential is the one of the Twin. -/
def TwinDeviceCredential.ofTwin (c : TwinDeviceCredential) (twinId : String) : Bool :=
  toLowerCase c.twinId == toLowerCase twinId

/-- `{...previous, ...accounting, apiKeyHash}`. -/
def withAccounting (previous : Option TenantDefinition) (accounting : AccountingContext)
    (hash : String) : TenantDefinition :=
  match previous with
  | some t => { t with toAccountingContext := accounting, apiKeyHash := some hash }
  | none => { accounting with apiKeyHash := some hash }

/-- The edit of one entry at the place where the owner is found. -/
def editOwner (tenants : List TenantDefinition) (ownerDid : String)
    (next : TenantDefinition → TenantDefinition) (actions : TenantDefinition → List BrokerAction) :
    Except AppError Edit :=
  match tenants.findIdx? (·.ownedBy ownerDid) with
  | none => .error tenantUnknown
  | some index =>
    let tenants' := tenants.modify index next
    .ok { tenants := tenants'
          actions := (tenants[index]?.elim [] actions) ++ [.rewriteAcl tenants'] }

/-- The credential of a Twin after a rotation. -/
def rotatedCredential (previous : TenantDefinition) (twinId username : String) (bootstrap : Bool)
    (now : Int) : TwinDeviceCredential :=
  let current := previous.devices.find? (·.ofTwin twinId)
  { bootstrap, twinId := toLowerCase twinId, username,
    version := current.elim 0 (·.version) + 1, rotatedAt := now }

/-- The entry with the rotated credential in place of the Twin's. -/
def TenantDefinition.rotateDevice (previous : TenantDefinition) (twinId username : String)
    (bootstrap : Bool) (now : Int) : TenantDefinition :=
  { previous with
    deviceCredentials := some (previous.devices.filter (fun c => !c.ofTwin twinId) ++
      [rotatedCredential previous twinId username bootstrap now]) }

/-- The entry with the credential of the Twin revoked. -/
def TenantDefinition.revokeDevice (previous : TenantDefinition) (twinId : String) (now : Int) :
    TenantDefinition :=
  { previous with
    deviceCredentials := some (previous.devices.map fun c =>
      if c.ofTwin twinId then { c with revokedAt := some now } else c) }

/-- The deletion of the user of the Twin's current credential, if its name passes a
test. -/
def TenantDefinition.deleteUser (previous : TenantDefinition) (twinId : String)
    (p : String → Bool) : List BrokerAction :=
  ((((previous.devices.find? (·.ofTwin twinId)).map (·.username)).filter p).map
    BrokerAction.delete).toList

def rotateTwinEdit (tenants : List TenantDefinition) (ownerDid twinId username password : String)
    (bootstrap : Bool) (now : Int) : Except AppError Edit :=
  editOwner tenants ownerDid (·.rotateDevice twinId username bootstrap now) fun previous =>
    previous.deleteUser twinId (fun old => old != "" && old != username) ++
      [.upsert username password]

/-- The edit of an operation at a time. -/
@[local grind] def Operation.edit (sha256 : String → String) (tenants : List TenantDefinition) (now : Int) :
    Operation → Except AppError Edit
  | .saveDynamic accounting apiKey =>
    let previous := tenants.find? (·.ownedBy accounting.ownerDid)
    .ok { tenants := tenants.filter (fun t => !t.ownedBy accounting.ownerDid) ++
            [withAccounting previous accounting (sha256 apiKey)]
          actions := [] }
  | .rotateExternal ownerDid apiKey mqttUsername mqttPassword twinIds =>
    editOwner tenants ownerDid
      (fun previous => { previous with
        externalApiKeyHash := some (sha256 apiKey)
        mqttUsername := some mqttUsername
        mqttTwinIds := some (twinIds.map toLowerCase).eraseDups
        credentialsVersion := some (previous.credentialsVersion.getD 0 + 1)
        credentialsRotatedAt := some now
        credentialsRevokedAt := none })
      fun _ => [.upsert mqttUsername mqttPassword]
  | .rotateTwin ownerDid twinId mqttUsername mqttPassword bootstrap =>
    rotateTwinEdit tenants ownerDid twinId mqttUsername mqttPassword bootstrap now
  | .rotateBootstrap ownerDid deviceId username password =>
    rotateTwinEdit tenants ownerDid deviceId username password true now
  | .revokeTwin ownerDid twinId =>
    editOwner tenants ownerDid (·.revokeDevice twinId now) (·.deleteUser twinId (· != ""))
  | .revokeExternal ownerDid revokeDevices =>
    editOwner tenants ownerDid
      (fun previous => { previous with
        externalApiKeyHash := none
        mqttTwinIds := some []
        credentialsRevokedAt := some now
        deviceCredentials :=
          if revokeDevices then some (previous.devices.map fun c => { c with revokedAt := some now })
          else previous.deviceCredentials })
      fun previous =>
        ((previous.mqttUsername.filter (· != "")).map BrokerAction.delete).toList ++
          if revokeDevices then
            (previous.devices.filter (·.revokedAt.isNone)).map fun c => .delete c.username
          else []

/-- What is checked before the file is read. -/
def Operation.invalid : Operation → Bool
  | .rotateBootstrap _ deviceId _ _ => !isDeviceId deviceId
  | _ => false

end

/-! ## The broker -/

/-- The password file and the access list. -/
structure Broker where
  passwords : Record String
  acl : List AclLine
  deriving DecidableEq

@[local grind] def Broker.apply (b : Broker) (p : Provisioning) : BrokerAction → Broker
  | .delete username =>
    if p.passwordFile then { b with passwords := b.passwords.delete username } else b
  | .upsert username password =>
    if p.passwordFile then { b with passwords := b.passwords.set username password } else b
  | .rewriteAcl tenants => if p.aclFile then { b with acl := aclLines p tenants } else b

/-! ## What an edit of one entry does -/

theorem editOwner_eq_ok [Runtime] {tenants : List TenantDefinition} {ownerDid : String}
    {next : TenantDefinition → TenantDefinition} {actions : TenantDefinition → List BrokerAction}
    {e : Edit} (h : editOwner tenants ownerDid next actions = .ok e) :
    ∃ index t, tenants[index]? = some t ∧ t.ownedBy ownerDid ∧
      e.tenants = tenants.modify index next ∧ e.actions = actions t ++ [.rewriteAcl e.tenants] := by
  simp only [editOwner] at h
  split at h
  case h_1 => cases h
  case h_2 index hindex =>
    obtain rfl := Except.ok.inj h
    obtain ⟨hlt, howned, -⟩ := List.findIdx?_eq_some_iff_getElem.mp hindex
    refine ⟨index, tenants[index], List.getElem?_eq_getElem hlt, howned, rfl, ?_⟩
    rw [List.getElem?_eq_getElem hlt, Option.elim_some]

/-- An entry after the edit is an entry before it, or the edited one. -/
theorem mem_modify {α : Type} {l : List α} {index : Nat} {t t' : α} {next : α → α}
    (ht : l[index]? = some t) (h : t' ∈ l.modify index next) : t' ∈ l ∨ t' = next t := by
  obtain ⟨n, hn, rfl⟩ := List.mem_iff_getElem.mp h
  rw [List.length_modify] at hn
  rw [List.getElem_modify]
  split
  case isTrue heq =>
    subst heq
    rw [List.getElem?_eq_getElem hn] at ht
    exact .inr (congrArg next (Option.some.inj ht))
  case isFalse => exact .inl (List.getElem_mem hn)

/-! ## Two plants -/

/-- A server with both broker files. -/
def plantProvisioning : Provisioning where
  topicPrefix := none
  serviceUsername := "dtis"
  passwordFile := true
  aclFile := true

/-- The accounting of the owner with a digit. -/
def plantAccounting (tenantId : String) (digit : Char) : AccountingContext where
  tenantId := tenantId
  customerId := "customer"
  ownerDid := "did:iota:" ++ objectId digit
  subscriptionId := objectId digit

/-- A tenant with the devices of some Twins. -/
def plantTenant (tenantId : String) (digit : Char) (devices : List TwinDeviceCredential) :
    TenantDefinition :=
  { plantAccounting tenantId digit with deviceCredentials := some devices }

end Security
