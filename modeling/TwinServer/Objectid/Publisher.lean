-- SUMMARY: The writer of Twins: what it makes of untyped input, the subscription it charges, and the Move call of each mutation.
import TwinServer.Base.Serial
import TwinServer.Security.Tenants
import TwinServer.Thread.Events

/-!
# The publisher

`src/objectid/iotaStatePublisher.ts`: a mutation of a Twin is one Move call, made after the
subscription of the caller and the Twin were read. What the executor makes of the call is in
`TwinServer/Ledger/Sponsored.lean`; deletion is in `TwinServer/Cleanup/Plans.lean`.
-/

open Js Js.Json Thread

namespace ObjectId

/-! ## Untyped input -/

/-- `value(input, ...names)`: the first of the properties that is there. -/
def value (input : Record Json) (names : List String) : Option Json := names.findSome? input.get?

def stringValue (input : Option Json) (fallback : String) : String := (asString? input).getD fallback

def requiredString (input : Option Json) (name : String) : Except Thrown String :=
  let result := stringValue input ""
  if result = "" then
    .error (.app {
      code := "OBJECTID_TWIN_FIELD_REQUIRED", message := name ++ " is required", status := 422
      category := .VALIDATION, details := [("field", .string name)] })
  else .ok result

/-- The expression `/^0x[0-9a-f]{64}$/i`. -/
def isObjectIdText (s : String) : Bool :=
  match s.toList with
  | '0' :: x :: rest => x.toLower == 'x' && rest.length == 64 && rest.all fun c => isLowerHex c.toLower
  | _ => false

section
variable [Runtime]

/-- The input as a non-negative safe integer. -/
def unsignedInteger (input : Option Json) (fallback : Nat) : Except Thrown Nat := do
  let number ← match input with
    | none => pure (Number.ofNat fallback)
    | some v => conversion (toNumber? (some v))
  match number.safeNat? with
  | some n => .ok n
  | none => .error (.app {
      code := "OBJECTID_TWIN_NUMBER_INVALID", message := "Numeric fields must be non-negative safe integers"
      status := 422, category := .VALIDATION })

def metadataValue : Option Json → String
  | some (.string s) => s
  | none | some .null => "\x7b\x7d"
  | some v => stringify v

def requiredObjectId (input : Option Json) (name : String) : Except Thrown String := do
  let id ← conversion (textOf? input)
  throwIf (!isObjectIdText id) {
    code := "OBJECTID_TWIN_OBJECT_ID_INVALID"
    message := name ++ " must be a 32-byte IOTA object ID", status := 422
    category := .VALIDATION, details := [("field", .string name)] }
  return id

def optionalObjectId (input : Option Json) : Except Thrown (Option String) :=
  match input with
  | none | some .null | some (.string "") => .ok none
  | some v => some <$> requiredObjectId (some v) "objectId"

def objectIdField (input : Option Json) : Except Thrown String :=
  match input with
  | some (.string s) => .ok s
  | some v => conversion (textOf? (coalesce (coalesce (v.get? "id") (v.get? "bytes")) (v.get? "value")))
  | none => .ok ""

/-- `BigInt(decimalField(input))`. -/
def decimalField (input : Option Json) : Except Thrown Nat := do
  let value ← conversion (textOf? (coalesce input (some (.string "0"))))
  return if isDigits value then digitsToNat value else 0

/-- `recordValue(input)`, with the fields of the record. -/
def recordValue : Option Json → Option (Record Json)
  | some (.object fields) => some fields
  | _ => none

/-! ## The digest of a payload -/

def canonicalPayloadHash (input : String) : Except Thrown String :=
  let value := toLowerCase input
  if isHex64 value.toList then .ok ("sha256:" ++ value)
  else if isValidHash value then .ok value
  else .error (.app {
    code := "OBJECTID_STATE_HASH_INVALID", message := "payloadHash must be a SHA-256 digest"
    status := 422, category := .VALIDATION })

end

/-! ## Move calls -/

inductive TransactionArgument where
  | string (s : String)
  | number (n : Nat)
  | address (id : Option String)
  | object (id : String)
  deriving DecidableEq

/-- A call of a function of the module `oid_twin`: the account it is charged to, the Twin, the
arguments, and the clock. -/
structure MoveCall where
  package : String
  function : String
  subscriptionId : String
  controllerCapId : String
  twinId : Option String
  arguments : List TransactionArgument
  clockId : String
  deriving DecidableEq

structure SignerObjects where
  controllerCapId : String
  defaultSubscriptionId : String

/-- What a node says of an object; the fields are those of a Move object. -/
structure ChainObject where
  error : Bool := false
  type : Option String := none
  fields : Record Json := []

structure SubscriptionStatus where
  objectId : String
  customerId : String
  ownerControllerId : String
  remainingTwins : Nat
  remainingCredits : Nat
  current : Bool

/-- The publisher, with what it finds when a call is made: the objects of its signer, the objects
of the chain, and the time. -/
structure IotaStatePublisher where
  packageId : String
  executionPackageId : Option String := none
  delegatedAccounts : Bool := true
  clockId : String
  /-- `initialize()`, or what an earlier one left. -/
  objects : Except Thrown SignerObjects
  getObject : String → Except Thrown ChainObject
  now : Nat

export Security (AccountingContext)

namespace IotaStatePublisher

section
variable [Runtime] (p : IotaStatePublisher)

/-! ## The subscription -/

def subscriptionIdFor (accounting : Option AccountingContext) : Except Thrown String := do
  let objects ← p.objects
  requiredObjectId (some (.string ((accounting.map (·.subscriptionId)).getD objects.defaultSubscriptionId)))
    "subscriptionId"

def readSubscription (subscriptionId : String) : Except Thrown SubscriptionStatus := do
  let object ← p.getObject subscriptionId
  let details := [("objectId", Json.string subscriptionId)]
  throwIf object.error {
    code := "OBJECTID_SUBSCRIPTION_NOT_FOUND"
    message := "The configured SubscriptionAccount could not be read", status := 503
    category := .OBJECTID, details }
  throwIf (object.type != some (p.packageId ++ "::oid_twin::SubscriptionAccount")) {
    code := "OBJECTID_SUBSCRIPTION_TYPE_INVALID"
    message := "The configured subscription object is not a SubscriptionAccount", status := 503
    category := .OBJECTID, details }
  let fields := object.fields
  let periodStart ← decimalField (fields.get? "period_start")
  let periodEnd ← decimalField (fields.get? "period_end")
  let twinLimit ← decimalField (fields.get? "twin_limit")
  let activeTwinCount ← decimalField (fields.get? "active_twin_count")
  let creditLimit ← decimalField (fields.get? "credit_limit")
  let creditsUsed ← decimalField (fields.get? "credits_used")
  let status ← conversion (toNumber? (coalesce (fields.get? "status") (some (.number (.finite (-1))))))
  let customerId ← conversion (textOf? (fields.get? "customer_id"))
  let ownerControllerId ← conversion
    (textOf? (coalesce (fields.get? "owner_controller_id") (fields.get? "controller_id")))
  return {
    objectId := subscriptionId, customerId, ownerControllerId
    remainingTwins := twinLimit - activeTwinCount
    remainingCredits := creditLimit - creditsUsed
    current := status == 1 && periodStart ≤ p.now && p.now < periodEnd }

def assertTenantSubscription (subscriptionId : String) (subscription : SubscriptionStatus)
    (accounting : Option AccountingContext) : Except Thrown Unit :=
  match accounting with
  | none => .ok ()
  | some accounting => do
    let details :=
      [("tenantId", Json.string accounting.tenantId), ("subscriptionId", Json.string subscriptionId)]
    throwIf (subscription.customerId != accounting.customerId) {
      code := "OBJECTID_TENANT_SUBSCRIPTION_MISMATCH"
      message := "The configured subscription does not belong to the authenticated customer"
      status := 403, category := .AUTHORIZATION, details }
    let owner := (toLowerCase subscription.ownerControllerId).toList
    throwIf (subscription.ownerControllerId != "" &&
        !owner.isSuffixOf (toLowerCase accounting.ownerDid).toList) {
      code := "OBJECTID_TENANT_OWNER_MISMATCH"
      message := "The authenticated owner DID does not match the subscription owner on-chain"
      status := 403, category := .AUTHORIZATION, details }

def getSubscription (accounting : Option AccountingContext) : Except Thrown SubscriptionStatus := do
  let subscriptionId ← p.subscriptionIdFor accounting
  let status ← p.readSubscription subscriptionId
  assertTenantSubscription subscriptionId status accounting
  return status

def validateTwinAccounting (twinId subscriptionId : String) (accounting : Option AccountingContext)
    (cleanup : Bool := false) : Except Thrown Unit := do
  let id ← requiredObjectId (some (.string twinId)) "twinId"
  let object ← p.getObject id
  throwIf object.error {
    code := "OBJECTID_TWIN_NOT_FOUND", message := "The Twin could not be read before submission"
    status := 404, category := .OBJECTID, details := [("twinId", .string twinId)] }
  throwIf (object.type != some (p.packageId ++ "::oid_twin::OIDTwin")) {
    code := "OBJECTID_TWIN_PACKAGE_MISMATCH", message := "Twin belongs to a different package"
    status := 409, category := .OBJECTID }
  let actualSubscriptionId ← objectIdField (object.fields.get? "subscription_id")
  throwIf (toLowerCase actualSubscriptionId != toLowerCase subscriptionId) {
    code := "OBJECTID_TENANT_TWIN_MISMATCH"
    message := "The authenticated tenant does not own this Twin subscription"
    status := 403, category := .AUTHORIZATION
    details := [("twinId", .string twinId), ("subscriptionId", .string subscriptionId),
      ("actualSubscriptionId", .string actualSubscriptionId)] }
  let subscription ← p.readSubscription subscriptionId
  assertTenantSubscription subscriptionId subscription accounting
  throwIf (!cleanup && (!subscription.current || subscription.remainingCredits < 1)) {
    code := "OBJECTID_SUBSCRIPTION_CREDIT_EXHAUSTED"
    message := "The tenant subscription is inactive or has no remaining credits"
    status := 402, category := .AUTHORIZATION
    details := [("subscriptionId", .string subscriptionId)] }

/-! ## The calls -/

/-- `executionPackageId || packageId`. -/
def package : String :=
  match p.executionPackageId with
  | none | some "" => p.packageId
  | some package => package

/-- The call that is handed to the executor. -/
def twinCall (function twinId : String) (arguments : Except Thrown (List TransactionArgument))
    (accounting : Option AccountingContext) : Except Thrown MoveCall := do
  let subscriptionId ← p.subscriptionIdFor accounting
  p.validateTwinAccounting twinId subscriptionId accounting
  let objects ← p.objects
  let id ← requiredObjectId (some (.string twinId)) "twinId"
  let arguments ← arguments
  return {
    package := p.package, function, subscriptionId, controllerCapId := objects.controllerCapId, twinId := some id
    arguments, clockId := p.clockId }

end

section
variable [Services] (p : IotaStatePublisher)

section
variable (input : Record Json) (accounting : Option AccountingContext)

def createTwin : Except Thrown MoveCall := do
  throwIf (accounting.isSome && !p.delegatedAccounts) {
    code := "DELEGATED_SIGNER_REQUIRED"
    message :=
      "Customer Twins must be created for the subscription owner, not for the technical signer"
    status := 503, category := .AUTHORIZATION }
  let subscriptionId ← p.subscriptionIdFor accounting
  let subscription ← p.readSubscription subscriptionId
  assertTenantSubscription subscriptionId subscription accounting
  throwIf (!subscription.current || subscription.remainingTwins < 1 ||
      subscription.remainingCredits < 1) {
    code := "OBJECTID_SUBSCRIPTION_CAPACITY_EXHAUSTED"
    message := "The tenant subscription cannot create another Twin", status := 402
    category := .AUTHORIZATION, details := [("subscriptionId", .string subscriptionId)] }
  let objects ← p.objects
  let targetObjectId ← optionalObjectId (value input ["targetObjectId", "target_object_id"])
  let twinType ← requiredString (value input ["twinType", "twin_type"]) "twinType"
  let lifecycleState ← unsignedInteger (value input ["lifecycleState", "lifecycle_state"]) 1
  let fidelityLevel ← unsignedInteger (value input ["fidelityLevel", "fidelity_level"]) 1
  let maturityLevel ← unsignedInteger (value input ["maturityLevel", "maturity_level"]) 1
  let name ← requiredString (input.get? "name") "name"
  return {
    package := p.package
    function := if p.delegatedAccounts then "create_twin_for_subscription_owner" else "create_twin"
    subscriptionId, controllerCapId := objects.controllerCapId, twinId := none
    arguments := [.string twinType,
      .string (stringValue (value input ["targetKind", "target_kind"]) "asset"),
      .address targetObjectId, .string (stringValue (value input ["targetDid", "target_did"]) ""),
      .number lifecycleState, .number fidelityLevel, .number maturityLevel, .string name,
      .string (stringValue (input.get? "description") ""),
      .string (stringValue (input.get? "namespace") "default"),
      .string (metadataValue (value input ["immutableMetadata", "immutable_metadata"])),
      .string (metadataValue (value input ["mutableMetadata", "mutable_metadata"]))]
    clockId := p.clockId }

end

variable (twinId : String) (input : Record Json) (accounting : Option AccountingContext)

def updateTwin : Except Thrown MoveCall :=
  p.twinCall "update_twin_metadata" twinId (do
    let name ← requiredString (input.get? "name") "name"
    return [.string name, .string (stringValue (input.get? "description") ""),
      .string (metadataValue (value input ["mutableMetadata", "mutable_metadata"]))]) accounting

def publishState : Except Thrown MoveCall := do
  let payloadInline := stringValue (value input ["payloadInline", "payload_inline"]) ""
  let payloadHash ← canonicalPayloadHash
    (stringValue (value input ["payloadHash", "payload_hash"]) (sha256 payloadInline))
  let observedAt ← unsignedInteger (value input ["observedAt", "observed_at"]) p.now
  let qualityScore ← unsignedInteger (value input ["qualityScore", "quality_score"]) 100
  throwIf (qualityScore > 100) {
    code := "OBJECTID_STATE_QUALITY_INVALID", message := "qualityScore must be between 0 and 100"
    status := 422, category := .VALIDATION }
  p.twinCall "publish_state" twinId (do
    let aspectCode ← requiredString (value input ["aspectCode", "aspect_code"]) "aspectCode"
    let sampleType ← requiredString (value input ["sampleType", "sample_type"]) "sampleType"
    let validFrom ← unsignedInteger (value input ["validFrom", "valid_from"]) observedAt
    let validTo ← unsignedInteger (value input ["validTo", "valid_to"]) 0
    return [.string aspectCode, .string sampleType,
      .string (stringValue (value input ["sourceUri", "source_uri"]) ""),
      .string payloadHash,
      .string (stringValue (value input ["payloadUri", "payload_uri"]) ""),
      .string payloadInline, .number observedAt, .number validFrom, .number validTo,
      .number qualityScore]) accounting

def addDataset : Except Thrown MoveCall :=
  p.twinCall "add_dataset" twinId (do
    let datasetType ← requiredString (value input ["datasetType", "dataset_type"]) "datasetType"
    let sourceId ← optionalObjectId (value input ["sourceId", "source_id"])
    let storageUri ← requiredString (value input ["storageUri", "storage_uri"]) "storageUri"
    let payloadHash ← requiredString (value input ["payloadHash", "payload_hash"]) "payloadHash"
    let periodFrom ← unsignedInteger (value input ["periodFrom", "period_from"]) p.now
    let periodTo ← unsignedInteger (value input ["periodTo", "period_to"]) 0
    return [.string datasetType, .address sourceId,
      .string (stringValue (value input ["sourceDid", "source_did"]) ""),
      .string (stringValue (value input ["schemaUri", "schema_uri"]) ""),
      .string storageUri, .string payloadHash, .number periodFrom, .number periodTo,
      .string (stringValue (input.get? "version") "1"),
      .string (metadataValue (value input ["immutableMetadata", "immutable_metadata"])),
      .string (metadataValue (value input ["mutableMetadata", "mutable_metadata"]))]) accounting

def emitTwinEvent : Except Thrown MoveCall :=
  p.twinCall "record_business_event" twinId (do
    let eventType ← unsignedInteger (value input ["eventType", "event_type"]) 0
    return [.number eventType,
      .string (stringValue (value input ["payloadRef", "payload_ref"]) ""),
      .string (stringValue (value input ["payloadHash", "payload_hash"]) "")]) accounting

end

end IotaStatePublisher

end ObjectId
