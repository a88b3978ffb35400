-- SUMMARY: The routes that mutate a Twin: what each asks of the adapter, and for which account.
import TwinServer.Base.Logged
import TwinServer.Plants.Creation

/-!
# The mutating routes

The handlers of `src/api/app.ts` under `/api/v1/twins/:id` that write to the chain, with the
services between them and the adapter. Every handler passes the account of the request on by hand.
-/

open Js Js.Json ObjectId Sharing Plants Thread

namespace Api

/-! ## Requests -/

inductive TwinAction where
  | PublishState | AddDataset | AddModel | AddInterface | EmitMaintenanceEvent | EmitBusinessEvent
  | CreateMaturityAssessment | ModifyComposition | ModifyIdentifierMapping | ModifyMetadata
  | DeleteTwin
  deriving DecidableEq

inductive Route where
  | dataAccess | patch | delete | deleteEvents | states | datasets | models | interfaces
  | compositions | identifierMappings | assessments | evaluate | events | evidenceBundles
  deriving DecidableEq

/-- A request about a Twin: the query `commit`, the header that confirms a deletion, and the account
of the tenant, when it is one. -/
structure Request where
  id : String
  body : Option Json
  commit : Option Json
  confirmation : Option String
  callerDid : String
  accounting : Option AccountingContext

structure Response where
  status : Nat
  body : Json

/-! ## The adapter -/

inductive Method where
  | updateTwin | deleteTwin | deleteTwinEvents | publishState | addDataset | addModel | addInterface
  | createComposition | addIdentifierMapping | emitTwinEvent | createMaturityAssessment
  deriving DecidableEq

/-- A call of the adapter that writes. -/
structure Mutation where
  method : Method
  twinId : String
  input : Option Json
  accounting : Option AccountingContext

/-- What a handler does: the mutations it asks for, and its outcome. -/
abbrev Handling := Logged Mutation Thrown

structure StoreInput where
  data : String
  contentType : Option Json
  fileName : Json
  category : String
  twinId : String
  metadata : Record Json := []

structure StoredObject where
  uri : String
  hash : String
  size : Nat
  hashAlgorithm : String
  contentType : Json

structure MaturityResult where
  profileId : String
  profileVersion : String
  engineVersion : String
  score : Nat
  level : Nat
  inputIndicators : Json
  evidenceHashes : Json
  evaluationHash : String
  indicators : Json

def MaturityResult.entries (result : MaturityResult) : Record Json :=
  [("profileId", .string result.profileId), ("profileVersion", .string result.profileVersion),
    ("engineVersion", .string result.engineVersion), ("score", .number result.score),
    ("level", .number result.level), ("inputIndicators", result.inputIndicators),
    ("evidenceHashes", result.evidenceHashes), ("evaluationHash", .string result.evaluationHash),
    ("indicators", result.indicators)]

/-- The telemetry of an export: its text, its period, and the number of its windows. -/
structure Export where
  text : String
  periodFrom : Nat
  periodTo : Nat
  sourceWindowCount : Nat

/-- The services behind the handlers, with their answers to one request. -/
structure Backend where
  /-- What stands before a handler: the Twin is the tenant's, the caller may manage it, the key of the
  request is new. -/
  entry : Route → Request → Except Thrown Unit
  authorize : String → TwinAction → Except Thrown Unit
  store : StoreInput → Except Thrown StoredObject
  adapter : Mutation → Except Thrown Json
  /-- The adapter deletes Twins, and events. -/
  deletesTwins : Bool := true
  deletesEvents : Bool := true
  /-- `evaluate`, after its evidence was stored. -/
  evaluate : String → List Json → String → Except Thrown MaturityResult
  /-- The windows of telemetry that an export selects. -/
  collect : String → Option Number → Option Number → Except Thrown Export
  /-- The id of the dataset, from the answer of the adapter or from the chain. -/
  datasetId : Json → String → String → Except Thrown (Option String)
  /-- `update` of the sharing service, up to the mutation and after it. -/
  prepareUpdate : String → String → Option Json → Except Thrown (Record Json)
  commitUpdate : String → Json → Except Thrown Json
  isDynamic : String → Except Thrown Bool
  revokeTwinCredentials : String → String → Except Thrown Unit

/-- The property of a value that may be missing; `undefined` and `null` have none. -/
def member (v : Option Json) (k : String) : Except Thrown (Option Json) :=
  match v with
  | none | some .null => .error .type
  | some v => .ok (v.get? k)

/-- `{ ...v }`. -/
def spread : Option Json → Record Json
  | some (.object fields) => fields
  | some (.array items) => items.zipIdx.map fun e => (e.2.repr, e.1)
  | _ => []

def unavailable (code message : String) : AppError :=
  { code, message, status := 503, category := .OBJECTID }

def invalid (code message : String) : AppError := { code, message, status := 422, category := .VALIDATION }

section
variable [Services]

/-- The number is one of the values. -/
def isOneOf (x : Number) (values : List Nat) : Bool := values.any fun n => x == Number.ofNat n

/-! ## Checks of the input -/

/-- The property under its name or, when it is missing, under the other one, without a property of
nothing. -/
def optional (input : Option Json) (k k' : String) : Option Json :=
  coalesce (input.bind (·.get? k)) (input.bind (·.get? k'))

def validateCompositionInput (input : Option Json) : Except Thrown (Option Json) := do
  let value ← conversion (toNumber? (optional input "compositionType" "composition_type"))
  throwIf (!isOneOf value [1, 2, 3])
    (invalid "COMPOSITION_TYPE_INVALID"
      "compositionType must be INTEGRATED(1), UNIFIED(2), or FEDERATED(3)")
  return input

def validateInterfaceInput (input : Option Json) : Except Thrown (Option Json) := do
  let value ← conversion (toNumber? (optional input "networkType" "network_type"))
  throwIf (!isOneOf value [1, 2, 3, 4, 255])
    (invalid "NETWORK_TYPE_INVALID"
      "networkType must identify USER, SERVICE, ACCESS, PROXIMITY, or OTHER")
  let protocol ← conversion (textOf? (input.bind (·.get? "protocol")))
  throwIf (trim protocol == "") (invalid "INTERFACE_PROTOCOL_REQUIRED" "protocol is required")
  return input

def validateIdentifierMappingInput (input : Option Json) : Except Thrown (Option Json) := do
  let source ← conversion (textOf? (optional input "sourceIdentifierId" "source_identifier_id"))
  let target ← conversion (textOf? (optional input "targetIdentifierId" "target_identifier_id"))
  throwIf (source == "" || target == "")
    (invalid "IDENTIFIER_MAPPING_INVALID" "source and target identifier IDs are required")
  throwIf (toLowerCase source == toLowerCase target)
    (invalid "IDENTIFIER_SELF_MAPPING" "an identifier cannot map to itself")
  return input

def isMaintenanceEvent (body : Option Json) : Except Thrown Bool := do
  let eventType ← conversion
    (toNumber? (coalesce (optional body "eventType" "event_type") (some (.number 0))))
  return (body.bind (·.get? "category")).any (·.strictEq (.string "maintenance")) ||
    isOneOf eventType [120, 121, 130]

/-- The two ends of the period that an export selects. -/
def evidenceSelection (query : Option Json) : Except Thrown (Option Number × Option Number) := do
  let timestamp (v : Option Json) (name : String) : Except Thrown (Option Number) :=
    match v with
    | none => .ok none
    | some v => do
      let parsed ← conversion (toNumber? (some v))
      throwIf (!parsed.isFinite || parsed.lt 0)
        (invalid "EVIDENCE_TIME_INVALID" (name ++ " must be a Unix timestamp in milliseconds"))
      return some parsed
  let fromTimestamp ← timestamp (optional query "fromTimestamp" "fromTime") "fromTimestamp"
  let toTimestamp ← timestamp (optional query "toTimestamp" "toTime") "toTimestamp"
  throwIf ((fromTimestamp.bind fun a => toTimestamp.map fun b => b.lt a).getD false)
    (invalid "EVIDENCE_RANGE_INVALID" "fromTimestamp must not be later than toTimestamp")
  return (fromTimestamp, toTimestamp)

namespace Backend

variable (b : Backend)

/-- A call of the adapter. -/
def mutate (m : Mutation) : Handling Json := .entry m (b.adapter m)

/-! ## The services -/

/-- `bytesOf`. -/
def bytesOf : Json → String
  | .string s => s
  | v => stringify v

/-- What the input says of an object, after it was stored. -/
def storedEntries (stored : StoredObject) : List (String × Json) :=
  [("storageUri", .string stored.uri), ("payloadHash", .string stored.hash),
    ("payloadSize", .number stored.size), ("hashAlgorithm", .string stored.hashAlgorithm),
    ("contentType", stored.contentType)]

def registerDataset (twinId : String) (input : Option Json) (accounting : Option AccountingContext) :
    Handling Json := do
  match ← member input "data" with
  | some data => do
    let datasetType ← conversion
      (textOf? (coalesce (input.bind (·.get? "datasetType")) (some (.string "dataset"))))
    let stored ← b.store {
      data := stringify data
      contentType := coalesce (input.bind (·.get? "contentType")) (some (.string "application/json"))
      fileName := (coalesce (input.bind (·.get? "fileName")) none).getD (.string "dataset.json")
      category := "dataset", twinId, metadata := [("datasetType", .string datasetType)] }
    b.mutate { method := .addDataset, twinId, accounting
               input := some (.object (assign ((spread input).delete "data") (storedEntries stored))) }
  | none => do
    let payload ← member input "payload"
    let payloadHash ← member input "payloadHash"
    let input ← if truthy? payload && !truthy? payloadHash then do
        let text ← conversion (textOf? payload)
        pure (some (.object (assign (spread input)
          [("payloadHash", .string ("sha256:" ++ sha256 text))])))
      else pure input
    b.mutate { method := .addDataset, twinId, input, accounting }

def registerModel (twinId : String) (input : Option Json) (accounting : Option AccountingContext) :
    Handling Json := do
  match ← member input "data" with
  | none => b.mutate { method := .addModel, twinId, input, accounting }
  | some data => do
    let modelType ← conversion
      (textOf? (coalesce (input.bind (·.get? "modelType")) (some (.string "model"))))
    let stored ← b.store {
      data := bytesOf data
      contentType := coalesce (input.bind (·.get? "contentType"))
        (some (.string "application/octet-stream"))
      fileName := (coalesce (input.bind (·.get? "fileName")) none).getD (.string "model.bin")
      category := "model", twinId, metadata := [("modelType", .string modelType)] }
    b.mutate { method := .addModel, twinId, accounting
               input := some (.object (assign ((spread input).delete "data") (storedEntries stored))) }

def registerBusinessEvent (twinId : String) (input : Option Json)
    (accounting : Option AccountingContext) : Handling Json := do
  match ← member input "payloadData" with
  | none => b.mutate { method := .emitTwinEvent, twinId, input, accounting }
  | some data => do
    let stored ← b.store {
      data := bytesOf data
      contentType := coalesce (input.bind (·.get? "contentType")) (some (.string "application/json"))
      fileName := (coalesce (input.bind (·.get? "fileName")) none).getD (.string "event-payload.json")
      category := "event-payload", twinId }
    b.mutate { method := .emitTwinEvent, twinId, accounting
               input := some (.object (assign ((spread input).delete "payloadData")
                 [("payloadRef", .string stored.uri), ("payloadHash", .string stored.hash),
                   ("payloadSize", .number stored.size), ("contentType", stored.contentType)])) }

/-- One item of `prepareEvidence`. -/
def prepareItem (twinId : String) (item : Json) : Except Thrown Json := do
  match ← member (some item) "data" with
  | none => return item
  | some data =>
    if truthy? (item.get? "uri") then return item
    else do
      let fileName ← match coalesce (item.get? "fileName") none with
        | some fileName => pure fileName
        | none => do
          let indicator ← conversion (stringOf (item.get? "indicator"))
          pure (.string (indicator ++ ".json"))
      let stored ← b.store {
        data := bytesOf data
        contentType := coalesce (item.get? "contentType") (some (.string "application/json"))
        fileName, category := "evidence", twinId
        metadata := ((item.get? "indicator").map fun v => ("indicator", v)).toList }
      return .object (assign ((spread (some item)).delete "data")
        [("uri", .string stored.uri), ("hash", .string stored.hash), ("size", .number stored.size),
          ("contentType", stored.contentType)])

def prepareEvidence (twinId : String) (evidence : Option Json) : Except Thrown (List Json) :=
  match coalesce evidence (some (.array [])) with
  | some (.array items) => items.mapM (b.prepareItem twinId)
  | _ => .error .type

/-- `createSnapshot`. -/
def createSnapshot (twinId : String) (selection : Option Number × Option Number)
    (accounting : Option AccountingContext) : Handling Json := do
  let e ← b.collect twinId selection.1 selection.2
  let stored ← b.store {
    data := e.text, contentType := some (.string "application/json")
    fileName := .string "export-dataset.json", category := "evidence", twinId
    metadata := [("datasetType", .string "on-demand-export"),
      ("format", .string "objectid.digital-twin-export-dataset.v1")] }
  let answer ← b.mutate { method := .addDataset, twinId, accounting, input := some (.object
    [("datasetType", .string "on-demand-export"),
      ("schemaUri", .string "objectid-schema://digital-twin/export-dataset/v1"),
      ("storageUri", .string stored.uri), ("payloadHash", .string stored.hash),
      ("payloadSize", .number stored.size), ("periodFrom", .number e.periodFrom),
      ("periodTo", .number e.periodTo), ("version", .string "1"),
      ("immutableMetadata", .string (stringify (.object
        [("format", .string "objectid.digital-twin-export-dataset.v1"),
          ("sourceWindowCount", .number e.sourceWindowCount),
          ("contentType", .string "application/json")])))]) }
  match ← b.datasetId answer stored.uri stored.hash with
  | none => unresolved
  | some datasetId => return .object [("twinId", .string twinId), ("datasetId", .string datasetId)]
where
  unresolved : Handling Json := liftM (m := Except Thrown) (.error (.app {
    code := "EVIDENCE_DATASET_RESULT_INVALID"
    message :=
      "Dataset registration succeeded but its on-chain object ID could not be resolved"
    status := 502, category := .OBJECTID }))

/-! ## The handlers -/

/-- `mutation(action, execute, status)`. -/
def mutation (action : TwinAction)
    (execute : String → Option Json → Option AccountingContext → Handling Json) (status : Nat)
    (r : Request) : Handling Response := do
  b.authorize r.id action
  let body ← execute r.id r.body r.accounting
  return { status, body }

/-- A mutation of the adapter, after a check of its input. -/
def checked (method : Method) (check : Option Json → Except Thrown (Option Json)) (id : String)
    (body : Option Json) (accounting : Option AccountingContext) : Handling Json := do
  let input ← check body
  b.mutate { method, twinId := id, input, accounting }

def assess (id : String) (body : Option Json) (accounting : Option AccountingContext) :
    Handling Json := do
  let given ← member body "evidence"
  let evidence ← b.prepareEvidence id given
  b.mutate { method := .createMaturityAssessment, twinId := id, accounting
             input := some (.object (assign (spread body) [("evidence", .array evidence)])) }

/-- `String(request.query.commit) === "true"`. -/
def commits (r : Request) : Except Thrown Bool := do
  let commit ← conversion (stringOf r.commit)
  return commit == "true"

/-- The evaluation of a request. -/
def evaluation (r : Request) : Except Thrown MaturityResult := do
  let profile ← member r.body "profile"
  let profile ← conversion (stringOf profile)
  let given ← member r.body "evidence"
  let evidence ← b.prepareEvidence r.id given
  b.evaluate profile evidence r.id

def evaluateRoute (r : Request) : Handling Response := do
  let result ← b.evaluation r
  if ← commits r then do
    b.authorize r.id .CreateMaturityAssessment
    let committed ← b.mutate {
      method := .createMaturityAssessment, twinId := r.id, accounting := none
      input := some (.object [
        ("assessmentModel", .string (result.profileId ++ "@" ++ result.profileVersion)),
        ("maturityLevel", .number result.level),
        ("immutableMetadata", .string (stringify (.object [
          ("score", .number result.score), ("profileId", .string result.profileId),
          ("profileVersion", .string result.profileVersion),
          ("engineVersion", .string result.engineVersion),
          ("inputIndicators", result.inputIndicators), ("evidenceHashes", result.evidenceHashes),
          ("evaluationHash", .string result.evaluationHash)]))),
        ("indicators", result.indicators)]) }
    return { status := 200, body := .object (result.entries ++ [("committed", committed)]) }
  else return { status := 200, body := .object result.entries }

def dataAccess (r : Request) : Handling Response := do
  let id ← twinIdOf r.id
  let input ← b.prepareUpdate id r.callerDid r.body
  let answer ← b.mutate { method := .updateTwin, twinId := id, accounting := r.accounting
                          input := some (.object input) }
  let body ← b.commitUpdate id answer
  return { status := 200, body }

def deleteRoute (r : Request) : Handling Response := do
  let twinId := toLowerCase r.id
  throwIf (r.confirmation.map toLowerCase != some twinId)
    (invalid "OBJECTID_DELETE_CONFIRMATION_REQUIRED" "Confirm deletion with the exact Twin ID")
  throwIf (!b.deletesTwins) (unavailable "OBJECTID_DELETE_UNAVAILABLE" "Twin deletion is unavailable")
  b.authorize twinId .DeleteTwin
  let body ← b.mutate { method := .deleteTwin, twinId, input := none, accounting := r.accounting }
  match r.accounting with
  | none => return { status := 200, body }
  | some accounting => do
    if ← b.isDynamic accounting.ownerDid then b.revokeTwinCredentials accounting.ownerDid twinId
    return { status := 200, body }

def deleteEventsRoute (r : Request) : Handling Response := do
  let twinId := toLowerCase r.id
  throwIf (r.confirmation.map toLowerCase != some twinId)
    (invalid "OBJECTID_DELETE_CONFIRMATION_REQUIRED"
      "Confirm bulk event destruction with the exact Twin ID")
  b.authorize twinId .DeleteTwin
  throwIf (!b.deletesEvents) (unavailable "OBJECTID_CLEANUP_UNSUPPORTED" "Bulk cleanup unavailable")
  let body ← b.mutate { method := .deleteTwinEvents, twinId, input := none, accounting := r.accounting }
  return { status := 200, body }

def eventsRoute (r : Request) : Handling Response := do
  let action := if ← isMaintenanceEvent r.body then TwinAction.EmitMaintenanceEvent
    else .EmitBusinessEvent
  b.authorize r.id action
  let body ← b.registerBusinessEvent r.id r.body r.accounting
  return { status := 202, body }

def evidenceBundlesRoute (r : Request) : Handling Response := do
  b.authorize r.id .AddDataset
  let selection ← evidenceSelection (coalesce r.body (some (.object [])))
  let body ← b.createSnapshot r.id selection r.accounting
  return { status := 201, body }

/-- The handler of a route. -/
def handler (r : Request) : Route → Handling Response
  | .dataAccess => b.dataAccess r
  | .patch => b.mutation .ModifyMetadata (b.checked .updateTwin .ok) 200 r
  | .delete => b.deleteRoute r
  | .deleteEvents => b.deleteEventsRoute r
  | .states => b.mutation .PublishState (b.checked .publishState .ok) 202 r
  | .datasets => b.mutation .AddDataset b.registerDataset 202 r
  | .models => b.mutation .AddModel b.registerModel 202 r
  | .interfaces => b.mutation .AddInterface (b.checked .addInterface validateInterfaceInput) 202 r
  | .compositions =>
    b.mutation .ModifyComposition (b.checked .createComposition validateCompositionInput) 202 r
  | .identifierMappings =>
    b.mutation .ModifyIdentifierMapping
      (b.checked .addIdentifierMapping validateIdentifierMappingInput) 202 r
  | .assessments => b.mutation .CreateMaturityAssessment b.assess 202 r
  | .evaluate => b.evaluateRoute r
  | .events => b.eventsRoute r
  | .evidenceBundles => b.evidenceBundlesRoute r

def handle (route : Route) (r : Request) : Handling Response := do
  b.entry route r
  b.handler r route

end Backend

end

end Api
