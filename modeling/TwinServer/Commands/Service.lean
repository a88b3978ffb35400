-- SUMMARY: Command records, the catalog, and what a command request and a result message are turned into.
import TwinServer.Base.Errors

/-!
# Commands

The parts of `src/commands/service.ts` that run between two suspensions: the checks
of a command request, the record that is stored for it, and the reading of a result
message. Points in time are milliseconds. The schema validator and the parsing of
dates belong to libraries and are parameters.
-/

open Js Js.Json

namespace Commands

/-! ## Records -/

inductive CommandStatus where
  | authorized | dispatched | accepted | executing | succeeded | failed | rejected | expired
  | cancelled
  deriving DecidableEq

/-- `finalStatuses`. -/
def CommandStatus.final : CommandStatus → Bool
  | .succeeded | .failed | .rejected | .expired | .cancelled => true
  | _ => false

/-- The device has answered, and not finally. -/
def CommandStatus.underway : CommandStatus → Bool
  | .accepted | .executing => true
  | _ => false

/-- The statuses a result message may carry. -/
def resultStatuses : List (String × CommandStatus) :=
  [("accepted", .accepted), ("executing", .executing), ("succeeded", .succeeded),
   ("failed", .failed), ("rejected", .rejected), ("cancelled", .cancelled)]

def CommandStatus.ofResult (s : String) : Option CommandStatus := Record.get? resultStatuses s

inductive RiskClass where
  | informational | operational | safetyRelevant
  deriving DecidableEq

structure CommandDefinition where
  name : String
  version : String
  riskClass : RiskClass
  timeoutSeconds : Int
  parametersSchema : Json

structure CommandCatalog where
  twinId : String
  interfaceId : String
  commands : List CommandDefinition

structure CommandConfig where
  enabled : Bool
  requestTopicTemplate : String
  resultTopic : String
  catalogs : List CommandCatalog

/-- The command a record is about. -/
structure Command where
  name : String
  version : String
  parameters : Json

structure Transport where
  requestTopic : String
  resultTopic : String

structure CommandRecord where
  commandId : String
  twinId : String
  interfaceId : String
  command : Command
  requestedBy : String
  requestedAt : Int
  expiresAt : Int
  proof : Option Json
  idempotencyKey : String
  correlationId : Option String
  status : CommandStatus
  statusUpdatedAt : Int
  transport : Transport
  result : Option Json := none
  error : Option Json := none

/-- Two records of the same command: its Twin, its caller and the command itself. -/
def CommandRecord.SameCommand (r r' : CommandRecord) : Prop :=
  r.commandId = r'.commandId ∧ r.twinId = r'.twinId ∧ r.requestedBy = r'.requestedBy ∧
    r.command = r'.command

theorem CommandRecord.SameCommand.refl (r : CommandRecord) : r.SameCommand r :=
  ⟨rfl, rfl, rfl, rfl⟩

theorem CommandRecord.SameCommand.symm {a b : CommandRecord} (h : a.SameCommand b) :
    b.SameCommand a :=
  ⟨h.1.symm, h.2.1.symm, h.2.2.1.symm, h.2.2.2.symm⟩

theorem CommandRecord.SameCommand.trans {a b c : CommandRecord} (h : a.SameCommand b)
    (h' : b.SameCommand c) : a.SameCommand c :=
  ⟨h.1.trans h'.1, h.2.1.trans h'.2.1, h.2.2.1.trans h'.2.2.1, h.2.2.2.trans h'.2.2.2⟩

/-! ## Requests -/

section
variable [Runtime]

@[local grind] def catalog (config : CommandConfig) (twinId : String) : Except Thrown CommandCatalog := do
  throwIf (!config.enabled)
    { code := "COMMANDS_DISABLED", message := "Command execution is disabled", status := 404,
      category := .CONNECTOR }
  let exact := config.catalogs.find? fun item => toLowerCase item.twinId == toLowerCase twinId
  let fallback := config.catalogs.find? fun item => item.twinId == "*"
  match exact, fallback with
  | some item, _ => return item
  | none, some item => return { item with twinId }
  | none, none =>
    return { twinId, interfaceId := "urn:objectid:interface:commands:v1", commands := [] }

/-- The expression `/^urn:uuid:[0-9a-f-]{36}$/i`. -/
def isUuidUrn (s : String) : Bool :=
  let cs := (asciiLower s).toList
  "urn:uuid:".toList.isPrefixOf cs && (cs.drop 9).length == 36 &&
    (cs.drop 9).all fun c => isLowerHex c || c == '-'

def topicFromTemplate (template twinId commandId : String) : String :=
  replaceAll (replaceAll template "{twinId}" twinId) "{commandId}"
    (stripPrefix "urn:uuid:" commandId)

/-- The replacement of the signs `+` of a filter by the given values, one after the
other. -/
def fillWildcards : List String → List Char → List Char
  | _, [] => []
  | value :: values, '+' :: cs => value.toList ++ fillWildcards values cs
  | values, c :: cs => c :: fillWildcards values cs

def concreteResultTopic (filter twinId commandId : String) : String :=
  .ofList (fillWildcards [twinId, stripPrefix "urn:uuid:" commandId] filter.toList)

/-- What the service needs of libraries: the schema validator, which yields its
errors, and the parsing of a date, which yields nothing for an invalid one. -/
structure Library where
  validate : (schema parameters : Json) → Except Thrown (Option Json)
  parseDate : Json → Option Int

/-- The definition a request asks for. -/
def requestedDefinition (catalog : CommandCatalog) (name version : String) :
    Except Thrown CommandDefinition := do
  match catalog.commands.find? fun item => item.name == name && item.version == version with
  | none => throw (.app
      { code := "COMMAND_NOT_ALLOWED",
        message := "The command is not present in this Twin command catalog", status := 422,
        category := .VALIDATION, details := [("name", .string name), ("version", .string version)] })
  | some definition =>
    throwIf (definition.riskClass == .safetyRelevant)
      { code := "SAFETY_COMMAND_REJECTED",
        message := "Safety functions cannot be executed through the general Digital Twin command channel",
        status := 403, category := .AUTHORIZATION }
    return definition

/-- The parameters of a request against the schema of its definition. -/
def checkParameters (lib : Library) (definition : CommandDefinition) (parameters : Json) :
    Except Thrown Unit := do
  match ← lib.validate definition.parametersSchema parameters with
  | some errors => throw (.app
      { code := "COMMAND_PARAMETERS_INVALID",
        message := "Command parameters do not match the catalog schema", status := 422,
        category := .SCHEMA, details := [("errors", errors)] })
  | none => return ()

/-- The expiry a request asks for, or the latest one. -/
def requestedExpiry (lib : Library) (input : Json) (now latest : Int) : Except Thrown Int :=
  let expired : AppError :=
    { code := "COMMAND_EXPIRED", message := "Command expiry must be in the future",
      status := 422, category := .VALIDATION }
  match ((input.get? "expiresAt").filter truthy).elim (some latest) lib.parseDate with
  | none => .error (.app expired)
  | some expiresAt => do
    throwIf (expiresAt ≤ now) expired
    return expiresAt

/-- The id a request asks for, or a fresh one. -/
def requestedId (input : Json) (uuid : String) : Except Thrown String := do
  let commandId ← conversion
    (textOf? (coalesce (input.get? "commandId") (some (.string ("urn:uuid:" ++ uuid)))))
  throwIf (!isUuidUrn commandId)
    { code := "COMMAND_ID_INVALID", message := "commandId must be a UUID URN", status := 422,
      category := .VALIDATION }
  return commandId

def requestedCorrelation (input : Json) : Except Thrown (Option String) :=
  match (input.get? "correlationId").filter truthy with
  | some v => conversion (v.toString?.map some)
  | none => .ok none

/-- `create` up to its first suspension: the checks of a request, and the record that
will be stored when its id is free. -/
def prepare (config : CommandConfig) (lib : Library) (writable : Bool)
    (twinId callerDid : String) (input : Json) (now : Int) (uuid : String) :
    Except Thrown CommandRecord := do
  throwIf (callerDid == "")
    { code := "COMMAND_CALLER_REQUIRED", message := "The authenticated caller DID is required",
      status := 401, category := .AUTHORIZATION }
  let catalog ← catalog config twinId
  let command := input.get? "command"
  let name ← conversion (textOf? (command.bind (·.get? "name")))
  let version ← conversion
    (textOf? (coalesce (command.bind (·.get? "version")) (some (.string "1.0"))))
  let definition ← requestedDefinition catalog name version
  let parameters := (coalesce (command.bind (·.get? "parameters")) none).getD (.object [])
  checkParameters lib definition parameters
  throwIf (!writable)
    { code := "COMMAND_TRANSPORT_UNAVAILABLE", message := "MQTT command transport is unavailable",
      status := 503, category := .CONNECTOR }
  let latest := now + definition.timeoutSeconds * 1000
  let expiresAt ← requestedExpiry lib input now latest
  let commandId ← requestedId input uuid
  throwIf (latest < expiresAt)
    { code := "COMMAND_EXPIRY_TOO_LONG", message := "Command expiry exceeds the catalog timeout",
      status := 422, category := .VALIDATION }
  let idempotencyKey ← conversion
    (textOf? (coalesce (input.get? "idempotencyKey") (some (.string commandId))))
  let correlationId ← requestedCorrelation input
  return { commandId, twinId, interfaceId := catalog.interfaceId,
           command := { name, version, parameters }, requestedBy := callerDid,
           requestedAt := now, expiresAt, proof := input.get? "proof", idempotencyKey,
           correlationId, status := .authorized, statusUpdatedAt := now,
           transport :=
             { requestTopic := topicFromTemplate config.requestTopicTemplate twinId commandId,
               resultTopic := concreteResultTopic config.resultTopic twinId commandId } }

/-! ## Result messages -/

/-- What a result message says of a command. -/
structure Result where
  twinId : String
  commandId : String
  status : CommandStatus
  result : Option Json
  error : Option Json

/-- The reading of a message by `acceptResult`; `none` is a message that is passed
over. -/
def parseResult (message : Json) : Except Thrown (Option Result) := do
  let value := (coalesce (message.get? "value") (some message)).getD .null
  let commandId ← conversion (textOf? (value.get? "commandId"))
  let twinId ← conversion (textOf? (value.get? "twinId"))
  let status ← conversion (textOf? (value.get? "status"))
  match CommandStatus.ofResult status with
  | some status =>
    if commandId = "" || twinId = "" then return none
    return some { twinId, commandId, status, result := value.get? "result",
                  error := value.get? "error" }
  | none => return none

end

/-- The record a result message turns a record into. -/
def CommandRecord.accept (r : CommandRecord) (m : Result) (now : Int) : CommandRecord :=
  { r with status := m.status, statusUpdatedAt := now, result := m.result, error := m.error }

/-- The record `get` turns an overdue record into. -/
def CommandRecord.expire (r : CommandRecord) (now : Int) : CommandRecord :=
  { r with status := .expired, statusUpdatedAt := now }

/-- The record of a request that was handed to the broker. -/
def CommandRecord.dispatch (r : CommandRecord) (now : Int) : CommandRecord :=
  { r with status := .dispatched, statusUpdatedAt := now }

/-! ## What requests and messages yield -/

theorem CommandStatus.ofResult_ne {s : String} {status : CommandStatus}
    (h : ofResult s = some status) :
    status ≠ .authorized ∧ status ≠ .dispatched ∧ status ≠ .expired := by
  have hall : ∀ e ∈ resultStatuses, e.2 ≠ .authorized ∧ e.2 ≠ .dispatched ∧ e.2 ≠ .expired := by
    decide
  exact hall (s, status) (Record.mem_of_get? h)

section
variable [Runtime] {config : CommandConfig} {lib : Library}

/-- A prepared record is an authorized command of the Twin and the caller, with a
result topic of its own. -/
theorem prepare_eq_ok {writable : Bool} {twinId callerDid : String} {input : Json} {now : Int}
    {uuid : String} {r : CommandRecord}
    (h : prepare config lib writable twinId callerDid input now uuid = .ok r) :
    r.status = .authorized ∧ r.twinId = twinId ∧ r.requestedBy = callerDid ∧
      isUuidUrn r.commandId ∧
      r.transport.resultTopic = concreteResultTopic config.resultTopic r.twinId r.commandId := by
  simp only [prepare, Except.bind_eq_ok, Except.pure_eq_ok, throwIf_eq_ok] at h
  obtain ⟨-, -, _, -, _, -, _, -, _, -, -, -, -, -, _, -, commandId, hid, -, -, _, -, _, -, rfl⟩ := h
  have hurn : isUuidUrn commandId := by
    simp only [requestedId, Except.bind_eq_ok, Except.pure_eq_ok, throwIf_eq_ok] at hid
    obtain ⟨_, -, -, hurn, rfl⟩ := hid
    simpa using hurn
  exact ⟨rfl, rfl, rfl, hurn, rfl⟩

end

end Commands
