-- SUMMARY: The snapshot of a Twin's retained telemetry: which stored objects are selected, and its period.
import TwinServer.Evidence.Export
import TwinServer.Storage.Providers

/-!
# Snapshots of telemetry

`createSnapshot` of `src/evidence/service.ts`. Every dataset object of the Twin is read, and those whose
period overlaps the selection become the windows of one dataset, which is stored and registered. The
period of an object is what its content says, and where that is no timestamp the time of its storing.
-/

open Js Js.Json Thread Storage

namespace Evidence

/-! ## The dataset -/

structure Selection where
  fromTimestamp : Option Number := none
  toTimestamp : Option Number := none

structure ManagedStoredObject where
  uri : String
  twinId : String
  category : String
  createdAt : String

structure SnapshotWindow where
  sourceUri : String
  retainedAt : String
  periodFrom : Nat
  periodTo : Nat
  payload : Json

/-- The dataset that is stored. -/
structure ExportDataset where
  twinId : String
  createdAt : String
  selection : Selection
  periodFrom : Nat
  periodTo : Nat
  windows : List SnapshotWindow

/-- The answer to the request. -/
structure Snapshot where
  twinId : String
  datasetId : String
  transactionDigest : Option String
  periodFrom : Nat
  periodTo : Nat
  sourceWindowCount : Nat
  payloadHash : String
  byteLength : Nat

/-- What is kept for the Twins, and the clock at the reading of each object. -/
structure Sources where
  managed : List ManagedStoredObject
  read : String → Option Bytes
  now : String → Nat

/-- What `addDataset` of the ledger is given. -/
structure DatasetInput where
  datasetType : String
  schemaUri : String
  storageUri : String
  payloadHash : String
  payloadSize : Nat
  periodFrom : Nat
  periodTo : Nat
  version : String
  immutableMetadata : Json

/-- What the storage and the ledger answer; `children` to each attempt to find the dataset. -/
structure Registry where
  store : StoreInput → Option StoredObject
  addDataset : DatasetInput → Option Json
  children : List (List Json)

def sourceInvalid (uri : String) : AppError :=
  { code := "EVIDENCE_SOURCE_INVALID", message := "Stored telemetry object '" ++ uri ++ "' is not valid JSON"
    status := 409, category := .CONNECTOR }

def sourceTooLarge : AppError :=
  { code := "EVIDENCE_SOURCE_TOO_LARGE"
    message := "Selected telemetry exceeds " ++ MAX_DATASET_BYTES.repr ++ " bytes", status := 413
    category := .VALIDATION }

def sourceEmpty : AppError :=
  { code := "EVIDENCE_SOURCE_EMPTY"
    message := "No retained telemetry is available for the selected interval", status := 404
    category := .CONNECTOR }

def datasetResultInvalid : AppError :=
  { code := "EVIDENCE_DATASET_RESULT_INVALID"
    message := "Dataset registration succeeded but its on-chain object ID could not be resolved"
    status := 502, category := .OBJECTID }

/-- What is awaited answers or rejects. -/
def awaited {α : Type} : Option α → Except Thrown α
  | some a => .ok a
  | none => .error .rejection

/-- `Buffer.from(text)`. -/
def utf8 (text : String) : Bytes := text.toUTF8.data.toList

def overlaps (periodFrom periodTo : Number) (selection : Selection) : Bool :=
  (selection.fromTimestamp.elim true fun t => t.le periodTo) &&
    selection.toTimestamp.elim true fun t => periodFrom.le t

def Selection.json (s : Selection) : Json :=
  .object [("fromTimestamp", s.fromTimestamp.elim .null .number), ("toTimestamp", s.toTimestamp.elim .null .number)]

def SnapshotWindow.json (w : SnapshotWindow) : Json :=
  .object [("sourceUri", .string w.sourceUri), ("retainedAt", .string w.retainedAt),
    ("periodFrom", .number w.periodFrom), ("periodTo", .number w.periodTo), ("payload", w.payload)]

def ExportDataset.json (d : ExportDataset) : Json :=
  .object [("format", .string DATASET_FORMAT), ("twinId", .string d.twinId), ("createdAt", .string d.createdAt),
    ("selection", d.selection.json), ("periodFrom", .number d.periodFrom), ("periodTo", .number d.periodTo),
    ("sourceWindowCount", .number d.windows.length), ("windows", .array (d.windows.map SnapshotWindow.json))]

/-- The sum of the byte lengths is checked as the windows are collected. -/
@[local grind]
def collect (sourceBytes : Nat) : List (Option (Nat × SnapshotWindow)) → Except Thrown (List SnapshotWindow)
  | [] => .ok []
  | none :: candidates => collect sourceBytes candidates
  | some (byteLength, window) :: candidates => do
    throwIf (sourceBytes + byteLength > MAX_DATASET_BYTES) sourceTooLarge
    let windows ← collect (sourceBytes + byteLength) candidates
    return window :: windows

section
variable [Services]

/-- `left.periodFrom - right.periodFrom || left.sourceUri.localeCompare(right.sourceUri)`, not positive. -/
def SnapshotWindow.before (left right : SnapshotWindow) : Bool :=
  if left.periodFrom ≠ right.periodFrom then left.periodFrom < right.periodFrom
  else localeCompare left.sourceUri right.sourceUri ≤ 0

def safeTimestamp (value : Option Json) (fallback : Nat) : Except Thrown Nat := do
  let number ← conversion (toNumber? value)
  return number.safeNat?.getD fallback

/-- The dataset objects of a Twin. -/
def isSource (twinId : String) (item : ManagedStoredObject) : Bool :=
  toLowerCase item.twinId == toLowerCase twinId && ["dataset", "datasets"].contains item.category

variable (parseDate : String → Number) (text : Bytes → String) (parse : String → Option Json)

/-- The time that stands in for a timestamp. -/
def fallbackOf (s : Sources) (item : ManagedStoredObject) : Nat :=
  (parseDate item.createdAt).safeNat?.getD (s.now item.uri)

/-- What is read of an object: its length, and the window it would be. -/
def readSource (s : Sources) (item : ManagedStoredObject) : Except Thrown (Nat × SnapshotWindow) := do
  let bytes ← awaited (s.read item.uri)
  match parse (text bytes) with
  | none => .error (.app (sourceInvalid item.uri))
  | some payload =>
    let periodFrom ← safeTimestamp (field (some payload) "fromTimestamp") (fallbackOf parseDate s item)
    let periodTo ← safeTimestamp (field (some payload) "toTimestamp") periodFrom
    return (bytes.length, ⟨item.uri, item.createdAt, periodFrom, periodTo, payload⟩)

def candidate (s : Sources) (selection : Selection) (item : ManagedStoredObject) :
    Except Thrown (Option (Nat × SnapshotWindow)) := do
  let source ← readSource parseDate text parse s item
  return if overlaps source.2.periodFrom source.2.periodTo selection then some source else none

/-- `createSnapshot` up to the dataset that is to be stored. -/
def exportDataset (s : Sources) (twinId createdAt : String) (selection : Selection) :
    Except Thrown ExportDataset := do
  let candidates ← (s.managed.filter (isSource twinId)).mapM (candidate parseDate text parse s selection)
  let windows ← collect 0 candidates
  match windows.mergeSort SnapshotWindow.before with
  | [] => .error (.app sourceEmpty)
  | w :: ws => .ok {
      twinId, createdAt, selection, windows := w :: ws
      periodFrom := ws.foldl (fun t w => min t w.periodFrom) w.periodFrom
      periodTo := ws.foldl (fun t w => max t w.periodTo) w.periodTo }

/-- The type of the dataset's ledger object ends so. -/
def isDatasetType (s : String) : Bool := "::oid_twin::OIDTwinDataset".toList.isSuffixOf s.toList

/-- `find` over the changes of a mutation, for the dataset that it created. -/
def createdDataset : List Json → Except Thrown (Option Json)
  | [] => .ok none
  | change :: changes => do
    if asString? (field (some change) "type") = some "created" then
      let objectType ← conversion (textOf? (field (some change) "objectType"))
      if isDatasetType objectType then return some change
    createdDataset changes

def datasetIdFromMutation (value : Json) : Except Thrown (Option String) := do
  let direct ← conversion (textOf? (coalesce (field (some value) "datasetId") (field (some value) "id")))
  if direct ≠ "" then return some direct
  let created ← match field (some value) "objectChanges" with
    | none | some .null => .ok none
    | some (.array changes) => createdDataset changes
    | some _ => .error .type
  if truthy? (field created "objectId") then
    return some (← conversion (textOf? (field created "objectId")))
  return none

def resolveDatasetId (storageUri payloadHash : String) : List (List Json) → Except Thrown (Option String)
  | [] => .ok none
  | children :: attempts => do
    let datasets ← children.mapM datasetOf
    match datasets.find? fun d => d.storageUri == storageUri && normalizeHash d.payloadHash == normalizeHash payloadHash with
    | some dataset => return some dataset.objectId
    | none => resolveDatasetId storageUri payloadHash attempts

/-- `datasetIdFromMutation(mutation) ?? await this.resolveDatasetId(…)`. -/
def registeredId (r : Registry) (stored : StoredObject) (mutation : Json) : Except Thrown (Option String) := do
  match ← datasetIdFromMutation mutation with
  | some datasetId => return some datasetId
  | none => resolveDatasetId stored.uri stored.hash (r.children.take 5)

/-- The dataset is stored and registered. -/
def registerDataset (r : Registry) (d : ExportDataset) : Except Thrown Snapshot := do
  let bytes := utf8 (stringify d.json)
  throwIf (bytes.length > MAX_DATASET_BYTES) datasetTooLarge
  let stored ← awaited (r.store {
    data := bytes, contentType := some "application/json", fileName := some "export-dataset.json"
    category := some "evidence", twinId := some d.twinId })
  let mutation ← awaited (r.addDataset {
    datasetType := "on-demand-export", schemaUri := "objectid-schema://digital-twin/export-dataset/v1"
    storageUri := stored.uri, payloadHash := stored.hash, payloadSize := stored.size
    periodFrom := d.periodFrom, periodTo := d.periodTo, version := "1"
    immutableMetadata := .object [("format", .string DATASET_FORMAT),
      ("sourceWindowCount", .number d.windows.length), ("contentType", .string "application/json")] })
  let datasetId ← registeredId r stored mutation
  match datasetId.filter (· ≠ "") with
  | none => .error (.app datasetResultInvalid)
  | some datasetId =>
    let transactionDigest ← conversion (textOf? (field (some mutation) "digest"))
    return {
      twinId := d.twinId, datasetId
      transactionDigest := some transactionDigest |>.filter (· ≠ "")
      periodFrom := d.periodFrom, periodTo := d.periodTo, sourceWindowCount := d.windows.length
      payloadHash := normalizeHash stored.hash, byteLength := bytes.length }

/-- `createSnapshot`, with the dataset that is stored beside the answer. -/
def createSnapshot (s : Sources) (r : Registry) (twinId createdAt : String) (selection : Selection) :
    Except Thrown (ExportDataset × Snapshot) := do
  let dataset ← exportDataset parseDate text parse s twinId createdAt selection
  let snapshot ← registerDataset r dataset
  return (dataset, snapshot)

end

end Evidence
