-- SUMMARY: The validation of an evidence bundle: the manifest, the dataset and the event it is compared with, the checks and their report.
import TwinServer.Sharing.Service
import TwinServer.Thread.Events

/-!
# Validation of evidence

`validateBundle` of `src/evidence/service.ts` compares a submitted file and its manifest with a
dataset and an event of the chain. Of the report only the texts that no check fills are left out.
-/

open Js Js.Json Thread

namespace Evidence

def BUNDLE_FORMAT : String := "objectid.digital-twin-evidence-bundle.v2"

def DATASET_EVENT : Int := 70

/-! ## Data -/

/-- `objectid.network` and `objectid.packageId ?? ""`. -/
structure EvidenceConfig where
  network : String
  packageId : String

/-- A manifest that `validManifest` accepts; its entry stays untyped. -/
structure EvidenceManifest where
  twinId : String
  packageId : String
  network : String
  snapshotDatasetId : String
  dataset : Json

structure Dataset where
  objectId : String
  datasetType : String
  storageUri : String
  payloadHash : String
  periodFrom : Number
  periodTo : Number
  createdAt : Number

structure ContextChecks where
  format : Bool
  twinId : Bool
  network : Bool
  packageId : Bool
  snapshotDatasetId : Bool

structure Checks where
  datasetOnChain : Bool
  eventOnChain : Bool
  manifestMatchesDataset : Bool
  manifestMetadataMatches : Bool
  eventMatchesDataset : Bool
  filePresent : Bool
  filePathMatches : Bool
  fileMatchesManifest : Bool
  fileSizeMatches : Bool

structure AssessmentCheck where
  id : String
  title : String
  passed : Bool
  expected : String
  observed : String

structure Validation where
  twinId : String
  network : String
  snapshotDatasetId : String
  valid : Bool
  contextChecks : ContextChecks
  checks : Checks
  assessmentChecks : List AssessmentCheck

/-- `Object.values(contextChecks).every(Boolean)`. -/
def ContextChecks.every (c : ContextChecks) : Bool :=
  c.format && c.twinId && c.network && c.packageId && c.snapshotDatasetId

/-- `Object.values(checks).every(Boolean)`. -/
def Checks.every (c : Checks) : Bool :=
  c.datasetOnChain && c.eventOnChain && c.manifestMatchesDataset && c.manifestMetadataMatches &&
    c.eventMatchesDataset && c.filePresent && c.filePathMatches && c.fileMatchesManifest &&
    c.fileSizeMatches

/-- The property of a value that may be missing. -/
def field (v : Option Json) (k : String) : Option Json := v.bind (·.get? k)

/-- The expression `/^data\/[a-z0-9_.-]+$/i`. -/
def isDataPath (s : String) : Bool :=
  let rest := s.toList.drop 5
  (s.toList.take 5).map Char.toLower == "data/".toList && !rest.isEmpty &&
    rest.all fun c => isWord c || c == '.' || c == '-'

section
variable [Runtime]

/-- `normalizeHash`: without white space, capital letters, and a scheme before the digits. -/
def normalizeHash (value : String) : String :=
  let value := toLowerCase (trim value)
  let value := if startsWith value "sha-256:" then stripPrefix "sha-256:" value
    else stripPrefix "sha256:" value
  stripPrefix "0x" value

/-! ## What is compared -/

/-- The manifest, when `validManifest` holds of it. -/
def manifestOf (value : Option Json) : Except Thrown (Option EvidenceManifest) :=
  match asString? (field value "twinId"), asString? (field value "packageId"),
    asString? (field value "network"), asString? (field value "snapshotDatasetId"),
    field value "dataset" with
  | some twinId, some packageId, some network, some snapshotDatasetId, some dataset =>
    if asString? (field value "format") = some BUNDLE_FORMAT ∧ dataset.truthy ∧
        asString? (dataset.get? "datasetObjectId") = some snapshotDatasetId then do
      let path ← conversion (textOf? (dataset.get? "path"))
      if !isDataPath path then return none
      let byteLength ← conversion (toNumber? (dataset.get? "byteLength"))
      if byteLength.safeNat?.isNone then return none
      return some { twinId, packageId, network, snapshotDatasetId, dataset }
    else .ok none
  | _, _, _, _, _ => .ok none

/-- `datasetOf`. -/
def datasetOf (raw : Json) : Except Thrown Dataset := do
  let fields := Sharing.fieldsOf raw
  let either (a b : String) (fallback : Json) :=
    coalesce (coalesce (fields.get? a) (fields.get? b)) (some fallback)
  let objectId ← conversion (textOf? (coalesce
    (coalesce (field (raw.get? "data") "objectId") (raw.get? "objectId")) (raw.get? "id")))
  let datasetType ← conversion (textOf? (either "dataset_type" "datasetType" (.string "dataset")))
  let storageUri ← conversion (textOf? (either "storage_uri" "storageUri" (.string "")))
  let payloadHash ← conversion (textOf? (either "payload_hash" "payloadHash" (.string "")))
  let periodFrom ← conversion (toNumber? (either "period_from" "periodFrom" (.number 0)))
  let periodTo ← conversion (toNumber? (either "period_to" "periodTo" (.number 0)))
  let createdAt ← conversion (toNumber? (either "created_at" "createdAt" (.number 0)))
  return { objectId, datasetType, storageUri, payloadHash, periodFrom, periodTo, createdAt }

/-- The object ids are compared without regard to case. -/
def sameId (a b : String) : Bool := toLowerCase a == toLowerCase b

/-- The entry's property is the value. -/
def entryIs (entry : Json) (k : String) (v : Json) : Bool := (entry.get? k).any (·.strictEq v)

/-- `reportValue`. -/
def reportValue : Option Json → Except Thrown String
  | none | some .null | some (.string "") => .ok "unavailable"
  | some v => conversion v.toString?

/-- The checks of the assessment that tell of the chain and of the file. -/
def buildAssessmentChecks (config : EvidenceConfig) (twinId : String) (manifest : EvidenceManifest)
    (file : Option Json) (fileHash : String) (dataset : Option Dataset) (event : Option TwinEvent)
    (expected : String) (contextChecks : ContextChecks) (checks : Checks) :
    Except Thrown (List AssessmentCheck) := do
  let entry := manifest.dataset
  let check (id title : String) (passed : Bool) (expectedValue observedValue : Option Json) :
      Except Thrown AssessmentCheck := do
    let expected ← reportValue expectedValue
    let observed ← reportValue observedValue
    return { id, title, passed, expected, observed }
  let text (s : String) : Option Json := some (.string s)
  let storageUri ← conversion (Sharing.stringOf (entry.get? "storageUri"))
  let periodFrom ← conversion (Sharing.stringOf (entry.get? "periodFrom"))
  let periodTo ← conversion (Sharing.stringOf (entry.get? "periodTo"))
  let filePath := if truthy? (field file "path") then field file "path" else text "missing"
  [check "CTX-01" "Supported bundle format" contextChecks.format
      (text BUNDLE_FORMAT) (text BUNDLE_FORMAT),
    check "CTX-02" "Selected Digital Twin identity" contextChecks.twinId
      (text twinId) (text manifest.twinId),
    check "CTX-03" "IOTA network binding" contextChecks.network
      (text config.network) (text manifest.network),
    check "CTX-04" "Move package binding" contextChecks.packageId
      (text config.packageId) (text manifest.packageId),
    check "CTX-05" "Snapshot Dataset identity" contextChecks.snapshotDatasetId
      (text manifest.snapshotDatasetId) (entry.get? "datasetObjectId"),
    check "CHAIN-01" "OIDTwinDataset exists on IOTA" checks.datasetOnChain
      (text manifest.snapshotDatasetId) (text ((dataset.map Dataset.objectId).getD "not found")),
    check "CHAIN-02" "Digital Thread anchor exists" checks.eventOnChain
      (text ("event type " ++ numberToString (.finite DATASET_EVENT) ++ " referencing " ++
        manifest.snapshotDatasetId))
      (text (event.elim "not found" fun e =>
        e.eventId ++ " / type " ++ numberToString (.finite e.eventType))),
    check "CHAIN-03" "Dataset payload hash matches manifest" checks.manifestMatchesDataset
      (text expected) (text (dataset.elim "unavailable" fun d => normalizeHash d.payloadHash)),
    check "CHAIN-04" "Dataset metadata matches manifest" checks.manifestMetadataMatches
      (text (storageUri ++ " / " ++ periodFrom ++ "-" ++ periodTo))
      (text (dataset.elim "unavailable" fun d => d.storageUri ++ " / " ++
        numberToString d.periodFrom ++ "-" ++ numberToString d.periodTo)),
    check "THREAD-01" "Event hash matches Dataset hash" checks.eventMatchesDataset
      (text (dataset.elim expected fun d => normalizeHash d.payloadHash))
      (text (event.elim "unavailable" fun e => normalizeHash e.payloadHash)),
    check "FILE-01" "Dataset file is present" checks.filePresent (entry.get? "path") filePath,
    check "FILE-02" "Dataset file path matches manifest" checks.filePathMatches
      (entry.get? "path") filePath,
    check "FILE-03" "Dataset SHA-256 matches manifest" checks.fileMatchesManifest
      (text expected) (text fileHash),
    check "FILE-04" "Dataset byte length matches manifest" checks.fileSizeMatches
      (entry.get? "byteLength") (field file "byteLength")].mapM id

/-! ## The verdict -/

/-- The dataset a manifest names, among those of the Twin. -/
def findDataset (datasets : List Dataset) (manifest : EvidenceManifest) : Option Dataset :=
  datasets.find? fun d => sameId d.objectId manifest.snapshotDatasetId

/-- The event of the dataset a manifest names. -/
def findEvent (events : List TwinEvent) (manifest : EvidenceManifest) : Option TwinEvent :=
  events.find? fun e => e.eventType == DATASET_EVENT && sameId e.payloadRef manifest.snapshotDatasetId

def contextChecksOf (config : EvidenceConfig) (twinId : String) (manifest : EvidenceManifest) :
    ContextChecks where
  format := true
  twinId := sameId manifest.twinId twinId
  network := manifest.network == config.network
  packageId := sameId manifest.packageId config.packageId
  snapshotDatasetId := true

/-- The checks of the chain and of the file, given the text of its path, its normalised hash and its
length. -/
def checksOf (manifest : EvidenceManifest) (file : Option Json) (filePath fileHash : String)
    (fileSize : Number) (dataset : Option Dataset) (event : Option TwinEvent) (expected : String) :
    Checks where
  datasetOnChain := dataset.isSome
  eventOnChain := event.isSome
  manifestMatchesDataset := dataset.any fun d => normalizeHash d.payloadHash == expected
  manifestMetadataMatches := dataset.any fun d =>
    entryIs manifest.dataset "storageUri" (.string d.storageUri) &&
    entryIs manifest.dataset "periodFrom" (.number d.periodFrom) &&
    entryIs manifest.dataset "periodTo" (.number d.periodTo)
  eventMatchesDataset := dataset.any fun d => event.any fun e =>
    normalizeHash e.payloadHash == normalizeHash d.payloadHash
  filePresent := truthy? (field file "path")
  filePathMatches := entryIs manifest.dataset "path" (.string filePath)
  fileMatchesManifest := fileHash == expected
  fileSizeMatches := entryIs manifest.dataset "byteLength" (.number fileSize)

/-- `validateBundle`, given the datasets and the thread of the Twin. -/
def validateBundle (config : EvidenceConfig) (twinId : String) (rawDatasets : List Json)
    (events : List TwinEvent) (input : Option Json) : Except Thrown Validation := do
  let file := field input "file"
  match ← manifestOf (field input "manifest") with
  | none => throw (.app {
      code := "EVIDENCE_MANIFEST_INVALID"
      message := "A valid ObjectID on-demand evidence manifest is required", status := 422
      category := .VALIDATION })
  | some manifest =>
    let datasets ← rawDatasets.mapM datasetOf
    let dataset := findDataset datasets manifest
    let event := findEvent events manifest
    -- a hash that is no string has no `trim`
    let payloadHash ← conversion (asString? (manifest.dataset.get? "payloadHash"))
    let expected := normalizeHash payloadHash
    let filePath ← conversion (textOf? (field file "path"))
    let fileHash ← conversion (textOf? (field file "sha256"))
    let fileSize ← conversion (toNumber? (field file "byteLength"))
    let contextChecks := contextChecksOf config twinId manifest
    let checks :=
      checksOf manifest file filePath (normalizeHash fileHash) fileSize dataset event expected
    let assessmentChecks ← buildAssessmentChecks config twinId manifest file (normalizeHash fileHash)
      dataset event expected contextChecks checks
    return {
      twinId, network := config.network, snapshotDatasetId := manifest.snapshotDatasetId
      valid := contextChecks.every && checks.every
      contextChecks, checks, assessmentChecks }

/-! ## Conversions -/

/-- `String(v)` does not throw. -/
def Converts (v : Option Json) : Prop := ∀ w, v = some w → ∃ s, w.toString? = some s

theorem exists_textOf? {v : Option Json} : (∃ s, conversion (textOf? v) = .ok s) ↔ Converts v := by
  simp only [conversion_eq_ok]
  cases v with
  | none => exact iff_of_true ⟨_, rfl⟩ fun w hw => by cases hw
  | some v =>
    simp only [Converts, Option.some.injEq, forall_eq']
    cases v with
    | null => exact iff_of_true ⟨_, rfl⟩ ⟨_, rfl⟩
    | _ => exact Iff.rfl

theorem exists_toNumber? {v : Option Json} : (∃ x, conversion (toNumber? v) = .ok x) ↔ Converts v := by
  simp only [conversion_eq_ok]
  cases v with
  | none => exact iff_of_true ⟨_, rfl⟩ fun w hw => by cases hw
  | some v =>
    simp only [Converts, Option.some.injEq, forall_eq']
    cases v with
    | null => exact iff_of_true ⟨_, rfl⟩ ⟨_, rfl⟩
    | bool b => exact iff_of_true ⟨_, rfl⟩ ⟨_, rfl⟩
    | number x => exact iff_of_true ⟨_, rfl⟩ ⟨_, rfl⟩
    | _ => simp only [toNumber?, Option.map_eq_some_iff]; grind

theorem exists_stringOf {v : Option Json} :
    (∃ s, conversion (Sharing.stringOf v) = .ok s) ↔ Converts v := by
  simp only [conversion_eq_ok]
  cases v with
  | none => exact iff_of_true ⟨_, rfl⟩ fun w hw => by cases hw
  | some v =>
    simp only [Converts, Option.some.injEq, forall_eq']
    exact Iff.rfl

theorem exists_reportValue {v : Option Json} : (∃ s, reportValue v = .ok s) ↔ Converts v := by
  unfold reportValue
  split
  · exact iff_of_true ⟨_, rfl⟩ fun w hw => by cases hw
  · exact iff_of_true ⟨_, rfl⟩ fun w hw => ⟨_, by obtain rfl := Option.some.inj hw; rfl⟩
  · exact iff_of_true ⟨_, rfl⟩ fun w hw => ⟨_, by obtain rfl := Option.some.inj hw; rfl⟩
  · simp only [conversion_eq_ok, Converts, Option.some.injEq, forall_eq']

theorem converts_string (s : String) : Converts (some (.string s)) :=
  fun w hw => ⟨s, by obtain rfl := Option.some.inj hw; rfl⟩

theorem Converts.coalesce {a b : Option Json} (ha : Converts a) (hb : Converts b) :
    Converts (Json.coalesce a b) := by
  unfold Json.coalesce
  split
  · exact hb
  · exact hb
  · exact ha

/-- What `manifestOf` converts before it accepts. -/
theorem converts_of_manifestOf {value : Option Json} {manifest : EvidenceManifest}
    (h : manifestOf value = .ok (some manifest)) :
    Converts (manifest.dataset.get? "path") ∧ Converts (manifest.dataset.get? "byteLength") ∧
      Converts (manifest.dataset.get? "datasetObjectId") := by
  unfold manifestOf at h
  split at h
  · split at h
    case isTrue hids =>
      obtain ⟨path, hpath, h⟩ := Except.bind_eq_ok.mp h
      split at h
      case isTrue => cases Except.pure_eq_ok.mp h
      case isFalse =>
        obtain ⟨byteLength, hlength, h⟩ := Except.bind_eq_ok.mp h
        split at h
        case isTrue => cases Except.pure_eq_ok.mp h
        case isFalse =>
          obtain rfl := Option.some.inj (Except.pure_eq_ok.mp h)
          refine ⟨exists_textOf?.mp ⟨_, hpath⟩, exists_toNumber?.mp ⟨_, hlength⟩, fun w hw => ?_⟩
          have hid := hids.2.2
          rw [hw] at hid
          cases w with
          | string s => exact ⟨s, rfl⟩
          | _ => cases hid
    case isFalse => cases h
  · cases h

/-! ## The report -/

omit [Runtime] in
theorem exists_bind {α β : Type} {x : Except Thrown α} {f : α → Except Thrown β} :
    (∃ b, (x >>= f) = .ok b) ↔ ∃ a, x = .ok a ∧ ∃ b, f a = .ok b := by
  simp only [Except.bind_eq_ok]
  exact ⟨fun ⟨b, a, ha, hb⟩ => ⟨a, ha, b, hb⟩, fun ⟨a, ha, b, hb⟩ => ⟨b, a, ha, hb⟩⟩

omit [Runtime] in
/-- A traversal that collects its items succeeds when they do. -/
theorem exists_mapM_id {α : Type} {items : List (Except Thrown α)} :
    (∃ as, items.mapM id = .ok as) ↔ ∀ x ∈ items, ∃ a, x = .ok a := by
  refine ⟨fun ⟨as, h⟩ => ?_, Except.exists_mapM_eq_ok⟩
  have hall := Except.mapM_eq_ok.mp h
  clear h
  induction hall with
  | nil => exact fun x hx => by cases hx
  | @cons x a items as hx hrest ih =>
    exact List.forall_mem_cons.mpr ⟨⟨a, hx⟩, ih ⟨_, Except.mapM_eq_ok.mpr hrest⟩⟩

omit [Runtime] in
theorem exists_pure {α : Type} {a : α} : (∃ b, (pure a : Except Thrown α) = .ok b) ↔ True :=
  iff_true_intro ⟨a, rfl⟩

/-- The values that the assessment turns into texts. -/
structure Assessed (manifest : EvidenceManifest) (file : Option Json) : Prop where
  storageUri : Converts (manifest.dataset.get? "storageUri")
  periodFrom : Converts (manifest.dataset.get? "periodFrom")
  periodTo : Converts (manifest.dataset.get? "periodTo")
  path : Converts (field file "path")
  byteLength : Converts (field file "byteLength")

theorem exists_assessment {config : EvidenceConfig} {twinId : String} {manifest : EvidenceManifest}
    {file : Option Json} {fileHash expected : String} {dataset : Option Dataset} {event : Option TwinEvent}
    {contextChecks : ContextChecks} {checks : Checks} {value : Option Json}
    (hmanifest : manifestOf value = .ok (some manifest)) (hpath : Converts (field file "path")) :
    (∃ c, buildAssessmentChecks config twinId manifest file fileHash dataset event expected contextChecks
      checks = .ok c) ↔ Assessed manifest file := by
  obtain ⟨hentryPath, hentryLength, hentryId⟩ := converts_of_manifestOf hmanifest
  have hfilePath : Converts (if truthy? (field file "path") then field file "path"
      else some (.string "missing")) := by
    split
    · exact hpath
    · exact converts_string _
  unfold buildAssessmentChecks
  dsimp only
  -- each check of the list succeeds when both of its values convert
  simp only [exists_bind, exists_mapM_id, List.forall_mem_cons, exists_pure, and_true, exists_and_right,
    exists_reportValue, exists_stringOf, converts_string, hentryPath, hentryLength, hentryId, hfilePath,
    true_and, List.not_mem_nil, false_implies, implies_true]
  exact ⟨fun ⟨huri, hfrom, hto, hlength⟩ => ⟨huri, hfrom, hto, hpath, hlength⟩,
    fun h => ⟨h.storageUri, h.periodFrom, h.periodTo, h.byteLength⟩⟩

end

end Evidence
