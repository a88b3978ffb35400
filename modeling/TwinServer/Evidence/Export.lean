-- SUMMARY: The export of an evidence bundle, and that its manifest and its file are validated while the chain stays as it was.
import TwinServer.Evidence.Soundness
import TwinServer.Objectid.Hashes
import TwinServer.Base.Serial
import TwinServer.Storage.Paths

/-!
# Export of evidence

`createBundle` of `src/evidence/service.ts`. The manifest goes through JSON before it is submitted: texts and
finite numbers survive, so the entry still says what the dataset of the chain says. Of the archive the data
file stands here; the text of the manifest and the README beside it are not read again.
-/

open Js Js.Json Thread Storage

namespace Evidence

def DATASET_FORMAT : String := "objectid.digital-twin-export-dataset.v1"

def MAX_DATASET_BYTES : Nat := 256 * 1024 * 1024

/-! ## The bundle -/

/-- What the ledger answers about a Twin. -/
structure Chain where
  rawDatasets : List Json
  events : List TwinEvent

/-- The data file of the archive, and the manifest. -/
structure Bundle where
  path : String
  bytes : Bytes
  manifest : Json

/-- The class `[a-z0-9_-]`, in any case. -/
def isIdChar (c : Char) : Bool := c.isAlphanum || c == '_' || c == '-'

/-- `safeId`: other code units become `_`. -/
def safeId (value : String) : String :=
  let chars := value.toList.flatMap fun c => if isIdChar c then [c] else List.replicate (utf16Width c) '_'
  if chars = [] then "dataset" else .ofList (chars.take 80)

def datasetNotFound : AppError :=
  { code := "EVIDENCE_DATASET_NOT_FOUND"
    message := "The requested Dataset does not belong to this Twin or is not indexed yet", status := 404
    category := .OBJECTID }

def eventNotIndexed : AppError :=
  { code := "EVIDENCE_EVENT_NOT_INDEXED"
    message := "The Dataset exists but its Digital Thread event is not indexed yet; retry the download"
    status := 503, category := .OBJECTID }

def datasetTooLarge : AppError :=
  { code := "EVIDENCE_DATASET_TOO_LARGE"
    message := "Export Dataset exceeds " ++ MAX_DATASET_BYTES.repr ++ " bytes", status := 413
    category := .VALIDATION }

def storageHashMismatch : AppError :=
  { code := "EVIDENCE_STORAGE_HASH_MISMATCH"
    message := "Stored Dataset bytes do not match their on-chain SHA-256", status := 409
    category := .OBJECTID }

section
variable [Runtime]

/-- The dataset and the event that one answer of the ledger has for the id. -/
def Chain.anchored (c : Chain) (datasetId : String) : Except Thrown (Option Dataset × Option TwinEvent) := do
  let datasets ← c.rawDatasets.mapM datasetOf
  return (datasets.find? fun d => sameId d.objectId datasetId,
    c.events.find? fun e => e.eventType == DATASET_EVENT && sameId e.payloadRef datasetId)

/-- The attempts of `loadAnchoredDataset`, with the dataset found last. -/
def loadAnchored (datasetId : String) : Option Dataset → List Chain → Except Thrown (Dataset × TwinEvent)
  | none, [] => .error (.app datasetNotFound)
  | some _, [] => .error (.app eventNotIndexed)
  | _, c :: attempts => do
    match ← c.anchored datasetId with
    | (some dataset, some event) => return (dataset, event)
    | (dataset, _) => loadAnchored datasetId dataset attempts

/-- `loadAnchoredDataset`, given what the ledger answers to the attempts. -/
def loadAnchoredDataset (datasetId : String) (attempts : List Chain) : Except Thrown (Dataset × TwinEvent) :=
  loadAnchored datasetId none (attempts.take 10)

/-- `manifestEntry`. -/
def manifestEntry (dataset : Dataset) (event : TwinEvent) (path : String) (byteLength : Nat) : Json :=
  .object [("datasetObjectId", .string dataset.objectId), ("datasetType", .string dataset.datasetType),
    ("storageUri", .string dataset.storageUri), ("path", .string path),
    ("payloadHash", .string (normalizeHash dataset.payloadHash)), ("byteLength", .number byteLength),
    ("periodFrom", .number dataset.periodFrom), ("periodTo", .number dataset.periodTo),
    ("createdAt", .number dataset.createdAt),
    ("event", .object [("eventId", .string event.eventId),
      ("transactionDigest", event.transactionDigest.elim .null .string),
      ("revision", .number (.finite event.revisionAfter)),
      ("payloadHash", .string (normalizeHash event.payloadHash))])]

def manifestJson (config : EvidenceConfig) (twinId generatedAt : String) (dataset : Dataset) (entry : Json) : Json :=
  .object [("format", .string BUNDLE_FORMAT), ("generatedAt", .string generatedAt),
    ("network", .string config.network), ("packageId", .string config.packageId), ("twinId", .string twinId),
    ("snapshotDatasetId", .string dataset.objectId),
    ("integrity", .object [("algorithm", .string "SHA-256"), ("scope", .string "uncompressed-file-bytes"),
      ("onChainObject", .string "OIDTwinDataset"), ("eventType", .number (.finite DATASET_EVENT))]),
    ("dataset", entry)]

variable (sha256 : Bytes → String)

/-- `createBundle`, given the answers of the ledger, what the storage reads and the time. -/
def createBundle (config : EvidenceConfig) (twinId datasetId : String) (attempts : List Chain)
    (read : String → Except Thrown Bytes) (generatedAt : String) : Except Thrown Bundle := do
  let (dataset, event) ← loadAnchoredDataset datasetId attempts
  let bytes ← read dataset.storageUri
  if bytes.length > MAX_DATASET_BYTES then throw (.app datasetTooLarge)
  if sha256 bytes ≠ normalizeHash dataset.payloadHash then throw (.app storageHashMismatch)
  let path := "data/" ++ safeId dataset.objectId ++ ".json"
  return { path, bytes
           manifest := manifestJson config twinId generatedAt dataset
             (manifestEntry dataset event path bytes.length) }

/-- What is submitted of an archive: its manifest, and the path, the digest and the length of its data. -/
def submission (manifest : Json) (path digest : String) (byteLength : Nat) : Json :=
  .object [("manifest", manifest), ("file", .object [("path", .string path), ("sha256", .string digest),
    ("byteLength", .number byteLength)])]

/-! ## What an export rests on -/

variable {sha256} {config : EvidenceConfig} {twinId datasetId generatedAt : String} {attempts : List Chain}
variable {read : String → Except Thrown Bytes} {bundle : Bundle} {dataset : Dataset} {event : TwinEvent}

theorem loadAnchored_eq_ok {last : Option Dataset} (h : loadAnchored datasetId last attempts = .ok (dataset, event)) :
    ∃ c ∈ attempts, c.anchored datasetId = .ok (some dataset, some event) := by
  induction attempts generalizing last with
  | nil => cases last <;> cases h
  | cons c attempts ih =>
      rw [loadAnchored] at h
      obtain ⟨found, hfound, h⟩ := Except.bind_eq_ok.mp h
      split at h
      case h_1 d e =>
        obtain ⟨rfl, rfl⟩ := Prod.mk.inj (Except.pure_eq_ok.mp h)
        exact ⟨c, List.mem_cons_self, hfound⟩
      case h_2 =>
        obtain ⟨c', hc', hanchored⟩ := ih h
        exact ⟨c', List.mem_cons_of_mem _ hc', hanchored⟩

/-- What is exported: the dataset and the event of an attempt, and bytes with the digest of the dataset. -/
theorem createBundle_eq_ok (h : createBundle sha256 config twinId datasetId attempts read generatedAt = .ok bundle) :
    ∃ c ∈ attempts, ∃ dataset event, c.anchored datasetId = .ok (some dataset, some event) ∧
      bundle.bytes.length ≤ MAX_DATASET_BYTES ∧ sha256 bundle.bytes = normalizeHash dataset.payloadHash ∧
      bundle.path = "data/" ++ safeId dataset.objectId ++ ".json" ∧
      bundle.manifest = manifestJson config twinId generatedAt dataset
        (manifestEntry dataset event bundle.path bundle.bytes.length) := by
  unfold createBundle at h
  obtain ⟨⟨dataset, event⟩, hload, h⟩ := Except.bind_eq_ok.mp h
  obtain ⟨c, hc, hanchored⟩ := loadAnchored_eq_ok hload
  obtain ⟨bytes, -, h⟩ := Except.bind_eq_ok.mp h
  dsimp only at h
  split at h
  · cases h
  case isFalse hsize =>
    split at h
    · cases h
    case isFalse hhash =>
      obtain rfl := Except.pure_eq_ok.mp h
      exact ⟨c, List.mem_of_mem_take hc, dataset, event, hanchored, Nat.not_lt.mp hsize,
        Decidable.not_not.mp hhash, rfl, rfl⟩

/-! ## Paths and digests -/

omit [Runtime] in
theorem isWord_of_isIdChar {c : Char} (h : isIdChar c) : (isWord c || c == '.' || c == '-') = true := by
  simp only [isIdChar, isWord, Bool.or_eq_true] at h ⊢
  tauto

omit [Runtime] in
/-- A safe id is a text of the class, and not empty. -/
theorem safeId_spec (value : String) :
    (safeId value).toList ≠ [] ∧ ∀ c ∈ (safeId value).toList, isIdChar c := by
  unfold safeId
  dsimp only
  split
  case isTrue => exact ⟨by decide, List.all_eq_true.mp (by decide)⟩
  case isFalse hsome =>
    rw [String.toList_ofList]
    refine ⟨by simpa using hsome, fun c hc => ?_⟩
    obtain ⟨a, -, hc⟩ := List.mem_flatMap.mp (List.mem_of_mem_take hc)
    split at hc
    case isTrue ha =>
      obtain rfl := List.mem_singleton.mp hc
      exact ha
    case isFalse =>
      obtain rfl := List.eq_of_mem_replicate hc
      rfl

omit [Runtime] in
theorem isDataPath_safeId (value : String) : isDataPath ("data/" ++ safeId value ++ ".json") := by
  obtain ⟨-, hclass⟩ := safeId_spec value
  have hchars : ("data/" ++ safeId value ++ ".json").toList =
      "data/".toList ++ ((safeId value).toList ++ ".json".toList) := by simp
  have hsuffix : ".json".toList.all (fun c => isWord c || c == '.' || c == '-') := by decide
  simp only [isDataPath, hchars]
  rw [List.take_left' (by rfl), List.drop_left' (by rfl)]
  simp only [Bool.and_eq_true, List.all_append, List.all_eq_true]
  refine ⟨⟨by decide, by simp⟩, fun c hc => ?_, List.all_eq_true.mp hsuffix⟩
  exact isWord_of_isIdChar (hclass c hc)

omit [Runtime] in
theorem isWhiteSpace_isLowerHex {c : Char} (h : isLowerHex c) : isWhiteSpace c = false := by
  simp only [isLowerHex, Bool.or_eq_true, Bool.and_eq_true, decide_eq_true_eq, Char.isDigit,
    Char.le_def, UInt32.le_iff_toNat_le] at h
  have hzero : ('0' : Char).val.toNat = 48 := rfl
  have hnine : ('9' : Char).val.toNat = 57 := rfl
  have ha : ('a' : Char).val.toNat = 97 := rfl
  have hf : ('f' : Char).val.toNat = 102 := rfl
  simp only [isWhiteSpace, Char.toNat, Bool.or_eq_false_iff, Bool.and_eq_false_iff, decide_eq_false_iff_not,
    beq_eq_false_iff_ne, ne_eq]
  omega

/-- A digest is normal. -/
theorem normalizeHash_digest {digest : String} (h : isHex64 digest.toList) : normalizeHash digest = digest := by
  have htrim : trim digest = digest := by
    have hkept {cs : List Char} (hcs : ∀ c ∈ cs, isLowerHex c) : cs.dropWhile isWhiteSpace = cs := by
      cases cs with
      | nil => rfl
      | cons c cs =>
        rw [List.dropWhile_cons_of_neg]
        exact Bool.eq_false_iff.mp (isWhiteSpace_isLowerHex (hcs c List.mem_cons_self))
    simp only [isHex64, Bool.and_eq_true, List.all_eq_true] at h
    rw [trim, hkept h.2, hkept fun c hc => h.2 c (List.mem_reverse.mp hc), List.reverse_reverse, String.ofList_toList]
  refine (denotes_iff.mp ⟨h, "", by simp, "", by simp, ?_⟩).2
  rw [htrim, Runtime.toLowerCase_ascii _ (ObjectId.isHex64_ascii h), asciiLower, ObjectId.map_toLower_isHex64 h,
    String.ofList_toList, String.empty_append, String.empty_append]

/-! ## The manifest after JSON -/

/-- What is left of the entry. -/
structure EntryOf (entry : Json) (dataset : Dataset) (path : String) (byteLength : Nat) : Prop where
  truthy : entry.truthy
  datasetObjectId : entry.get? "datasetObjectId" = some (.string dataset.objectId)
  storageUri : entry.get? "storageUri" = some (.string dataset.storageUri)
  path : entry.get? "path" = some (.string path)
  payloadHash : entry.get? "payloadHash" = some (.string (normalizeHash dataset.payloadHash))
  byteLength : entry.get? "byteLength" = some (.number byteLength)
  periodFrom : entry.get? "periodFrom" = some (.number dataset.periodFrom)
  periodTo : entry.get? "periodTo" = some (.number dataset.periodTo)

theorem entryOf_written (event : TwinEvent) (path : String) (byteLength : Nat) (hfrom : dataset.periodFrom.isFinite)
    (hto : dataset.periodTo.isFinite) :
    EntryOf (written (manifestEntry dataset event path byteLength)) dataset path byteLength := by
  have hnumber {x : Number} (h : x.isFinite) : written (.number x) = .number x := if_pos h
  refine ⟨rfl, ?_, ?_, ?_, ?_, ?_, ?_, ?_⟩ <;> rw [manifestEntry, get?_written]
  · rfl
  · rfl
  · rfl
  · rfl
  · rfl
  · exact congrArg some (hnumber hfrom)
  · exact congrArg some (hnumber hto)

/-- What the validation reads of an exported manifest. -/
def exportedManifest (config : EvidenceConfig) (twinId : String) (dataset : Dataset) (entry : Json) :
    EvidenceManifest where
  twinId := twinId
  packageId := config.packageId
  network := config.network
  snapshotDatasetId := dataset.objectId
  dataset := entry

theorem manifestOf_written (config : EvidenceConfig) (twinId generatedAt : String) {path : String} {byteLength : Nat} {entry : Json}
    (hentry : EntryOf (written entry) dataset path byteLength) (hpath : isDataPath path)
    (hlength : byteLength ≤ MAX_DATASET_BYTES) :
    manifestOf (some (written (manifestJson config twinId generatedAt dataset entry))) =
      .ok (some (exportedManifest config twinId dataset (written entry))) := by
  have hfield (k : String) : field (some (written (manifestJson config twinId generatedAt dataset entry))) k =
      (Record.get? [("format", .string BUNDLE_FORMAT), ("generatedAt", .string generatedAt),
        ("network", .string config.network), ("packageId", .string config.packageId), ("twinId", .string twinId),
        ("snapshotDatasetId", .string dataset.objectId),
        ("integrity", .object [("algorithm", .string "SHA-256"), ("scope", .string "uncompressed-file-bytes"),
          ("onChainObject", .string "OIDTwinDataset"), ("eventType", .number (.finite DATASET_EVENT))]),
        ("dataset", entry)] k).map written := by
    rw [field, Option.bind_some, manifestJson, get?_written]
  have hsafe : (byteLength : Number).safeNat?.isNone = false := by
    have hle : byteLength ≤ Number.maxSafe := hlength.trans (by decide)
    rw [Number.safeNat?_ofNat, if_pos hle]
    rfl
  unfold manifestOf
  simp only [hfield, Record.get?_cons, String.reduceEq, if_false, if_true, Option.map_some, written, asString?,
    hentry.truthy, hentry.datasetObjectId, hentry.path, hentry.byteLength, and_self, textOf?, toString?,
    conversion, toNumber?, bind, Except.bind, hpath, hsafe, Bool.not_true, Bool.false_eq_true]
  rfl

/-! ## The assessment -/

/-- A text or a number can be reported. -/
theorem reportValue_string (text : String) : ∃ t, reportValue (some (.string text)) = .ok t := by
  unfold reportValue
  split
  · exact ⟨_, rfl⟩
  · exact ⟨_, rfl⟩
  · exact ⟨_, rfl⟩
  case h_4 v _ _ hv =>
    obtain rfl := Option.some.inj hv
    exact ⟨text, rfl⟩

theorem reportValue_number (x : Number) : ∃ t, reportValue (some (.number x)) = .ok t := ⟨_, rfl⟩

theorem check_passed {id title : String} {passed : Bool} {expectedValue observedValue : Option Json}
    (hpassed : passed = true) (hexpected : ∃ t, reportValue expectedValue = .ok t)
    (hobserved : ∃ t, reportValue observedValue = .ok t) :
    ∃ a : AssessmentCheck, (do
      let expected ← reportValue expectedValue
      let observed ← reportValue observedValue
      return { id, title, passed, expected, observed } : Except Thrown AssessmentCheck) = .ok a ∧
        a.passed = true := by
  obtain ⟨expected, hexpected⟩ := hexpected
  obtain ⟨observed, hobserved⟩ := hobserved
  rw [hexpected, hobserved]
  exact ⟨_, rfl, hpassed⟩

omit [Runtime] in
theorem ok_bind {α β : Type} (a : α) (f : α → Except Thrown β) : (Except.ok a >>= f) = f a := rfl

omit [Runtime] in
theorem mapM_passed {checks : List (Except Thrown AssessmentCheck)}
    (h : ∀ x ∈ checks, ∃ a, x = .ok a ∧ a.passed = true) :
    ∃ as, checks.mapM (fun x => x) = .ok as ∧ ∀ a ∈ as, a.passed = true := by
  induction checks with
  | nil => exact ⟨[], rfl, fun _ ha => (nomatch ha)⟩
  | cons x checks ih =>
      obtain ⟨a, rfl, ha⟩ := h x List.mem_cons_self
      obtain ⟨as, has, hall⟩ := ih fun x hx => h x (List.mem_cons_of_mem _ hx)
      refine ⟨a :: as, ?_, ?_⟩
      · rw [List.mapM_cons, has]
        rfl
      · intro b hb
        rcases List.mem_cons.mp hb with rfl | hb
        · exact ha
        · exact hall b hb

/-- Where all context checks and all checks pass, so does every check of the assessment. -/
theorem buildAssessmentChecks_passed (config : EvidenceConfig) (twinId : String) (event : TwinEvent)
    (manifest : EvidenceManifest) {file : Option Json} (fileHash expected : String) {path filePath : String} {byteLength : Nat} {fileLength : Number} {contextChecks : ContextChecks}
    {checks : Checks} (hentry : EntryOf manifest.dataset dataset path byteLength)
    (hpath : field file "path" = some (.string filePath))
    (hlength : field file "byteLength" = some (.number fileLength))
    (hcontext : contextChecks.every) (hchecks : checks.every) :
    ∃ as, buildAssessmentChecks config twinId manifest file fileHash (some dataset) (some event) expected
      contextChecks checks = .ok as ∧ ∀ a ∈ as, a.passed = true := by
  simp only [ContextChecks.every, Bool.and_eq_true] at hcontext
  simp only [Checks.every, Bool.and_eq_true] at hchecks
  obtain ⟨⟨⟨⟨hformat, htwin⟩, hnetwork⟩, hpackage⟩, hsnapshot⟩ := hcontext
  obtain ⟨⟨⟨⟨⟨⟨⟨⟨h₁, h₂⟩, h₃⟩, h₄⟩, h₅⟩, h₆⟩, h₇⟩, h₈⟩, h₉⟩ := hchecks
  have hobserved : ∃ t, reportValue (if truthy? (field file "path") then field file "path"
      else some (.string "missing")) = .ok t := by
    rw [hpath]
    split <;> exact reportValue_string _
  have hentryPath := hentry.path ▸ reportValue_string path
  have hobject := hentry.datasetObjectId ▸ reportValue_string dataset.objectId
  have hentryLength := hentry.byteLength ▸ reportValue_number byteLength
  have hfileLength := hlength ▸ reportValue_number fileLength
  unfold buildAssessmentChecks
  simp only [hentry.storageUri, hentry.periodFrom, hentry.periodTo, Sharing.stringOf, toString?, conversion, ok_bind]
  apply mapM_passed
  simp only [List.mem_cons, List.not_mem_nil, or_false, forall_eq_or_imp, forall_eq]
  refine ⟨?_, ?_, ?_, ?_, ?_, ?_, ?_, ?_, ?_, ?_, ?_, ?_, ?_, ?_⟩
  · exact check_passed hformat (reportValue_string _) (reportValue_string _)
  · exact check_passed htwin (reportValue_string _) (reportValue_string _)
  · exact check_passed hnetwork (reportValue_string _) (reportValue_string _)
  · exact check_passed hpackage (reportValue_string _) (reportValue_string _)
  · exact check_passed hsnapshot (reportValue_string _) hobject
  · exact check_passed h₁ (reportValue_string _) (reportValue_string _)
  · exact check_passed h₂ (reportValue_string _) (reportValue_string _)
  · exact check_passed h₃ (reportValue_string _) (reportValue_string _)
  · exact check_passed h₄ (reportValue_string _) (reportValue_string _)
  · exact check_passed h₅ (reportValue_string _) (reportValue_string _)
  · exact check_passed h₆ hentryPath hobserved
  · exact check_passed h₇ hentryPath hobserved
  · exact check_passed h₈ (reportValue_string _) (reportValue_string _)
  · exact check_passed h₉ hentryLength hfileLength

/-! ## The round trip -/

omit [Runtime] in
theorem entryIs_of_string {entry : Json} {k t : String} (h : entry.get? k = some (.string t)) :
    entryIs entry k (.string t) = true := by
  simp [entryIs, h, strictEq]

omit [Runtime] in
theorem entryIs_of_number {entry : Json} {k : String} {x : Number} (h : entry.get? k = some (.number x))
    (hx : x.isFinite) : entryIs entry k (.number x) = true := by
  cases x with
  | finite value => simp [entryIs, h, strictEq]
  | infinity negative => cases hx
  | nan => cases hx

/-- What the ledger answers is what the validation finds it in. -/
theorem anchored_eq_ok {c : Chain} (h : c.anchored datasetId = .ok (some dataset, some event)) :
    ∃ datasets, c.rawDatasets.mapM datasetOf = .ok datasets ∧
      ∀ manifest : EvidenceManifest, manifest.snapshotDatasetId = dataset.objectId →
        findDataset datasets manifest = some dataset ∧ findEvent c.events manifest = some event := by
  obtain ⟨datasets, hdatasets, h⟩ := Except.bind_eq_ok.mp h
  obtain ⟨hdataset, hevent⟩ := Prod.mk.inj (Except.pure_eq_ok.mp h)
  have hid := List.find?_some hdataset
  simp only [sameId, beq_iff_eq] at hid
  refine ⟨datasets, hdatasets, fun manifest hmanifest => ?_⟩
  have hsame (a : String) : sameId a manifest.snapshotDatasetId = sameId a datasetId := by
    rw [sameId, sameId, hmanifest, hid]
  constructor
  · rw [findDataset, ← hdataset]
    exact congrArg (fun q => datasets.find? q) (funext fun d => hsame d.objectId)
  · rw [findEvent, ← hevent]
    exact congrArg (fun q => c.events.find? q) (funext fun e => by rw [hsame])

/-- The checks of an exported bundle, its file given with its own digest. -/
theorem checks_exported (config : EvidenceConfig) (twinId : String) (event : TwinEvent) {path digest : String} {byteLength : Nat} {entry : Json}
    (hentry : EntryOf entry dataset path byteLength) (hpath : path ≠ "") (hfrom : dataset.periodFrom.isFinite)
    (hto : dataset.periodTo.isFinite) (hdataset : normalizeHash dataset.payloadHash = digest)
    (hevent : normalizeHash event.payloadHash = digest) :
    (contextChecksOf config twinId (exportedManifest config twinId dataset entry)).every = true ∧
      (checksOf (exportedManifest config twinId dataset entry)
        (field (some (submission .null path digest byteLength)) "file") path digest byteLength (some dataset)
        (some event) digest).every = true := by
  have hfile : truthy? (field (field (some (submission .null path digest byteLength)) "file") "path") = true :=
    bne_iff_ne.mpr hpath
  constructor
  · simp [ContextChecks.every, contextChecksOf, exportedManifest, sameId]
  · simp only [Checks.every, checksOf, exportedManifest, Option.isSome_some, Option.any_some, hfile, hdataset,
      hevent, entryIs_of_string hentry.storageUri, entryIs_of_string hentry.path,
      entryIs_of_number hentry.byteLength rfl, entryIs_of_number hentry.periodFrom hfrom,
      entryIs_of_number hentry.periodTo hto, beq_self_eq_true, Bool.and_self]

/-- A bundle that was exported is valid in every check, once its manifest has gone through JSON, while the ledger
answers as it did for the export. -/
theorem exported_valid {sha256 : Bytes → String} {parse : String → Option Json} {chain : Chain}
    (hreads : Reads parse) (hhex : ∀ bytes, isHex64 (sha256 bytes).toList)
    (hcreate : createBundle sha256 config twinId datasetId attempts read generatedAt = .ok bundle)
    (hchain : ∀ c ∈ attempts, ∀ dataset event, c.anchored datasetId = .ok (some dataset, some event) →
      c = chain ∧ dataset.periodFrom.isFinite ∧ dataset.periodTo.isFinite ∧
        normalizeHash event.payloadHash = normalizeHash dataset.payloadHash) :
    ∃ manifest v, parse (stringify bundle.manifest) = some manifest ∧
      validateBundle config twinId chain.rawDatasets chain.events
        (some (submission manifest bundle.path (sha256 bundle.bytes) bundle.bytes.length)) = .ok v ∧
      v.valid = true ∧ v.contextChecks.every = true ∧ v.checks.every = true ∧
      ∀ a ∈ v.assessmentChecks, a.passed = true := by
  obtain ⟨c, hc, dataset, event, hanchored, hsize, hdigest, hpath, hmanifest⟩ := createBundle_eq_ok hcreate
  obtain ⟨rfl, hfrom, hto, hevent⟩ := hchain c hc dataset event hanchored
  obtain ⟨datasets, hdatasets, hfind⟩ := anchored_eq_ok hanchored
  generalize hpathName : bundle.path = path at hpath hmanifest
  generalize hdigestName : sha256 bundle.bytes = digest at hdigest
  have hentry := entryOf_written event path bundle.bytes.length hfrom hto
  generalize hentryName : manifestEntry dataset event path bundle.bytes.length = entry at hentry hmanifest
  have hmanifestOf := manifestOf_written config twinId generatedAt hentry
    (hpath ▸ isDataPath_safeId dataset.objectId) hsize
  obtain ⟨hdatasetFound, heventFound⟩ := hfind (exportedManifest config twinId dataset (written entry)) rfl
  -- the digest is the normal form of all the hashes that are compared
  have hnormal : normalizeHash digest = digest := normalizeHash_digest (hdigestName ▸ hhex bundle.bytes)
  have hpathSome : path ≠ "" := by
    rw [hpath]
    intro hempty
    simpa using congrArg String.toList hempty
  obtain ⟨hcontext, hchecks⟩ := checks_exported config twinId event hentry hpathSome
    hfrom hto hdigest.symm (hevent.trans hdigest.symm)
  have hfilePath : field (field (some (submission .null path digest bundle.bytes.length)) "file") "path" =
      some (.string path) := rfl
  have hfileLength : field (field (some (submission .null path digest bundle.bytes.length)) "file") "byteLength" =
      some (.number bundle.bytes.length) := rfl
  obtain ⟨as, has, hpassed⟩ := buildAssessmentChecks_passed config twinId event
    (exportedManifest config twinId dataset (written entry)) digest digest hentry hfilePath hfileLength hcontext hchecks
  let file := field (some (submission .null path digest bundle.bytes.length)) "file"
  let contextChecks := contextChecksOf config twinId (exportedManifest config twinId dataset (written entry))
  let checks := checksOf (exportedManifest config twinId dataset (written entry)) file path digest
    bundle.bytes.length (some dataset) (some event) digest
  have hsubmitted : field (some (submission (written bundle.manifest) path digest bundle.bytes.length)) "manifest" =
      some (written (manifestJson config twinId generatedAt dataset entry)) := by
    rw [hmanifest]
    rfl
  have hvalidate : validateBundle config twinId c.rawDatasets c.events
      (some (submission (written bundle.manifest) path digest bundle.bytes.length)) = .ok {
        twinId, network := config.network, snapshotDatasetId := dataset.objectId
        valid := contextChecks.every && checks.every, contextChecks, checks, assessmentChecks := as } := by
    have hfile : field (some (submission (written bundle.manifest) path digest bundle.bytes.length)) "file" = file :=
      rfl
    have hpathText : textOf? (field file "path") = some path := rfl
    have hdigestText : textOf? (field file "sha256") = some digest := rfl
    have hlength : toNumber? (field file "byteLength") = some (bundle.bytes.length : Number) := rfl
    have hhash : asString? ((exportedManifest config twinId dataset (written entry)).dataset.get? "payloadHash") =
        some digest := by
      rw [hdigest]
      exact congrArg asString? hentry.payloadHash
    unfold validateBundle
    rw [hsubmitted, hmanifestOf, ok_bind, hfile]
    dsimp only
    rw [hdatasets, ok_bind, hdatasetFound, heventFound, hhash, hpathText, hdigestText, hlength]
    simp only [conversion, ok_bind, hnormal]
    rw [has]
    rfl
  refine ⟨written bundle.manifest, _, hreads _, hvalidate, ?_, hcontext, hchecks, hpassed⟩
  exact (Bool.and_eq_true _ _).mpr ⟨hcontext, hchecks⟩

end

/-! ## A sample -/

/-- A digest of zeros. -/
def zeros : String := .ofList (.replicate 64 '0')

theorem isHex64_zeros : isHex64 zeros.toList := by
  have hlist : zeros.toList = .replicate 64 '0' := String.toList_ofList
  rw [isHex64, hlist, List.length_replicate, List.all_replicate]
  rfl

def sampleChain : Chain := ⟨[sampleDataset zeros], [anchorEvent zeros]⟩

section
variable [Runtime] (payloadHash : String)

theorem anchored_sample : Chain.anchored ⟨[sampleDataset payloadHash], [anchorEvent payloadHash]⟩ (objectId '2') =
    .ok (some ⟨objectId '2', "dataset", "u", payloadHash, 0, 0, 0⟩, some (anchorEvent payloadHash)) := by
  have hself (id : String) : sameId id id = true := beq_self_eq_true _
  have hdatasets : [sampleDataset payloadHash].mapM datasetOf =
      .ok [⟨objectId '2', "dataset", "u", payloadHash, 0, 0, 0⟩] := rfl
  rw [Chain.anchored, hdatasets, ok_bind]
  simp [hself, anchorEvent]
  rfl

theorem exists_bundle (config : EvidenceConfig) (twinId generatedAt : String) (bytes : Bytes)
    (hsize : bytes.length ≤ MAX_DATASET_BYTES) (hnormal : normalizeHash payloadHash = payloadHash) :
    ∃ bundle, createBundle (fun _ => payloadHash) config twinId (objectId '2')
      [⟨[sampleDataset payloadHash], [anchorEvent payloadHash]⟩] (fun _ => .ok bytes) generatedAt = .ok bundle := by
  have hload : loadAnchoredDataset (objectId '2') [⟨[sampleDataset payloadHash], [anchorEvent payloadHash]⟩] =
      .ok (⟨objectId '2', "dataset", "u", payloadHash, 0, 0, 0⟩, anchorEvent payloadHash) :=
    Except.bind_eq_ok.mpr ⟨_, anchored_sample payloadHash, rfl⟩
  unfold createBundle
  rw [hload, ok_bind]
  simp only [ok_bind, hnormal, if_neg (Nat.not_lt.mpr hsize), ne_eq, not_true, if_false]
  exact ⟨_, rfl⟩

end

/-- Three bytes with the digest of zeros are exported and validated. -/
theorem exported_valid_sample : let _ : Runtime := .exact
    ∃ bundle manifest v, createBundle (fun _ => zeros) testnet (objectId '1') (objectId '2') [sampleChain]
        (fun _ => .ok [1, 2, 3]) "2026-01-01T00:00:00.000Z" = .ok bundle ∧
      readBack (stringify bundle.manifest) = some manifest ∧
      validateBundle testnet (objectId '1') sampleChain.rawDatasets sampleChain.events
        (some (submission manifest bundle.path zeros bundle.bytes.length)) = .ok v ∧ v.valid = true := by
  intro _
  have hnumbers : NumberText := numberText_exact
  obtain ⟨bundle, hbundle⟩ := exists_bundle zeros testnet (objectId '1') "2026-01-01T00:00:00.000Z" [1, 2, 3]
    (by decide) (normalizeHash_digest isHex64_zeros)
  have hchain : ∀ c ∈ [sampleChain], ∀ dataset event,
      c.anchored (objectId '2') = .ok (some dataset, some event) →
        c = sampleChain ∧ dataset.periodFrom.isFinite ∧ dataset.periodTo.isFinite ∧
          normalizeHash event.payloadHash = normalizeHash dataset.payloadHash := by
    intro c hc dataset event hanchored
    obtain rfl := List.mem_singleton.mp hc
    obtain ⟨hdataset, hevent⟩ := Prod.mk.inj (Except.ok.inj ((anchored_sample zeros).symm.trans hanchored))
    obtain rfl := Option.some.inj hdataset
    obtain rfl := Option.some.inj hevent
    exact ⟨rfl, rfl, rfl, rfl⟩
  obtain ⟨manifest, v, hmanifest, hvalidate, hvalid, -⟩ := exported_valid reads_readBack (fun _ => isHex64_zeros) hbundle hchain
  exact ⟨bundle, manifest, v, hbundle, hmanifest, hvalidate, hvalid⟩

end Evidence
