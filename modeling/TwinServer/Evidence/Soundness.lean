-- SUMMARY: What a valid verdict on evidence means, and that it means equal SHA-256 digests exactly when the manifest has one.
import TwinServer.Evidence.Validation

/-!
# Soundness of a verdict

The checks compare normalised hashes. Equal normalised hashes are equal digests when one of
them is a digest; nothing in the validation asks for that.
-/

open Js Js.Json Thread

namespace Evidence

/-! ## Digests -/

theorem startsWith_append (p s : String) : startsWith (p ++ s) p := by
  rw [startsWith, String.toList_append]
  exact List.isPrefixOf_iff_prefix.mpr (List.prefix_append _ _)

theorem stripPrefix_append (p s : String) : stripPrefix p (p ++ s) = s := by
  rw [stripPrefix, if_pos (startsWith_append p s), String.toList_append]
  apply String.toList_inj.mp
  rw [String.toList_ofList, List.drop_left']
  exact String.length_toList

theorem append_stripPrefix {p s : String} (h : startsWith s p) : p ++ stripPrefix p s = s := by
  obtain ⟨cs, hcs⟩ := List.isPrefixOf_iff_prefix.mp h
  have hs : s = p ++ .ofList cs := by
    apply String.toList_inj.mp
    rw [String.toList_append, String.toList_ofList, hcs]
  rw [hs, stripPrefix_append]

theorem stripPrefix_of_not {p s : String} (h : startsWith s p = false) : stripPrefix p s = s := by
  rw [stripPrefix, h]
  rfl

/-- A text does not start with characters it does not have. -/
theorem startsWith_eq_false {p s : String} {c : Char} (hp : c ∈ p.toList) (hs : c ∉ s.toList) :
    startsWith s p = false := by
  apply Bool.eq_false_iff.mpr
  intro h
  exact hs ((List.isPrefixOf_iff_prefix.mp h).subset hp)

theorem notMem_isHex64 {cs : List Char} {c : Char} (h : isHex64 cs) (hc : isLowerHex c = false) :
    c ∉ cs := by
  simp only [isHex64, Bool.and_eq_true, List.all_eq_true] at h
  intro hmem
  rw [h.2 c hmem] at hc
  cases hc

/-- Optional text before the digits. -/
theorem notMem_append {a b : String} {c : Char} (ha : c ∉ a.toList) (hb : c ∉ b.toList) :
    c ∉ (a ++ b).toList := by
  rw [String.toList_append, List.mem_append, not_or]
  exact ⟨ha, hb⟩

section
variable [Runtime]

/-- The text is the digest, after a scheme that `normalizeHash` knows, in any case and with white
space around it. -/
def Denotes (text digest : String) : Prop :=
  isHex64 digest.toList ∧ ∃ scheme ∈ ["", "sha256:", "sha-256:"], ∃ radix ∈ ["", "0x"],
    toLowerCase (trim text) = scheme ++ (radix ++ digest)

omit [Runtime] in
theorem stripPrefix_radix {radix digest : String} (hdigest : isHex64 digest.toList)
    (hradix : radix ∈ ["", "0x"]) : stripPrefix "0x" (radix ++ digest) = digest := by
  have hx : startsWith digest "0x" = false :=
    startsWith_eq_false (c := 'x') (by decide) (notMem_isHex64 hdigest rfl)
  simp only [List.mem_cons, List.not_mem_nil, or_false] at hradix
  rcases hradix with rfl | rfl
  · rw [String.empty_append, stripPrefix_of_not hx]
  · exact stripPrefix_append "0x" digest

/-- A text denotes the digest it is normalised to, and no other. -/
theorem denotes_iff {text digest : String} :
    Denotes text digest ↔ isHex64 digest.toList ∧ normalizeHash text = digest := by
  constructor
  · rintro ⟨hdigest, scheme, hscheme, radix, hradix, htext⟩
    refine ⟨hdigest, ?_⟩
    have hnotMem {c : Char} (hc : isLowerHex c = false) (hx : c ≠ 'x') :
        c ∉ (radix ++ digest).toList := by
      apply notMem_append _ (notMem_isHex64 hdigest hc)
      simp only [List.mem_cons, List.not_mem_nil, or_false] at hradix
      rcases hradix with rfl | rfl
      · exact List.not_mem_nil
      · intro h
        simp only [String.reduceToList, List.mem_cons, List.not_mem_nil, or_false] at h
        rcases h with rfl | h
        · cases hc
        · exact hx h
    unfold normalizeHash
    dsimp only
    rw [htext]
    simp only [List.mem_cons, List.not_mem_nil, or_false] at hscheme
    rcases hscheme with rfl | rfl | rfl
    · have hs : 's' ∉ (radix ++ digest).toList := hnotMem rfl (by decide)
      have hdash : startsWith (radix ++ digest) "sha-256:" = false :=
        startsWith_eq_false (c := 's') (by decide) hs
      have hsha : startsWith (radix ++ digest) "sha256:" = false :=
        startsWith_eq_false (c := 's') (by decide) hs
      rw [String.empty_append, hdash, if_neg Bool.false_ne_true, stripPrefix_of_not hsha,
        stripPrefix_radix hdigest hradix]
    · have hdash : startsWith ("sha256:" ++ (radix ++ digest)) "sha-256:" = false :=
        startsWith_eq_false (c := '-') (by decide)
          (notMem_append (by decide) (hnotMem rfl (by decide)))
      rw [hdash, if_neg Bool.false_ne_true, stripPrefix_append, stripPrefix_radix hdigest hradix]
    · rw [startsWith_append, if_pos rfl, stripPrefix_append, stripPrefix_radix hdigest hradix]
  · rintro ⟨hdigest, hnormal⟩
    refine ⟨hdigest, ?_⟩
    unfold normalizeHash at hnormal
    dsimp only at hnormal
    have hradix (w : String) (h : stripPrefix "0x" w = digest) :
        ∃ radix ∈ ["", "0x"], w = radix ++ digest := by
      cases hx : startsWith w "0x" with
      | true => exact ⟨"0x", by simp, by rw [← h, append_stripPrefix hx]⟩
      | false => exact ⟨"", by simp, by rw [← h, stripPrefix_of_not hx, String.empty_append]⟩
    obtain ⟨radix, hmem, hrest⟩ := hradix _ hnormal
    split at hrest
    case isTrue hdash => exact ⟨"sha-256:", by simp, radix, hmem, by rw [← hrest, append_stripPrefix hdash]⟩
    case isFalse =>
      cases hsha : startsWith (toLowerCase (trim text)) "sha256:" with
      | true => exact ⟨"sha256:", by simp, radix, hmem, by rw [← hrest, append_stripPrefix hsha]⟩
      | false =>
        refine ⟨"", by simp, radix, hmem, ?_⟩
        rw [← hrest, stripPrefix_of_not hsha, String.empty_append]

/-! ## What a valid verdict rests on -/

theorem dataset_of_manifestOf {value : Option Json} {manifest : EvidenceManifest}
    (h : manifestOf value = .ok (some manifest)) : field value "dataset" = some manifest.dataset := by
  unfold manifestOf at h
  split at h
  · rename_i hdataset
    split at h
    case isTrue =>
      obtain ⟨path, -, h⟩ := Except.bind_eq_ok.mp h
      split at h
      case isTrue => cases Except.pure_eq_ok.mp h
      case isFalse =>
        obtain ⟨byteLength, -, h⟩ := Except.bind_eq_ok.mp h
        split at h
        case isTrue => cases Except.pure_eq_ok.mp h
        case isFalse =>
          obtain rfl := Option.some.inj (Except.pure_eq_ok.mp h)
          exact hdataset
    case isFalse => cases h
  · cases h

omit [Runtime] in
theorem entryIs_string {entry : Json} {k s : String} (h : entryIs entry k (.string s)) :
    entry.get? k = some (.string s) := by
  unfold entryIs at h
  cases hk : entry.get? k with
  | none => rw [hk] at h; cases h
  | some v =>
    rw [hk, Option.any_some] at h
    cases v with
    | string t =>
      simp only [strictEq, beq_iff_eq] at h
      rw [h]
    | null => cases h
    | bool b => cases h
    | number x => cases h
    | array items => cases h
    | object fields => cases h

omit [Runtime] in
theorem entryIs_number {entry : Json} {k : String} {x : Number} (h : entryIs entry k (.number x)) :
    entry.get? k = some (.number x) := by
  unfold entryIs at h
  cases hk : entry.get? k with
  | none => rw [hk] at h; cases h
  | some v =>
    rw [hk, Option.any_some] at h
    cases v with
    | number y =>
      simp only [strictEq, Bool.and_eq_true, beq_iff_eq] at h
      rw [h.2]
    | null => cases h
    | bool b => cases h
    | string s => cases h
    | array items => cases h
    | object fields => cases h

variable {config : EvidenceConfig} {twinId : String} {rawDatasets : List Json}
  {events : List TwinEvent} {input : Option Json} {v : Validation}

/-- What a verdict is computed from. -/
theorem validateBundle_eq_ok (h : validateBundle config twinId rawDatasets events input = .ok v) :
    ∃ manifest datasets payloadHash filePath fileHash fileSize,
      manifestOf (field input "manifest") = .ok (some manifest) ∧
      rawDatasets.mapM datasetOf = .ok datasets ∧
      manifest.dataset.get? "payloadHash" = some (.string payloadHash) ∧
      textOf? (field (field input "file") "path") = some filePath ∧
      textOf? (field (field input "file") "sha256") = some fileHash ∧
      toNumber? (field (field input "file") "byteLength") = some fileSize ∧
      v.valid = ((contextChecksOf config twinId manifest).every &&
        (checksOf manifest (field input "file") filePath (normalizeHash fileHash) fileSize
          (findDataset datasets manifest) (findEvent events manifest)
          (normalizeHash payloadHash)).every) := by
  unfold validateBundle at h
  dsimp only at h
  obtain ⟨found, hmanifest, h⟩ := Except.bind_eq_ok.mp h
  cases found with
  | none => cases h
  | some manifest =>
    obtain ⟨datasets, hdatasets, h⟩ := Except.bind_eq_ok.mp h
    obtain ⟨payloadHash, hhash, h⟩ := Except.bind_eq_ok.mp h
    obtain ⟨filePath, hpath, h⟩ := Except.bind_eq_ok.mp h
    obtain ⟨fileHash, hfile, h⟩ := Except.bind_eq_ok.mp h
    obtain ⟨fileSize, hsize, h⟩ := Except.bind_eq_ok.mp h
    obtain ⟨assessmentChecks, -, h⟩ := Except.bind_eq_ok.mp h
    obtain rfl := Except.pure_eq_ok.mp h
    refine ⟨manifest, datasets, payloadHash, filePath, fileHash, fileSize, hmanifest, hdatasets, ?_,
      conversion_eq_ok.mp hpath, conversion_eq_ok.mp hfile, conversion_eq_ok.mp hsize, rfl⟩
    have hstring := conversion_eq_ok.mp hhash
    unfold asString? at hstring
    split at hstring
    · rename_i heq
      rw [heq, Option.some.inj hstring]
    · cases hstring

variable (config twinId rawDatasets events input) in
/-- A verdict is given when all that it is computed from is there. -/
theorem exists_verdict (manifest : EvidenceManifest) (datasets : List Dataset) {payloadHash filePath fileHash : String}
    {fileSize : Number} (hmanifest : manifestOf (field input "manifest") = .ok (some manifest))
    (hdatasets : rawDatasets.mapM datasetOf = .ok datasets)
    (hhash : manifest.dataset.get? "payloadHash" = some (.string payloadHash))
    (hpath : textOf? (field (field input "file") "path") = some filePath)
    (hfile : textOf? (field (field input "file") "sha256") = some fileHash)
    (hsize : toNumber? (field (field input "file") "byteLength") = some fileSize)
    (hassessed : Assessed manifest (field input "file")) :
    ∃ v, validateBundle config twinId rawDatasets events input = .ok v ∧
      v.valid = ((contextChecksOf config twinId manifest).every &&
        (checksOf manifest (field input "file") filePath (normalizeHash fileHash) fileSize
          (findDataset datasets manifest) (findEvent events manifest) (normalizeHash payloadHash)).every) := by
  obtain ⟨assessmentChecks, hchecks⟩ := (exists_assessment hmanifest hassessed.path).mpr hassessed
  have hstring : conversion (asString? (manifest.dataset.get? "payloadHash")) = .ok payloadHash := by
    rw [hhash]
    rfl
  refine ⟨_, Except.bind_eq_ok.mpr ⟨_, hmanifest, Except.bind_eq_ok.mpr ⟨_, hdatasets, Except.bind_eq_ok.mpr ⟨_, hstring,
    Except.bind_eq_ok.mpr ⟨_, conversion_eq_ok.mpr hpath, Except.bind_eq_ok.mpr ⟨_, conversion_eq_ok.mpr hfile,
      Except.bind_eq_ok.mpr ⟨_, conversion_eq_ok.mpr hsize, Except.bind_eq_ok.mpr ⟨_, hchecks, rfl⟩⟩⟩⟩⟩⟩⟩, rfl⟩

/-! ## Soundness -/

/-- What a valid verdict says of a manifest, a file, a dataset and an event. -/
structure Agrees (config : EvidenceConfig) (twinId : String) (manifest : EvidenceManifest)
    (file : Option Json) (dataset : Dataset) (event : TwinEvent) (digest : String) : Prop where
  fileDigest : ∃ text, textOf? (field file "sha256") = some text ∧ Denotes text digest
  manifestDigest : ∃ text, manifest.dataset.get? "payloadHash" = some (.string text) ∧
    Denotes text digest
  datasetDigest : Denotes dataset.payloadHash digest
  eventDigest : Denotes event.payloadHash digest
  sameTwin : toLowerCase manifest.twinId = toLowerCase twinId
  sameNetwork : manifest.network = config.network
  samePackage : toLowerCase manifest.packageId = toLowerCase config.packageId
  samePath : ∃ path, manifest.dataset.get? "path" = some (.string path) ∧
    textOf? (field file "path") = some path
  sameLength : ∃ n, manifest.dataset.get? "byteLength" = some (.number n) ∧
    toNumber? (field file "byteLength") = some n

/-- The manifest names a dataset of the chain and an event of it, and all of them and the file have
one digest. -/
def Sound (config : EvidenceConfig) (twinId : String) (rawDatasets : List Json)
    (events : List TwinEvent) (input : Option Json) : Prop :=
  ∃ manifest dataset event digest, manifestOf (field input "manifest") = .ok (some manifest) ∧
    (∃ raw ∈ rawDatasets, datasetOf raw = .ok dataset) ∧
    toLowerCase dataset.objectId = toLowerCase manifest.snapshotDatasetId ∧
    event ∈ events ∧ event.eventType = DATASET_EVENT ∧
    toLowerCase event.payloadRef = toLowerCase manifest.snapshotDatasetId ∧
    Agrees config twinId manifest (field input "file") dataset event digest

/-- The manifest's entry has a digest as its payload hash. -/
def HasDigest (input : Option Json) : Prop :=
  ∃ text digest, field (field (field input "manifest") "dataset") "payloadHash" = some (.string text) ∧
    Denotes text digest

/-- Evidence that is reported valid is sound exactly when the payload hash of the manifest is a
digest at all. -/
theorem validateBundle_sound (h : validateBundle config twinId rawDatasets events input = .ok v)
    (hvalid : v.valid = true) :
    Sound config twinId rawDatasets events input ↔ HasDigest input := by
  constructor
  · rintro ⟨manifest, dataset, event, digest, hmanifest, -, -, -, -, -, hagrees⟩
    obtain ⟨text, htext, hdenotes⟩ := hagrees.manifestDigest
    refine ⟨text, digest, ?_, hdenotes⟩
    rw [dataset_of_manifestOf hmanifest]
    exact htext
  · rintro ⟨text, digest, htext, hdenotes⟩
    obtain ⟨manifest, datasets, payloadHash, filePath, fileHash, fileSize, hmanifest, hdatasets,
      hhash, hpath, hfile, hsize, hchecks⟩ := validateBundle_eq_ok h
    rw [dataset_of_manifestOf hmanifest] at htext
    obtain rfl := Json.string.inj (Option.some.inj (hhash.symm.trans htext))
    obtain ⟨hdigest, hnormal⟩ := denotes_iff.mp hdenotes
    rw [hvalid, hnormal] at hchecks
    cases hdataset : findDataset datasets manifest with
    | none => simp [hdataset, Checks.every, checksOf] at hchecks
    | some dataset =>
      cases hevent : findEvent events manifest with
      | none => simp [hdataset, hevent, Checks.every, checksOf] at hchecks
      | some event =>
        have hall := hchecks.symm
        simp only [hdataset, hevent, ContextChecks.every, contextChecksOf, Checks.every, checksOf,
          Option.any_some, Option.isSome_some, Bool.true_and, Bool.and_true, Bool.and_eq_true,
          beq_iff_eq, sameId] at hall
        obtain ⟨⟨⟨htwin, hnetwork⟩, hpackage⟩, hchain, hlength⟩ := hall
        obtain ⟨⟨⟨⟨⟨hdata, -⟩, hdatum⟩, -⟩, hsame⟩, hfileHash⟩ := hchain
        obtain ⟨raw, hraw, hread⟩ := (Except.mem_of_mapM_eq_ok hdatasets _).mp (List.mem_of_find?_eq_some hdataset)
        have hid := List.find?_some hdataset
        have href := List.find?_some hevent
        simp only [sameId, Bool.and_eq_true, beq_iff_eq] at hid href
        refine ⟨manifest, dataset, event, digest, hmanifest, ⟨raw, hraw, hread⟩, hid,
          List.mem_of_find?_eq_some hevent, href.1, href.2, ?_⟩
        exact {
          fileDigest := ⟨fileHash, hfile, denotes_iff.mpr ⟨hdigest, hfileHash⟩⟩
          manifestDigest := ⟨payloadHash, hhash, hdenotes⟩
          datasetDigest := denotes_iff.mpr ⟨hdigest, hdata⟩
          eventDigest := denotes_iff.mpr ⟨hdigest, hdatum.trans hdata⟩
          sameTwin := htwin
          sameNetwork := hnetwork
          samePackage := hpackage
          samePath := ⟨filePath, entryIs_string hsame, hpath⟩
          sameLength := ⟨fileSize, entryIs_number hlength, hsize⟩ }

end

/-! ## A sample -/

def testnet : EvidenceConfig where
  network := "testnet"
  packageId := "0x2"

/-- The dataset of the chain, with a payload hash. -/
def sampleDataset (payloadHash : String) : Json :=
  .object [("objectId", .string (objectId '2')),
    ("fields", .object [("storage_uri", .string "u"), ("payload_hash", .string payloadHash)])]

def anchorEvent (payloadHash : String) : TwinEvent :=
  { sampleEvent 1 with eventType := DATASET_EVENT, payloadRef := objectId '2', payloadHash }

/-- A file of three bytes and its manifest, with a payload hash. -/
def submittedBundle (payloadHash : String) : Json :=
  let entry := .object [("datasetObjectId", .string (objectId '2')), ("storageUri", .string "u"),
    ("path", .string "data/d.json"), ("payloadHash", .string payloadHash), ("byteLength", .number 3),
    ("periodFrom", .number 0), ("periodTo", .number 0)]
  .object [("manifest", .object [("format", .string BUNDLE_FORMAT), ("network", .string "testnet"),
      ("packageId", .string "0x2"), ("twinId", .string (objectId '1')),
      ("snapshotDatasetId", .string (objectId '2')), ("dataset", entry)]),
    ("file", .object [("path", .string "data/d.json"), ("sha256", .string payloadHash),
      ("byteLength", .number 3)])]

/-- Whatever the payload hash is, the bundle is valid for a dataset and an event with the same one. -/
theorem valid_submittedBundle (payloadHash : String) :
    ∃ v, @validateBundle Runtime.ascii testnet (objectId '1') [sampleDataset payloadHash] [anchorEvent payloadHash]
      (some (submittedBundle payloadHash)) = .ok v ∧ v.valid = true := by
  let runtime : Runtime := Runtime.ascii
  have hself (id : String) : sameId id id = true := beq_self_eq_true _
  have hnumber (n : Nat) : Converts (some (.number n)) := fun w hw => ⟨_, by obtain rfl := Option.some.inj hw; rfl⟩
  obtain ⟨v, hv, hvalid⟩ := exists_verdict testnet (objectId '1') [sampleDataset payloadHash]
    [anchorEvent payloadHash] (some (submittedBundle payloadHash))
    ⟨objectId '1', "0x2", "testnet", objectId '2', _⟩ [⟨objectId '2', "dataset", "u", payloadHash, 0, 0, 0⟩]
    rfl rfl rfl rfl rfl rfl
    ⟨converts_string _, hnumber 0, hnumber 0, converts_string _, hnumber 3⟩
  refine ⟨v, hv, hvalid.trans ?_⟩
  simp [contextChecksOf, ContextChecks.every, hself, checksOf, Checks.every, findDataset, findEvent, anchorEvent, testnet,
    entryIs, Json.get?, Record.get?_cons, Json.strictEq]
  exact ⟨⟨(fun h => by cases h), rfl⟩, (fun h => by cases h)⟩

/-- A bundle with a digest is valid and sound. -/
theorem validateBundle_sound_digest :
    @Sound Runtime.ascii testnet (objectId '1') [sampleDataset (.ofList (.replicate 64 '0'))]
      [anchorEvent (.ofList (.replicate 64 '0'))]
      (some (submittedBundle (.ofList (.replicate 64 '0')))) := by
  let runtime : Runtime := Runtime.ascii
  obtain ⟨v, hv, hvalid⟩ := valid_submittedBundle (.ofList (.replicate 64 '0'))
  apply (validateBundle_sound hv hvalid).mpr
  exact ⟨_, .ofList (.replicate 64 '0'), rfl, denotes_iff.mpr (by decide +kernel)⟩

/-- A bundle whose hashes are all the text `abc` is valid, and nothing in it is a digest. -/
theorem validateBundle_valid_without_digest :
    (∃ v, @validateBundle Runtime.ascii testnet (objectId '1') [sampleDataset "abc"] [anchorEvent "abc"]
      (some (submittedBundle "abc")) = .ok v ∧ v.valid = true) ∧
    ¬ @Sound Runtime.ascii testnet (objectId '1') [sampleDataset "abc"] [anchorEvent "abc"]
      (some (submittedBundle "abc")) := by
  let runtime : Runtime := Runtime.ascii
  constructor
  · exact valid_submittedBundle "abc"
  · rintro ⟨manifest, dataset, event, digest, -, -, -, hevent, -, -, hagrees⟩
    obtain rfl := List.mem_singleton.mp hevent
    obtain ⟨hdigest, hnormal⟩ := denotes_iff.mp hagrees.eventDigest
    rw [← hnormal] at hdigest
    revert hdigest
    decide

end Evidence
