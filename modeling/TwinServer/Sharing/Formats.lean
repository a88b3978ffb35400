-- SUMMARY: The files of a dataset: its samples as JSON and as comma-separated values, and a manifest of both.
import TwinServer.Base.Csv
import TwinServer.Base.Date
import TwinServer.Sharing.Datasets

/-!
# The files of a dataset

`prepare` of `src/sharing/datasets.ts` writes what was collected as `data.json` and as `data.csv`, and describes
both in a manifest, which is signed later.
-/

open Js Js.Json Thread Storage Evidence

namespace Sharing

open DATASET_LIMITS

/-! ## The files -/

/-- The parts of a request that its files show. -/
structure DatasetJob where
  id : String
  twinId : String
  ownerDid : String
  revision : String
  selection : DatasetSelection

/-- The network and the package of the server. -/
structure Deployment where
  network : String
  packageId : String

structure ExportFiles where
  json : Bytes
  csv : Bytes
  manifest : Json

def DatasetSelection.fields (selection : DatasetSelection) : List (String × Json) :=
  [("fromTimestamp", .number selection.fromTimestamp), ("toTimestamp", .number selection.toTimestamp)] ++
    match selection.measurements with
    | some keys => [("measurements", .array (keys.map .string))]
    | none => []

def Sample.json (sample : Sample) : Json :=
  .object [("observedAt", .number sample.observedAt), ("value", sample.value),
    ("sourceHash", .string sample.sourceHash)]

def DatasetSource.json (source : DatasetSource) : Json :=
  .object [("sha256", .string source.sha256), ("byteLength", .number source.byteLength),
    ("selectedSamples", .number source.selectedSamples)]

/-- What `data.json` holds. -/
def dataJson (twinId : String) (selection : DatasetSelection) (samples : List Sample) : Json :=
  .object [("format", .string "objectid.shared-telemetry.v1"), ("twinId", .string twinId),
    ("selection", .object selection.fields), ("samples", .array (samples.map Sample.json))]

def csvCell (value : String) : String := "\"" ++ replaceAll value "\"" "\"\"" ++ "\""

def csvHeader : List String := ["observed_at_ms", "observed_at_utc", "source_sha256", "value_json"]

def csvRow [Runtime] (sample : Sample) : Except CollectError String :=
  match toISOString sample.observedAt with
  | some iso => .ok (numberToString sample.observedAt ++ "," ++ iso ++ "," ++ sample.sourceHash ++ "," ++
      csvCell sample.value.stringify)
  | none => .error .range

/-- What `data.csv` holds. -/
def dataCsv [Runtime] (samples : List Sample) : Except CollectError String := do
  let rows ← samples.mapM csvRow
  return "observed_at_ms,observed_at_utc,source_sha256,value_json\r\n" ++ "\r\n".intercalate rows ++ "\r\n"

def fileJson (path digest : String) (byteLength : Nat) : Json :=
  .object [("path", .string path), ("sha256", .string digest), ("byteLength", .number byteLength)]

/-- The measurements an export may hold. -/
def measures (rights : Rights) : Json :=
  if rights.owner || rights.reader.any (·.allMeasurements) then .string "all"
  else .array (rights.reader.elim [] fun r => r.measurements.map .string)

/-- The value is a declared simulation. -/
def isSynthetic (value : Json) : Bool := syntheticFlag value = some true

def classificationNote : String :=
  "Synthetic flags are source declarations. Unmarked or encrypted samples are not assumed to be real."

def integrityNote : String :=
  "The Integration Server signs this export manifest. This is not an owner signature or an on-chain provenance " ++
    "attestation."

def limitations : List String :=
  ["Only retained, flushed telemetry windows are included; gaps and expired data are not reconstructed.",
    "Encrypted sources require authorized source-side filtering; unfilterable sources are denied.",
    "No private storage URI or storage credentials are included."]

/-- The manifest, before it is signed. -/
def manifestOf (digest : Bytes → String) (job : DatasetJob) (deployment : Deployment) (rights : Rights)
    (generatedAt : String) (samples : List Sample) (sources : List DatasetSource) (json csv : Bytes) : Json :=
  .object [("format", .string "objectid.shared-dataset-manifest.v2"), ("datasetId", .string job.id),
    ("generatedAt", .string generatedAt), ("twinId", .string job.twinId), ("ownerDid", .string job.ownerDid),
    ("network", .string deployment.network), ("packageId", .string deployment.packageId),
    ("accessPolicy", .object [("revision", .string job.revision), ("measures", measures rights),
      ("scope", .string "export")]),
    ("selection", .object (job.selection.fields ++ [("timestampUnit", .string "unix-milliseconds"),
      ("timestampField", .string "observedAt"), ("inclusive", .bool true)])),
    ("observedPeriod", .object [
      ("fromTimestamp", (samples.head?.elim .null fun sample => .number sample.observedAt)),
      ("toTimestamp", (samples.getLast?.elim .null fun sample => .number sample.observedAt))]),
    ("sampleCount", .number samples.length), ("sourceWindowCount", .number sources.length),
    ("sources", .array (sources.map DatasetSource.json)),
    ("dataClassification", .object [
      ("declaredSyntheticSamples", .number (samples.countP fun sample => isSynthetic sample.value)),
      ("encryptedSamples", .number (samples.countP fun sample => encryptedFlag sample.value)),
      ("otherSamples", .number (samples.length - samples.countP fun sample => isSynthetic sample.value)),
      ("note", .string classificationNote)]),
    ("integrity", .object [("algorithm", .string "SHA-256"), ("scope", .string "uncompressed-file-bytes"),
      ("onChainAnchored", .bool false), ("note", .string integrityNote)]),
    ("files", .array [fileJson "data.json" (digest json) json.length, fileJson "data.csv" (digest csv) csv.length]),
    ("limitations", .array (limitations.map .string))]

/-- The part of `prepare` that makes the files of what was collected, at a time. -/
def exportFiles [Runtime] (digest : Bytes → String) (job : DatasetJob) (deployment : Deployment) (rights : Rights)
    (now : Nat) (samples : List Sample) (sources : List DatasetSource) : Except CollectError ExportFiles := do
  let json := utf8 (dataJson job.twinId job.selection samples).stringify
  let csv ← dataCsv samples
  let csv := utf8 csv
  throwIf (maxArchiveBytes < json.length + csv.length) outputTooLarge
  match toISOString now with
  | some generatedAt =>
    return ⟨json, csv, manifestOf digest job deployment rights generatedAt samples sources json csv⟩
  | none => .error .range

/-! ## Cells and rows -/

theorem replaceFrom_quote (before cs : List Char) :
    replaceFrom ['"'] ['"', '"'] 0 before cs = cs.flatMap Csv.escape := by
  induction cs generalizing before with
  | nil => rfl
  | cons c cs ih =>
    by_cases hc : c = '"'
    · subst hc
      simp [replaceFrom, expand, Csv.escape, ih]
    · simp [replaceFrom, Csv.escape, hc, Ne.symm hc, ih]

theorem toList_csvCell (value : String) :
    (csvCell value).toList = '"' :: (value.toList.flatMap Csv.escape ++ ['"']) := by
  have hreplace : (replaceAll value "\"" "\"\"").toList = value.toList.flatMap Csv.escape := by
    rw [replaceAll, String.toList_ofList]
    exact replaceFrom_quote [] value.toList
  rw [csvCell, String.toList_append, String.toList_append, hreplace]
  rfl

section
variable [Runtime]

/-- The fields that are read of the row of a sample. -/
def FieldsOf (sample : Sample) (fields : List String) : Prop :=
  ∃ iso, toISOString sample.observedAt = some iso ∧
    fields = [sample.observedAt.repr, iso, sample.sourceHash, sample.value.stringify]

/-- A sample that can be written: its time is safe, and its digest is one. -/
structure Writable (sample : Sample) : Prop where
  safe : sample.observedAt ≤ Number.maxSafe
  hash : sample.sourceHash.toList.all isLowerHex

theorem csvRow_eq_ok {sample : Sample} {row : String} (hsample : Writable sample) (h : csvRow sample = .ok row) :
    ∃ fields texts, FieldsOf sample fields ∧ row.toList = Csv.joined texts ∧ Csv.IsRow texts fields := by
  unfold csvRow at h
  split at h
  case h_1 iso hiso =>
    obtain rfl := Except.ok.inj h
    refine ⟨_, [sample.observedAt.repr.toList, iso.toList, sample.sourceHash.toList,
      (csvCell sample.value.stringify).toList], ⟨iso, hiso, rfl⟩, ?_, List.cons_ne_nil _ _, ?_⟩
    · have hcomma : ",".toList = [','] := rfl
      rw [Runtime.numberToString_nat _ hsample.safe]
      simp [String.toList_append, Csv.joined, hcomma]
    · have hdigits : sample.observedAt.repr.toList.all Char.isDigit :=
        List.all_eq_true.mpr fun c hc => isDigit_of_mem_repr hc
      have hcell : Csv.Field (csvCell sample.value.stringify).toList sample.value.stringify := by
        rw [toList_csvCell]
        exact .quoted _
      refine .cons (Csv.field_of_all (by decide) hdigits) (.cons ?_ (.cons ?_ (.cons hcell .nil)))
      · exact Csv.field_of_all (by decide) (all_toISOString hiso)
      · exact Csv.field_of_all (by decide) hsample.hash
  case h_2 => cases h

theorem csvRows_eq_ok {samples : List Sample} {rows : List String} (hsamples : ∀ sample ∈ samples, Writable sample)
    (h : List.Forall₂ (fun sample row => csvRow sample = .ok row) samples rows) :
    ∃ records texts, List.Forall₂ FieldsOf samples records ∧ rows.map String.toList = texts.map Csv.joined ∧
      List.Forall₂ Csv.IsRow texts records := by
  induction h with
  | nil => exact ⟨[], [], .nil, rfl, .nil⟩
  | @cons sample row samples rows hrow _ ih =>
    obtain ⟨hsample, hsamples⟩ := List.forall_mem_cons.mp hsamples
    obtain ⟨fields, text, hfields, htext, hisRow⟩ := csvRow_eq_ok hsample hrow
    obtain ⟨records, texts, hrecords, htexts, hisRows⟩ := ih hsamples
    refine ⟨fields :: records, text :: texts, .cons hfields hrecords, ?_, .cons hisRow hisRows⟩
    rw [List.map_cons, List.map_cons, htext, htexts]

/-- The file of values is read as a header and one record for each sample. -/
theorem dataCsv_eq_ok {samples : List Sample} (hne : samples ≠ []) (hsamples : ∀ sample ∈ samples, Writable sample)
    {csv : String} (h : dataCsv samples = .ok csv) :
    ∃ records, Csv.parse csv = some (csvHeader :: records) ∧ List.Forall₂ FieldsOf samples records := by
  obtain ⟨rows, hrows, h⟩ := Except.bind_eq_ok.mp h
  obtain rfl := Except.pure_eq_ok.mp h
  have hrows := Except.mapM_eq_ok.mp hrows
  obtain ⟨records, texts, hrecords, htexts, hisRows⟩ := csvRows_eq_ok hsamples hrows
  refine ⟨records, ?_, hrecords⟩
  have hheader : Csv.IsRow (csvHeader.map String.toList) csvHeader := by
    refine ⟨by decide, ?_⟩
    rw [List.forall₂_map_left_iff, List.forall₂_same]
    have htext : ∀ name ∈ csvHeader, name.toList.all Csv.isText := by decide
    exact fun name hname => Csv.field_of_all (by decide) (htext name hname)
  have hnonempty : rows.map String.toList ≠ [] := by
    intro hnil
    obtain rfl := List.map_eq_nil_iff.mp hnil
    cases hrows
    exact hne rfl
  have hfile : ("observed_at_ms,observed_at_utc,source_sha256,value_json\r\n" ++ "\r\n".intercalate rows ++
      "\r\n").toList = (csvHeader.map String.toList :: texts).flatMap fun text => Csv.joined text ++ ['\r', '\n'] := by
    have hbreak : "\r\n".toList = ['\r', '\n'] := rfl
    have hfirst : "observed_at_ms,observed_at_utc,source_sha256,value_json\r\n".toList =
        Csv.joined (csvHeader.map String.toList) ++ ['\r', '\n'] := by decide
    rw [String.toList_append, String.toList_append, String.toList_intercalate, hbreak, List.append_assoc,
      Csv.intercalate_append hnonempty, hfirst, List.flatMap_cons, htexts, List.flatMap_map]
  rw [Csv.parse, hfile]
  exact Csv.parseFrom_rows (.cons hheader hisRows)

end

/-! ## The files together -/

theorem safeNat?_le {x : Number} {n : Nat} (h : x.safeNat? = some n) : n ≤ Number.maxSafe := by
  unfold Number.safeNat? at h
  split at h
  · split at h
    case isTrue hle => exact Option.some.inj h ▸ hle
    case isFalse => cases h
  · cases h

theorem observation_safe {raw value : Json} {observedAt : Nat} (h : observation raw = .ok (observedAt, value)) :
    observedAt ≤ Number.maxSafe := by
  unfold observation at h
  split at h
  case h_1 t v ht hv =>
    obtain ⟨rfl, rfl⟩ := Prod.mk.inj (Except.ok.inj h)
    obtain ⟨x, -, hx⟩ := Option.bind_eq_some_iff.mp ht
    exact safeNat?_le hx
  case h_2 => cases h

section
variable [Services] {text : Bytes → String} {parse : String → Option Json} {digest : Bytes → String}
variable {s : Retained} {twinId : String} {selection : DatasetSelection} {rights : Rights} {scope : Nat}
variable {samples : List Sample} {sources : List DatasetSource}

theorem writable_of_collected (hhex : ∀ bytes, (digest bytes).toList.all isLowerHex) {items : List ListedObject}
    {pairs : List (ListedObject × Nat)}
    (h : Collected text parse digest s twinId selection rights scope items samples pairs) :
    ∀ sample ∈ samples, Writable sample := by
  obtain ⟨-, -, hcarried⟩ := h
  induction hcarried with
  | nil => exact nofun
  | @cons p sample pairs samples hp _ ih =>
    obtain ⟨bytes, raws, raw, -, -, hhash, value, hobserved, -⟩ := hp
    refine List.forall_mem_cons.mpr ⟨⟨observation_safe hobserved, ?_⟩, ih⟩
    rw [hhash]
    exact hhex bytes

/-! ### The samples as JSON -/

omit [Services] in
theorem get?_written_json (sample : Sample) :
    (written sample.json).get? "observedAt" = some (.number sample.observedAt) ∧
      (written sample.json).get? "value" = some (written sample.value) ∧
      (written sample.json).get? "sourceHash" = some (.string sample.sourceHash) := by
  have hfinite : (Number.ofNat sample.observedAt).isFinite = true := rfl
  unfold Sample.json
  refine ⟨?_, ?_, ?_⟩
  · rw [get?_written]
    simp [Record.get?_cons, written, hfinite]
  · rw [get?_written]
    simp [Record.get?_cons]
  · rw [get?_written]
    simp [Record.get?_cons, written]

omit [Services] in
theorem written_dataJson (twinId : String) (selection : DatasetSelection) (samples : List Sample) :
    (written (dataJson twinId selection samples)).get? "samples" =
      some (.array (samples.map fun sample => written sample.json)) := by
  rw [dataJson, get?_written]
  simp [Record.get?_cons, written, writtenItems_eq, Function.comp_def]

/-! ### The manifest -/

/-- What a manifest says of the files. -/
structure Manifested (digest : Bytes → String) (samples : List Sample) (sources : List DatasetSource)
    (json csv : Bytes) (manifest : Json) : Prop where
  sampleCount : manifest.get? "sampleCount" = some (.number samples.length)
  observedPeriod : ∀ first ∈ samples.head?, ∀ last ∈ samples.getLast?, manifest.get? "observedPeriod" =
    some (.object [("fromTimestamp", .number first.observedAt), ("toTimestamp", .number last.observedAt)])
  files : manifest.get? "files" = some (.array
    [fileJson "data.json" (digest json) json.length, fileJson "data.csv" (digest csv) csv.length])
  sourceWindowCount : manifest.get? "sourceWindowCount" = some (.number sources.length)
  sources : manifest.get? "sources" = some (.array (sources.map DatasetSource.json))

variable {job : DatasetJob} {deployment : Deployment} {now : Nat} {files : ExportFiles}

theorem exportFiles_eq_ok (h : exportFiles digest job deployment rights now samples sources = .ok files) :
    files.json = utf8 (dataJson job.twinId job.selection samples).stringify ∧
      (∃ csv, dataCsv samples = .ok csv ∧ files.csv = utf8 csv) ∧ Manifested digest samples sources files.json files.csv files.manifest := by
  obtain ⟨csv, hcsv, h⟩ := Except.bind_eq_ok.mp h
  obtain ⟨-, -, h⟩ := Except.bind_eq_ok.mp h
  split at h
  case h_1 generatedAt _ =>
    obtain rfl := Except.pure_eq_ok.mp h
    refine ⟨?_, ⟨csv, hcsv, ?_⟩, ?_, ?_, ?_, ?_, ?_⟩
    · with_reducible rfl
    · with_reducible rfl
    · simp [manifestOf, Json.get?, Record.get?_cons]
    · intro first hfirst last hlast
      simp [manifestOf, Json.get?, Record.get?_cons, Option.mem_def.mp hfirst, Option.mem_def.mp hlast]
    · simp [manifestOf, Json.get?, Record.get?_cons]
    · simp [manifestOf, Json.get?, Record.get?_cons]
    · simp [manifestOf, Json.get?, Record.get?_cons]
  case h_2 => cases h

/-- Files that fit are made at every time that is a date. -/
theorem exists_exportFiles (digest : Bytes → String) (job : DatasetJob) (deployment : Deployment) (rights : Rights)
    (sources : List DatasetSource) {csv : String} (hcsv : dataCsv samples = .ok csv)
    (hfits : (utf8 (dataJson job.twinId job.selection samples).stringify).length + (utf8 csv).length ≤ maxArchiveBytes)
    (hnow : now ≤ maxTime) :
    ∃ files, exportFiles digest job deployment rights now samples sources = .ok files := by
  have htime : toISOString now = some (dayText (civil (now / 86400000)) ++ "T" ++ clockText now ++ "Z") := if_pos hnow
  let json := utf8 (dataJson job.twinId job.selection samples).stringify
  let generatedAt := dayText (civil (now / 86400000)) ++ "T" ++ clockText now ++ "Z"
  let files : ExportFiles :=
    ⟨json, utf8 csv, manifestOf digest job deployment rights generatedAt samples sources json (utf8 csv)⟩
  have hmade : exportFiles digest job deployment rights now samples sources = .ok files := by
    refine Except.bind_eq_ok.mpr ⟨csv, hcsv, Except.bind_eq_ok.mpr ⟨(), ?_, ?_⟩⟩
    · exact liftM_thrown_eq_ok.mpr (throwIf_eq_ok.mpr (decide_eq_false (Nat.not_lt.mpr hfits)))
    · rw [htime]
      rfl
  exact ⟨files, hmade⟩

omit [Services] in
/-- The first and the last of samples in the order of their times. -/
theorem bounds_of_pairwise (hne : samples ≠ []) (hsorted : samples.Pairwise fun a b => a.observedAt ≤ b.observedAt) :
    ∃ first last, samples.head? = some first ∧ samples.getLast? = some last ∧
      ∀ sample ∈ samples, first.observedAt ≤ sample.observedAt ∧ sample.observedAt ≤ last.observedAt := by
  refine ⟨samples.head hne, samples.getLast hne, List.head?_eq_some_head hne, List.getLast?_eq_some_getLast hne, ?_⟩
  intro sample hsample
  constructor
  · cases samples with
    | nil => cases hsample
    | cons first samples =>
      rcases List.mem_cons.mp hsample with rfl | hsample
      · exact Nat.le_refl _
      · exact (List.pairwise_cons.mp hsorted).1 sample hsample
  · obtain ⟨before, last, rfl⟩ := (List.eq_nil_or_concat' samples).resolve_left hne
    rw [List.getLast_append_singleton]
    rcases List.mem_append.mp hsample with hsample | hsample
    · exact (List.pairwise_append.mp hsorted).2.2 sample hsample last List.mem_cons_self
    · rw [List.mem_singleton.mp hsample]

omit [Services] in
theorem exists_record {records : List (List String)} [Runtime] (h : List.Forall₂ FieldsOf samples records) {i : Nat}
    {sample : Sample} (hi : samples[i]? = some sample) : ∃ record, records[i]? = some record ∧ FieldsOf sample record := by
  obtain ⟨hlength, hget⟩ := List.forall₂_iff_get.mp h
  obtain ⟨hlt, rfl⟩ := List.getElem?_eq_some_iff.mp hi
  exact ⟨records.get ⟨i, hlength ▸ hlt⟩, List.getElem?_eq_getElem _, hget i hlt (hlength ▸ hlt)⟩

omit [Services] in
/-- As many records carry a digest as samples do. -/
theorem countP_record {records : List (List String)} [Runtime] (h : List.Forall₂ FieldsOf samples records) (hash : String) :
    samples.countP (fun sample => sample.sourceHash = hash) = records.countP fun record => record[2]? = some hash := by
  induction h with
  | nil => rfl
  | cons hfields _ ih =>
    obtain ⟨iso, -, rfl⟩ := hfields
    rw [List.countP_cons, List.countP_cons, ih]
    simp

/-- **The formats agree.** The file of values is read as a header and one record for each sample, in their order,
with the time, its text, the digest, and the value that the file of JSON has for the sample. The manifest has the
number of the samples, the times of the first and the last one, the length and the digest of each file, and the
windows with the numbers of the records that carry their digests. -/
theorem formats_agree (hhex : ∀ bytes, (digest bytes).toList.all isLowerHex) (htext : ∀ t, text (utf8 t) = t)
    (hreads : Reads parse)
    (hcollected : collect text parse digest s twinId selection rights scope = .ok (samples, sources))
    (hfiles : exportFiles digest job deployment rights now samples sources = .ok files) :
    ∃ records items, Csv.parse (text files.csv) = some (csvHeader :: records) ∧
      (parse (text files.json)).bind (·.get? "samples") = some (.array items) ∧
      records.length = samples.length ∧ items.length = samples.length ∧
      (∀ (i : Nat) sample, samples[i]? = some sample → ∃ iso cell item,
        records[i]? = some [sample.observedAt.repr, iso, sample.sourceHash, cell] ∧
        toISOString sample.observedAt = some iso ∧ items[i]? = some item ∧
        item.get? "observedAt" = some (.number sample.observedAt) ∧
        item.get? "sourceHash" = some (.string sample.sourceHash) ∧
        (∃ value, parse cell = some value ∧ item.get? "value" = some value)) ∧
      files.manifest.get? "sampleCount" = some (.number records.length) ∧
      (∃ first last : Nat, files.manifest.get? "observedPeriod" =
          some (.object [("fromTimestamp", .number first), ("toTimestamp", .number last)]) ∧
        (∃ sample ∈ samples, sample.observedAt = first) ∧ (∃ sample ∈ samples, sample.observedAt = last) ∧
        ∀ sample ∈ samples, first ≤ sample.observedAt ∧ sample.observedAt ≤ last) ∧
      files.manifest.get? "files" = some (.array [fileJson "data.json" (digest files.json) files.json.length,
        fileJson "data.csv" (digest files.csv) files.csv.length]) ∧
      files.manifest.get? "sourceWindowCount" = some (.number sources.length) ∧
      files.manifest.get? "sources" = some (.array (sources.map DatasetSource.json)) ∧
      (sources.map (·.selectedSamples)).sum = records.length ∧
      ∀ hash, ((sources.filter (·.sha256 = hash)).map (·.selectedSamples)).sum =
        records.countP fun record => record[2]? = some hash := by
  obtain ⟨managed, hmanaged⟩ : ∃ managed, s.managed = some managed := by
    obtain ⟨managed, hlisting, -⟩ := Except.bind_eq_ok.mp hcollected
    cases hanswer : s.managed with
    | none => simp [awaited, hanswer] at hlisting
    | some listed => exact ⟨listed, rfl⟩
  obtain ⟨hne, hsorted, -, -, hlisted, pairs, hpairs⟩ := collect_eq_ok hmanaged hcollected
  obtain ⟨hjson, ⟨csv, hcsv, hbytes⟩, hmanifest⟩ := exportFiles_eq_ok hfiles
  obtain ⟨records, hparsed, hrecords⟩ := dataCsv_eq_ok hne (writable_of_collected hhex hpairs) hcsv
  obtain ⟨first, last, hfirst, hlast, hbounds⟩ := bounds_of_pairwise hne hsorted
  have hlength : records.length = samples.length := hrecords.length_eq.symm
  refine ⟨records, samples.map fun sample => written sample.json, ?_, ?_, hlength, List.length_map _, ?_, ?_, ?_,
    hmanifest.files, hmanifest.sourceWindowCount, hmanifest.sources, ?_, fun hash => ?_⟩
  · rw [hbytes, htext]
    exact hparsed
  · rw [hjson, htext, hreads]
    exact written_dataJson job.twinId job.selection samples
  · intro i sample hi
    obtain ⟨record, hrecord, iso, hiso, rfl⟩ := exists_record hrecords hi
    obtain ⟨hobservedAt, hvalue, hhash⟩ := get?_written_json sample
    refine ⟨iso, _, written sample.json, hrecord, hiso, ?_, hobservedAt, hhash, _, hreads _, hvalue⟩
    rw [List.getElem?_map, hi]
    rfl
  · rw [hlength]
    exact hmanifest.sampleCount
  · exact ⟨first.observedAt, last.observedAt, hmanifest.observedPeriod first hfirst last hlast,
      ⟨first, List.mem_of_mem_head? hfirst, rfl⟩, ⟨last, List.mem_of_getLast? hlast, rfl⟩, hbounds⟩
  · rw [hlength]
    exact hlisted.sum
  · rw [← countP_record hrecords]
    exact hlisted.count hash

end

/-- The row of a sample. -/
def oneRow : String := "5,1970-01-01T00:00:00.005Z,0a,\"20\""

/-- The file of values of one sample. -/
def oneCsv : String :=
  "observed_at_ms,observed_at_utc,source_sha256,value_json\r\n" ++ "\r\n".intercalate [oneRow] ++ "\r\n"

def oneJob : DatasetJob := ⟨"job", "0x1", "did:iota:0x1", "1", ⟨0, 6, none⟩⟩

/-- The files of a collection of one sample. -/
theorem formats_agree_oneWindow : let _ := exactServices
    ∃ files, exportFiles (fun _ => "0a") oneJob ⟨"testnet", "0x2"⟩ retainedReader 7 [⟨5, .number 20, "0a"⟩]
        [⟨"0a", oneContent.length, 1⟩] = .ok files ∧
      ∃ records, Csv.parse (decodeUtf8 files.csv) = some (csvHeader :: records) ∧ records.length = 1 := by
  intro _
  have hnumbers : NumberText := numberText_exact
  have hrow : csvRow ⟨5, .number 20, "0a"⟩ = .ok oneRow := by
    have hiso : toISOString 5 = some "1970-01-01T00:00:00.005Z" := by decide
    simp only [csvRow, hiso]
    exact congrArg Except.ok (by decide)
  have hcsv : dataCsv [⟨5, .number 20, "0a"⟩] = .ok oneCsv := by
    refine Except.bind_eq_ok.mpr ⟨[oneRow], Except.mapM_eq_ok.mpr (.cons hrow .nil), rfl⟩
  have hfits : (utf8 (dataJson "0x1" ⟨0, 6, none⟩ [⟨5, .number 20, "0a"⟩]).stringify).length +
      (utf8 oneCsv).length ≤ maxArchiveBytes := by decide +kernel
  obtain ⟨files, hfiles⟩ := exists_exportFiles (fun _ => "0a") oneJob ⟨"testnet", "0x2"⟩ retainedReader
    [⟨"0a", oneContent.length, 1⟩] hcsv hfits (show 7 ≤ maxTime by decide)
  obtain ⟨records, items, hparsed, -, hlength, -⟩ :=
    formats_agree (fun _ => by decide) decodeUtf8_utf8 reads_readBack collect_oneWindow hfiles
  exact ⟨files, hfiles, records, hparsed, hlength⟩

end Sharing
