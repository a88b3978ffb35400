-- SUMMARY: The filesystem and S3 providers: where an object is put, its URI, and what a URI is taken for.
import TwinServer.Storage.Paths

/-!
# Storage providers

`LocalFilesystemStorageProvider` of `src/storage/filesystem.ts` and `S3StorageProvider` of
`src/storage/s3.ts`. What is stored is a map from locations to bytes.
-/

open Js Mqtt

namespace Storage

/-- What Node supplies: the working directory, file URLs and SHA-256. -/
class Platform extends Js.Runtime where
  cwd : Path
  /-- `pathToFileURL(path).toString()`. -/
  pathToFileURL : Path → String
  /-- `fileURLToPath(uri)`, where `none` is a thrown error. -/
  fileURLToPath : String → Option Path
  /-- `createHash("sha256").update(bytes).digest("hex")`. -/
  sha256 : Bytes → String
  isPath_cwd : IsPath cwd
  pathToFileURL_file : ∀ p, startsWith (pathToFileURL p) "file:"
  fileURLToPath_pathToFileURL : ∀ p, IsPath p → fileURLToPath (pathToFileURL p) = some p
  sha256_length : ∀ bytes, (sha256 bytes).toList.length = 64
  sha256_hex : ∀ bytes, ∀ c ∈ (sha256 bytes).toList, isLowerHex c

export Platform (cwd pathToFileURL fileURLToPath sha256)

structure StoreInput where
  data : Bytes
  contentType : Option String := none
  fileName : Option String := none
  category : Option String := none
  twinId : Option String := none

structure FilesystemStorageConfig where
  basePath : String
  uriPrefix : Option String := none
  required : Bool := false

structure S3StorageConfig where
  endpoint : Option String := none
  region : String
  bucket : String
  accessKeyEnv : Option String := none
  secretKeyEnv : Option String := none
  keyPrefix : Option String := none
  required : Bool := false

/-- Where bytes are kept. -/
inductive Location where
  | file (path : Path)
  | object (endpoint : Option String) (region bucket key : String)
  deriving DecidableEq

abbrev World := Location → Option Bytes

def World.set (w : World) (l : Location) (bytes : Option Bytes) : World := Function.update w l bytes

structure StoredObject where
  uri : String
  hash : String
  hashAlgorithm : String := "sha256"
  size : Nat
  contentType : Option String

/-! ## The filesystem provider -/

section
variable [Platform]

namespace FilesystemStorageConfig

def root (config : FilesystemStorageConfig) : Path := resolve cwd config.basePath

def assertWithinRoot (config : FilesystemStorageConfig) (path : Path) : Except Thrown Unit :=
  throwIf (!config.root.isPrefixOf path) {
    code := "STORAGE_PATH_INVALID", message := "Storage path escapes configured basePath"
    status := 400, category := .VALIDATION }

/-- `u.replace(/\/$/, "")`. -/
def stripSlash (u : String) : String :=
  if u.toList.getLast? = some '/' then .ofList u.toList.dropLast else u

/-- The names below the root under which an object is kept. -/
def names (directory digest : String) (input : StoreInput) : List String :=
  ["twins", safeSegment input.twinId "unscoped", directory,
    digest ++ "-" ++ safeSegment (input.fileName.map basename) "object.bin"]

/-- The path of an object. `resolve` throws when the category is no name. -/
def objectPath (config : FilesystemStorageConfig) (input : StoreInput) : Except Thrown Path :=
  match categoryDirectory input.category with
  | .inherited _ => .error .type
  | .own directory => do
    let path := (names directory (sha256 input.data) input).foldl resolve config.root
    config.assertWithinRoot path
    return path

def unsupported : AppError where
  code := "STORAGE_URI_UNSUPPORTED"
  message := "URI does not belong to this filesystem provider"
  status := 400
  category := .VALIDATION

def uriFor (config : FilesystemStorageConfig) (path : Path) : String :=
  match config.uriPrefix with
  | none => pathToFileURL path
  | some u =>
    if u = "" ∨ u = "file://" then pathToFileURL path
    else
      let suffix := joinSlash ((path.drop config.root.length).map encodeURIComponent)
      stripSlash u ++ "/" ++ suffix

/-- `resolve(root, ...rest.split("/").map(decodeURIComponent))`. -/
def decodePath (config : FilesystemStorageConfig) (rest : List Char) : Option Path :=
  ((splitChars '/' rest).mapM fun s => decodeURIComponent (.ofList s)).map
    fun names => names.foldl resolve config.root

def pathFor (config : FilesystemStorageConfig) (uri : String) : Except Thrown Path := do
  let path ←
    if startsWith uri "file:" then conversion (fileURLToPath uri)
    else
      match config.uriPrefix.map stripSlash with
      | none => .error (.app unsupported)
      | some u => do
        throwIf (u = "" ∨ !startsWith uri (u ++ "/")) unsupported
        conversion (config.decodePath (uri.toList.drop (u.length + 1)))
  config.assertWithinRoot path
  return path

end FilesystemStorageConfig

/-! ## The S3 provider -/

namespace S3StorageConfig

/-- `String(prefix ?? "").replace(/^\/+|\/+$/g, "")`. -/
def configuredPrefix (config : S3StorageConfig) : String :=
  .ofList (((config.keyPrefix.getD "").toList.dropWhile (· == '/')).rdropWhile (· == '/'))

def keyFor (config : S3StorageConfig) (input : StoreInput) : String :=
  let path := [config.configuredPrefix, "twins", safeSegment input.twinId "unscoped",
    (categoryDirectory input.category).text,
    sha256 input.data ++ "-" ++ safeSegment input.fileName "object.bin"]
  joinSlash (path.filter (· ≠ ""))

def uriPrefix (config : S3StorageConfig) : String := "s3://" ++ config.bucket ++ "/"

def supportsUri (config : S3StorageConfig) (uri : String) : Bool :=
  startsWith uri config.uriPrefix &&
    (config.configuredPrefix = "" ||
      startsWith (.ofList (uri.toList.drop config.uriPrefix.length)) (config.configuredPrefix ++ "/"))

def unsupported : AppError where
  code := "STORAGE_URI_UNSUPPORTED"
  message := "URI does not belong to this S3 provider"
  status := 400
  category := .VALIDATION

def keyFromUri (config : S3StorageConfig) (uri : String) : Except Thrown String := do
  throwIf (!config.supportsUri uri) unsupported
  return .ofList (uri.toList.drop config.uriPrefix.length)

end S3StorageConfig

/-! ## A provider -/

inductive StorageProvider where
  | filesystem (config : FilesystemStorageConfig)
  | s3 (config : S3StorageConfig)

namespace StorageProvider

/-- Where the provider puts an object, and the URI it returns. -/
def address (provider : StorageProvider) (input : StoreInput) : Except Thrown (Location × String) :=
  match provider with
  | .filesystem config => do
    let path ← config.objectPath input
    return (.file path, config.uriFor path)
  | .s3 config =>
    let key := config.keyFor input
    .ok (.object config.endpoint config.region config.bucket key, config.uriPrefix ++ key)

/-- What the provider takes a URI for. -/
def locationOf (provider : StorageProvider) (uri : String) : Except Thrown Location :=
  match provider with
  | .filesystem config => Location.file <$> config.pathFor uri
  | .s3 config => Location.object config.endpoint config.region config.bucket <$> config.keyFromUri uri

def supportsUri (provider : StorageProvider) (uri : String) : Bool :=
  match provider with
  | .filesystem config => (config.pathFor uri).isOk
  | .s3 config => config.supportsUri uri

def storageError (code : String) (error : Thrown) : AppError where
  code := code
  message := match error with
    | .app error => error.message
    | _ => "S3 storage operation failed"
  status := 503
  category := .CONNECTOR

/-- What an S3 provider makes of an error. -/
def rethrow {α : Type} (provider : StorageProvider) (code : String) :
    Except Thrown α → Except Thrown α
  | .ok a => .ok a
  | .error error =>
    match provider with
    | .filesystem _ => .error error
    | .s3 _ => .error (.app (storageError code error))

/-- A filesystem keeps a file that exists, a bucket takes the new object. -/
def store (provider : StorageProvider) (input : StoreInput) (w : World) :
    Except Thrown (StoredObject × World) := do
  let (location, uri) ← provider.address input
  let w' := match provider, w location with
    | .filesystem _, some _ => w
    | _, _ => w.set location (some input.data)
  return ({ uri, hash := "sha256:" ++ sha256 input.data, size := input.data.length,
            contentType := input.contentType }, w')

/-- A missing object is a rejection. -/
def read (provider : StorageProvider) (uri : String) (w : World) : Except Thrown Bytes :=
  provider.rethrow "STORAGE_S3_READ_FAILED" do
    let location ← provider.locationOf uri
    match w location with
    | some bytes => return bytes
    | none => .error .rejection

/-- The filesystem provider catches every error. -/
def isThere (provider : StorageProvider) (uri : String) (w : World) : Except Thrown Bool :=
  match provider, provider.locationOf uri with
  | _, .ok location => .ok (w location).isSome
  | .filesystem _, .error _ => .ok false
  | .s3 _, .error error => .error (.app (storageError "STORAGE_S3_HEAD_FAILED" error))

def remove (provider : StorageProvider) (uri : String) (w : World) : Except Thrown World :=
  provider.rethrow "STORAGE_S3_DELETE_FAILED" do
    let location ← provider.locationOf uri
    return w.set location none

end StorageProvider

/-! ## The URIs a provider returns -/

section
variable {config : FilesystemStorageConfig} {input : StoreInput} {path : Path}

theorem isPath_root (config : FilesystemStorageConfig) : IsPath config.root :=
  isPath_resolve Platform.isPath_cwd _

theorem plain_names {directory : String} (h : Plain directory) (input : StoreInput) :
    ∀ s ∈ FilesystemStorageConfig.names directory (sha256 input.data) input, Plain s := by
  have hhex {c : Char} (hc : isLowerHex c) : isSegmentChar c ∧ c ≠ '.' := by
    unfold isLowerHex at hc
    unfold isSegmentChar
    rw [Bool.or_eq_true, Bool.and_eq_true] at hc
    have hdot : c ≠ '.' := by
      rintro rfl
      exact absurd hc (by decide)
    refine ⟨?_, hdot⟩
    rcases hc with hc | ⟨ha, hf⟩
    · simp [Char.isAlphanum, hc]
    · have hlower : c.isAlpha := by
        simp only [decide_eq_true_eq, Char.le_def, UInt32.le_iff_toNat_le] at ha hf
        show (c.isUpper || decide (c.val ≥ 'a'.val) && decide (c.val ≤ 'z'.val)) = true
        simp only [Bool.or_eq_true, Bool.and_eq_true, decide_eq_true_eq, ge_iff_le, UInt32.le_iff_toNat_le]
        have hz : ('z' : Char).val.toNat = 122 := rfl
        have hf' : ('f' : Char).val.toNat = 102 := rfl
        exact .inr ⟨ha, by omega⟩
      simp [Char.isAlphanum, hlower]
  have hname : Plain (safeSegment (input.fileName.map basename) "object.bin") :=
    plain_safeSegment _ (plain_of_isPlain (by decide))
  have hdigest : Plain (sha256 input.data ++ "-" ++
      safeSegment (input.fileName.map basename) "object.bin") := by
    have hlength := Platform.sha256_length input.data
    have hchars := Platform.sha256_hex input.data
    cases hlist : (sha256 input.data).toList with
    | nil =>
      rw [hlist] at hlength
      cases hlength
    | cons c cs =>
      rw [hlist] at hchars
      refine ⟨fun h => ?_, ?_, ?_⟩
      · have h' := congrArg String.toList h
        rw [String.toList_append, String.toList_append, hlist] at h'
        cases h'
      · rw [String.toList_append, String.toList_append, hlist]
        intro d hd
        rcases List.mem_append.mp hd with hd | hd
        · rcases List.mem_append.mp hd with hd | hd
          · exact (hhex (hchars d hd)).1
          · obtain rfl := List.mem_singleton.mp hd
            decide
        · exact hname.chars d hd
      · rw [String.toList_append, String.toList_append, hlist]
        intro h
        exact (hhex (hchars c List.mem_cons_self)).2 (Option.some.inj h)
  intro s hs
  simp only [FilesystemStorageConfig.names, List.mem_cons, List.not_mem_nil, or_false] at hs
  rcases hs with rfl | rfl | rfl | rfl
  · exact plain_of_isPlain (by decide)
  · exact plain_safeSegment _ (plain_of_isPlain (by decide))
  · exact h
  · exact hdigest

omit [Platform] in
theorem isPath_plain {names : List String} (h : ∀ s ∈ names, Plain s) : IsPath names :=
  fun s hs => (h s hs).isPath

omit [Platform] in
theorem foldl_resolve {names : Path} (h : IsPath names) (p : Path) : names.foldl resolve p = p ++ names := by
  induction names generalizing p with
  | nil => rw [List.append_nil, List.foldl_nil]
  | cons s names ih =>
      obtain ⟨hs, hnames⟩ := List.forall_mem_cons.mp h
      rw [List.foldl_cons, resolve_of_isPath hs, ih hnames, List.append_assoc]
      rfl

/-- An object is kept below the root, under plain names. -/
theorem objectPath_eq_ok (h : config.objectPath input = .ok path) :
    ∃ directory, categoryDirectory input.category = .own directory ∧
      path = config.root ++ FilesystemStorageConfig.names directory (sha256 input.data) input := by
  unfold FilesystemStorageConfig.objectPath at h
  split at h
  · cases h
  · next directory hdirectory =>
    have hnames := plain_names (plain_categoryDirectory hdirectory) input
    obtain ⟨-, h⟩ := Except.check_bind_eq_ok.mp h
    obtain rfl := Except.pure_eq_ok.mp h
    exact ⟨directory, hdirectory, foldl_resolve (isPath_plain hnames) _⟩

/-- Every object with a directory has its path. -/
theorem objectPath_of_directory {directory : String}
    (h : categoryDirectory input.category = .own directory) : config.objectPath input =
      .ok (config.root ++ FilesystemStorageConfig.names directory (sha256 input.data) input) := by
  have hnames := plain_names (plain_categoryDirectory h) input
  unfold FilesystemStorageConfig.objectPath
  rw [h]
  dsimp only
  rw [foldl_resolve (isPath_plain hnames)]
  apply Except.check_bind_eq_ok.mpr
  refine ⟨?_, rfl⟩
  unfold FilesystemStorageConfig.assertWithinRoot
  rw [throwIf_eq_ok, List.isPrefixOf_iff_prefix.mpr (List.prefix_append _ _)]
  rfl

omit [Platform] in
theorem prefix_append_slash {p u : List Char} (h : '/' ∉ p) (rest : List Char) :
    p <+: u ++ '/' :: rest ↔ p <+: u := by
  induction u generalizing p with
  | nil =>
      cases p with
      | nil => exact ⟨fun _ => List.nil_prefix, fun _ => List.nil_prefix⟩
      | cons c p =>
        refine ⟨fun hp => ?_, fun hp => absurd (List.prefix_nil.mp hp) (List.cons_ne_nil _ _)⟩
        obtain ⟨rfl, -⟩ := List.cons_prefix_cons.mp hp
        exact absurd List.mem_cons_self h
  | cons d u ih =>
      cases p with
      | nil => exact ⟨fun _ => List.nil_prefix, fun _ => List.nil_prefix⟩
      | cons c p =>
        rw [List.cons_append, List.cons_prefix_cons, List.cons_prefix_cons,
          ih (List.not_mem_of_not_mem_cons h)]

omit [Platform] in
theorem startsWith_slash {u p : String} (h : '/' ∉ p.toList) (rest : String) :
    startsWith (u ++ "/" ++ rest) p = startsWith u p := by
  have hlist : (u ++ "/" ++ rest).toList = u.toList ++ '/' :: rest.toList := by
    rw [String.toList_append, String.toList_append, List.append_assoc]
    rfl
  unfold startsWith
  rw [Bool.eq_iff_iff, List.isPrefixOf_iff_prefix, List.isPrefixOf_iff_prefix, hlist,
    prefix_append_slash h]

omit [Platform] in
theorem splitChars_joinSlash {names : List String} (hne : names ≠ [])
    (h : ∀ s ∈ names, '/' ∉ s.toList) :
    splitChars '/' (joinSlash names).toList = names.map String.toList := by
  induction names with
  | nil => exact absurd rfl hne
  | cons s names ih =>
      obtain ⟨hs, hnames⟩ := List.forall_mem_cons.mp h
      cases names with
      | nil => exact splitChars_of_not_mem hs
      | cons t names =>
        have hlist : (joinSlash (s :: t :: names)).toList =
            s.toList ++ '/' :: (joinSlash (t :: names)).toList := by
          show (s ++ "/" ++ joinSlash (t :: names)).toList = _
          rw [String.toList_append, String.toList_append, List.append_assoc]
          rfl
        rw [hlist, splitChars_append, splitChars_of_not_mem hs, ih (List.cons_ne_nil _ _) hnames]
        rfl

omit [Platform] in
theorem mapM_decode (names : List String) :
    ((names.map encodeURIComponent).map String.toList).mapM (fun s => decodeURIComponent (.ofList s)) =
      some names := by
  induction names with
  | nil => rfl
  | cons s names ih =>
      rw [List.map_cons, List.map_cons, List.mapM_cons, String.ofList_toList,
        decodeURIComponent_encodeURIComponent, ih]
      rfl

namespace FilesystemStorageConfig

/-- The prefix of the URIs leads back to where the object is: it is missing, it is a URL of the
root, or it is no file URL and not just a slash. -/
def OwnUris (config : FilesystemStorageConfig) (path : Path) : Prop :=
  ∀ u, config.uriPrefix = some u → u ≠ "" → u ≠ "file://" →
    if startsWith (stripSlash u) "file:" then
      fileURLToPath (stripSlash u ++ "/" ++ joinSlash (path.drop config.root.length)) = some path
    else stripSlash u ≠ ""

theorem pathFor_file {uri : String} (huri : startsWith uri "file:") (hroot : config.root <+: path) :
    config.pathFor uri = .ok path ↔ fileURLToPath uri = some path := by
  have hwithin : config.assertWithinRoot path = .ok () := by
    unfold assertWithinRoot
    rw [throwIf_eq_ok, List.isPrefixOf_iff_prefix.mpr hroot]
    rfl
  unfold pathFor
  rw [if_pos huri]
  simp only [Except.bind_eq_ok, conversion_eq_ok, Except.pure_eq_ok]
  constructor
  · rintro ⟨p, hp, -, -, rfl⟩
    exact hp
  · intro hp
    exact ⟨path, hp, (), hwithin, rfl⟩

/-- The names that a prefix is followed by are read back. -/
theorem decodePath_encode {names : Path} (h : IsPath names) :
    config.decodePath (joinSlash (names.map encodeURIComponent)).toList = some (config.root ++ names) := by
  unfold decodePath
  cases names with
  | nil =>
    rw [List.append_nil]
    rfl
  | cons s names =>
    have hslash : ∀ t ∈ (s :: names).map encodeURIComponent, '/' ∉ t.toList := by
      intro t ht
      obtain ⟨name, hname, rfl⟩ := List.mem_map.mp ht
      exact not_mem_encodeURIComponent (h name hname).2.2.2
    have hne : (s :: names).map encodeURIComponent ≠ [] := List.cons_ne_nil _ _
    rw [splitChars_joinSlash hne hslash, mapM_decode, Option.map_some, foldl_resolve h]

/-- A path below the root is read from its names after the prefix unless nothing is left of the prefix. -/
theorem pathFor_prefix {u : String} (hconfigured : config.uriPrefix.map stripSlash = some u)
    (hscheme : ¬ startsWith u "file:") {names : Path} (hnames : IsPath names) :
    config.pathFor (u ++ "/" ++ joinSlash (names.map encodeURIComponent)) = .ok (config.root ++ names) ↔
      u ≠ "" := by
  have hstart (rest : String) : startsWith (u ++ "/" ++ rest) (u ++ "/") = true := by
    unfold startsWith
    rw [String.toList_append (s := u ++ "/")]
    exact List.isPrefixOf_iff_prefix.mpr (List.prefix_append _ _)
  have hrest (rest : String) : (u ++ "/" ++ rest).toList.drop (u.length + 1) = rest.toList := by
    have hlength : u.length + 1 = (u ++ "/").toList.length := by
      rw [String.toList_append, List.length_append, String.length_toList]
      rfl
    rw [String.toList_append, hlength, List.drop_left]
  have hwithin : config.assertWithinRoot (config.root ++ names) = .ok () := by
    unfold assertWithinRoot
    rw [throwIf_eq_ok, List.isPrefixOf_iff_prefix.mpr (List.prefix_append _ _)]
    rfl
  unfold pathFor
  rw [startsWith_slash (by decide), if_neg hscheme, hconfigured]
  dsimp only
  rw [hstart, hrest, decodePath_encode hnames]
  by_cases hu : u = ""
  · have hcheck : decide (u = "" ∨ (!true) = true) = true := by simpa using hu
    rw [hcheck]
    exact ⟨fun h => (by cases h), fun h => absurd hu h⟩
  · have hcheck : decide (u = "" ∨ (!true) = true) = false := by simpa using hu
    rw [hcheck]
    refine ⟨fun _ => hu, fun _ => ?_⟩
    exact Except.bind_eq_ok.mpr ⟨_, rfl, Except.check_bind_eq_ok.mpr ⟨hwithin, rfl⟩⟩

/-- A provider takes the URI of an object for the object exactly when its URIs are its own. -/
theorem pathFor_uriFor (h : config.objectPath input = .ok path) :
    config.pathFor (config.uriFor path) = .ok path ↔ config.OwnUris path := by
  obtain ⟨directory, hdirectory, hpath⟩ := objectPath_eq_ok h
  have hnames := plain_names (plain_categoryDirectory hdirectory) input
  have hroot : config.root <+: path := hpath ▸ List.prefix_append _ _
  have hisPath : IsPath path := by
    intro s hs
    rcases List.mem_append.mp (hpath ▸ hs) with hs | hs
    · exact isPath_root config s hs
    · exact isPath_plain hnames s hs
  have hurl : config.pathFor (pathToFileURL path) = .ok path :=
    (pathFor_file (Platform.pathToFileURL_file path) hroot).mpr
      (Platform.fileURLToPath_pathToFileURL path hisPath)
  have hdrop : path.drop config.root.length = names directory (sha256 input.data) input := by
    rw [hpath, List.drop_left]
  have hsuffix : joinSlash ((path.drop config.root.length).map encodeURIComponent) =
      joinSlash (path.drop config.root.length) := by
    rw [hdrop]
    refine congrArg joinSlash ?_
    refine (List.map_congr_left fun s hs => ?_).trans (List.map_id _)
    exact encodeURIComponent_plain (hnames s hs).chars
  unfold OwnUris uriFor
  cases hconfigured : config.uriPrefix with
  | none => exact ⟨fun _ u hu => (by cases hu), fun _ => hurl⟩
  | some u =>
    dsimp only
    by_cases hfile : u = "" ∨ u = "file://"
    · rw [if_pos hfile]
      refine ⟨fun _ v hv hne hne' => ?_, fun _ => hurl⟩
      obtain rfl := Option.some.inj hv
      exact absurd hfile (not_or.mpr ⟨hne, hne'⟩)
    · rw [if_neg hfile, hsuffix]
      have hall : (∀ v, some u = some v → v ≠ "" → v ≠ "file://" →
          if startsWith (stripSlash v) "file:" then
            fileURLToPath (stripSlash v ++ "/" ++ joinSlash (path.drop config.root.length)) = some path
          else stripSlash v ≠ "") ↔
          if startsWith (stripSlash u) "file:" then
            fileURLToPath (stripSlash u ++ "/" ++ joinSlash (path.drop config.root.length)) = some path
          else stripSlash u ≠ "" := by
        obtain ⟨hne, hne'⟩ := not_or.mp hfile
        constructor
        · exact fun h => h u rfl hne hne'
        · rintro h v hv - -
          obtain rfl := Option.some.inj hv
          exact h
      rw [hall]
      by_cases hscheme : startsWith (stripSlash u) "file:"
      · rw [if_pos hscheme]
        exact pathFor_file (by rwa [startsWith_slash (by decide)]) hroot
      · rw [if_neg hscheme, ← hsuffix, hdrop]
        have hlist : config.uriPrefix.map stripSlash = some (stripSlash u) := by rw [hconfigured]; rfl
        have h := pathFor_prefix hlist hscheme (isPath_plain hnames)
        rwa [← hpath] at h

end FilesystemStorageConfig

namespace S3StorageConfig

variable (config : S3StorageConfig) (input : StoreInput)

/-- A bucket takes the URI of an object for the object. -/
theorem keyFromUri_keyFor : config.keyFromUri (config.uriPrefix ++ config.keyFor input) =
    .ok (config.keyFor input) := by
  have hdrop : (config.uriPrefix ++ config.keyFor input).toList.drop config.uriPrefix.length =
      (config.keyFor input).toList := by
    rw [String.toList_append, ← String.length_toList, List.drop_left]
  have hkey : config.configuredPrefix ≠ "" →
      startsWith (config.keyFor input) (config.configuredPrefix ++ "/") := by
    intro hne
    unfold keyFor
    dsimp only
    rw [List.filter_cons_of_pos (by simpa using hne), List.filter_cons_of_pos (by decide)]
    unfold startsWith joinSlash
    rw [String.toList_append (s := config.configuredPrefix ++ "/")]
    exact List.isPrefixOf_iff_prefix.mpr (List.prefix_append _ _)
  have hsupports : config.supportsUri (config.uriPrefix ++ config.keyFor input) = true := by
    unfold supportsUri
    rw [hdrop, String.ofList_toList, Bool.and_eq_true, Bool.or_eq_true]
    refine ⟨?_, ?_⟩
    · unfold startsWith
      rw [String.toList_append]
      exact List.isPrefixOf_iff_prefix.mpr (List.prefix_append _ _)
    · by_cases hne : config.configuredPrefix = ""
      · exact .inl (decide_eq_true hne)
      · exact .inr (hkey hne)
  unfold keyFromUri
  rw [hsupports, hdrop, String.ofList_toList]
  rfl

end S3StorageConfig

namespace StorageProvider

/-- The provider takes its URIs for what it put there. -/
def OwnUris (provider : StorageProvider) (location : Location) : Prop :=
  match provider, location with
  | .filesystem config, .file path => config.OwnUris path
  | _, _ => True

variable {provider : StorageProvider} {location : Location} {uri : String}

theorem locationOf_address (h : provider.address input = .ok (location, uri)) :
    provider.locationOf uri = .ok location ↔ provider.OwnUris location := by
  cases provider with
  | filesystem config =>
    obtain ⟨path, hpath, h⟩ := Except.bind_eq_ok.mp h
    obtain ⟨rfl, rfl⟩ := Prod.mk.inj (Except.pure_eq_ok.mp h)
    show Location.file <$> config.pathFor (config.uriFor path) = .ok (.file path) ↔ config.OwnUris path
    rw [← FilesystemStorageConfig.pathFor_uriFor hpath]
    cases config.pathFor (config.uriFor path) with
    | error e => exact ⟨fun h => (by cases h), fun h => (by cases h)⟩
    | ok p =>
      constructor
      · intro h
        rw [Location.file.inj (Except.ok.inj h)]
      · intro h
        rw [Except.ok.inj h]
        rfl
  | s3 config =>
    obtain ⟨rfl, rfl⟩ := Prod.mk.inj (Except.ok.inj h)
    refine ⟨fun _ => trivial, fun _ => ?_⟩
    show Location.object _ _ _ <$> config.keyFromUri _ = _
    rw [config.keyFromUri_keyFor input]
    rfl

/-- A provider that takes a URI for something supports it. -/
theorem supportsUri_of_locationOf (h : provider.locationOf uri = .ok location) :
    provider.supportsUri uri = true := by
  cases provider with
  | filesystem config =>
    unfold supportsUri
    unfold locationOf at h
    dsimp only at h ⊢
    cases hpath : config.pathFor uri with
    | error e =>
      rw [hpath] at h
      cases h
    | ok path => rfl
  | s3 config =>
    unfold supportsUri
    unfold locationOf S3StorageConfig.keyFromUri at h
    dsimp only at h ⊢
    cases hsupports : config.supportsUri uri with
    | true => rfl
    | false =>
      rw [hsupports] at h
      cases h

end StorageProvider

end

end

/-! ## A platform -/

theorem foldl_resolveSegment {names : Path} (h : IsPath names) (p : Path) :
    (names.map String.toList).foldl resolveSegment p = p ++ names := by
  induction names generalizing p with
  | nil => rw [List.append_nil, List.map_nil, List.foldl_nil]
  | cons s names ih =>
      obtain ⟨hs, hnames⟩ := List.forall_mem_cons.mp h
      rw [List.map_cons, List.foldl_cons, resolveSegment_of_isPath hs, ih hnames, List.append_assoc]
      rfl

theorem resolve_joinSlash {p : Path} (h : IsPath p) : resolve [] ("/" ++ joinSlash p) = p := by
  have hlist : ("/" ++ joinSlash p).toList = [] ++ '/' :: (joinSlash p).toList := by
    rw [String.toList_append]
    rfl
  have hstart : startsWith ("/" ++ joinSlash p) "/" = true := by
    unfold startsWith
    rw [hlist]
    rfl
  unfold resolve
  rw [hstart, hlist, splitChars_append]
  cases p with
  | nil => rfl
  | cons s names =>
    rw [splitChars_joinSlash (List.cons_ne_nil _ _) fun t ht => (h t ht).2.2.2]
    exact foldl_resolveSegment h []

def hello : Bytes := [104, 101, 108, 108, 111]

/-- The digest of `hello`. -/
def helloDigest : String := "2cf24dba5fb0a30e26e83b2ac5b9e29e1b161e5c1fa7425e73043362938b9824"

/-- A platform whose file URLs need no escapes and that knows one digest. -/
@[reducible] def Platform.plain : Platform where
  toRuntime := Runtime.ascii
  cwd := []
  pathToFileURL p := "file:///" ++ joinSlash p
  fileURLToPath uri :=
    if startsWith uri "file:///" then some (resolve [] (.ofList (uri.toList.drop 7))) else none
  sha256 bytes := if bytes = hello then helloDigest else .ofList (.replicate 64 '0')
  isPath_cwd := fun _ h => absurd h List.not_mem_nil
  pathToFileURL_file p := by
    unfold startsWith
    rw [String.toList_append]
    rfl
  fileURLToPath_pathToFileURL p hp := by
    have hlist : ("file:///" ++ joinSlash p).toList = "file:///".toList ++ (joinSlash p).toList :=
      String.toList_append
    have hdrop : String.ofList (("file:///" ++ joinSlash p).toList.drop 7) = "/" ++ joinSlash p := by
      rw [hlist]
      apply String.toList_inj.mp
      rw [String.toList_ofList, String.toList_append]
      rfl
    have hstart : startsWith ("file:///" ++ joinSlash p) "file:///" = true := by
      unfold startsWith
      rw [hlist]
      exact List.isPrefixOf_iff_prefix.mpr (List.prefix_append _ _)
    rw [hstart, hdrop, resolve_joinSlash hp]
    rfl
  sha256_length bytes := by
    split
    · decide
    · rw [String.toList_ofList, List.length_replicate]
  sha256_hex bytes := by
    split
    · exact List.all_eq_true.mp (by decide)
    · rw [String.toList_ofList]
      intro c hc
      rw [List.eq_of_mem_replicate hc]
      decide

end Storage
