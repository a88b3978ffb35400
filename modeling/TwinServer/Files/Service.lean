-- SUMMARY: The file service over a directory of index files and the storage of contents, and an adversary that moves them.
import TwinServer.Base.Map
import TwinServer.Base.Program
import TwinServer.Files.Envelope
import TwinServer.Storage.Routing
import Mathlib.Data.String.Basic

/-!
# The file service

`src/files/service.ts` as programs. The calls of any number of services share the index directory and the storage; every
operation on these may be refused, and one that takes effect may still be reported as failed. An adversary deletes index
files and contents or puts anything in their place, such as what the server wrote elsewhere.
-/

open Js Js.Json Async Storage

namespace Files

/-! ## What the calls share -/

/-- The index directory has a folder for each tenant, by the digest of its name. What was encrypted and handed to be
written stands with the call that did, and so do the ids that were drawn and the operations that failed. -/
structure World where
  storage : Storage.World
  folders : String → Option (Map Bytes)
  written : List (Nat × Bytes)
  draws : List (Nat × Uuid)
  failures : List Nat

def World.empty : World where
  storage _ := none
  folders _ := none
  written := []
  draws := []
  failures := []

/-- A file of a folder. -/
def World.file? (w : World) (folder name : String) : Option Bytes := (w.folders folder).bind (·.get? name)

/-- The files of a folder change, which is there afterwards. -/
def World.modify (w : World) (folder : String) (f : Map Bytes → Map Bytes) : World :=
  { w with folders := Function.update w.folders folder (some (f ((w.folders folder).getD .empty))) }

inductive Failure where
  | thrown (thrown : Thrown)
  /-- A system error with the code `ENOENT`. -/
  | noEntry
  /-- Any other error. -/
  | other

/-! ## Queries -/

/-- What the adversary puts somewhere: something that was encrypted before, or bytes of its own. -/
inductive Source where
  | written (k : Nat)
  | own (bytes : Bytes)

/-- The adversary puts something in the place of an index file or of a content, or deletes it. -/
inductive Deed where
  | index (folder id : String) (source : Option Source)
  | blob (location : Location) (source : Option Source)

inductive Query where
  | credential
  | randomUUID
  | now
  | randomBytes
  | storeBlob (input : StoreInput)
  | mkdir (folder : String)
  /-- `open(path, "wx")`. -/
  | openNew (folder name : String)
  | writeFile (folder name : String) (bytes : Bytes)
  /-- An operation on a handle that changes no file: `open(folder, "r")`, `sync` and `close`. -/
  | settle
  | rename (folder name name' : String)
  | unlink (folder name : String)
  | readFile (folder name : String)
  | readdir (folder : String)
  | readBlob (uri : String)
  | tamper (deed : Deed)

@[reducible] def Query.Answer : Query → Type
  | credential => Option String
  | randomUUID => Uuid
  | now => String
  | randomBytes => Nonce
  | storeBlob _ => StoredObject
  | readFile _ _ | readBlob _ => Bytes
  | readdir _ => List String
  | mkdir _ | openNew _ _ | writeFile _ _ _ | settle | rename _ _ _ | unlink _ _ | tamper _ => Unit

inductive Ending where
  | done | refused | unreported
  deriving DecidableEq

/-- What the rest of the world decides when a query is served; a write that fails has written so many bytes. -/
structure Fate where
  ending : Ending
  uuid : Uuid
  createdAt : String
  nonce : Nonce
  count : Nat

/-- The parts that a file service is made of. -/
structure FileService where
  storage : StorageRouter
  /-- The credential `DTIS_FILE_ENCRYPTION_KEY`. -/
  credential : Option String
  windows : Bool

/-- The operation with its effect, as it ends. -/
def World.ending {α : Type} (w : World) (call : Nat) (r : Except Failure α × World) : Ending → Except Failure α × World
  | .done => r
  | .refused => (.error .other, { w with failures := w.failures ++ [call] })
  | .unreported => (.error .other, { r.2 with failures := r.2.failures ++ [call] })

/-- No id is drawn twice: one that was drawn before counts as a failure. -/
def World.draw (w : World) (call : Nat) (uuid : Uuid) : Except Failure Uuid × World :=
  if uuid ∈ w.draws.map Prod.snd then (.error .other, { w with failures := w.failures ++ [call] })
  else (.ok uuid, { w with draws := w.draws ++ [(call, uuid)] })

/-- `open(path, "wx")`. -/
def World.openNew (w : World) (folder name : String) : Except Failure Unit × World :=
  match w.folders folder with
  | none => (.error .noEntry, w)
  | some files =>
    if (files.get? name).isSome then (.error .other, w) else (.ok (), w.modify folder (·.set name []))

/-- What is written through a handle is found under the name while that is there. -/
def World.writeFile (w : World) (call : Nat) (folder name : String) (bytes content : Bytes) : World :=
  let w := if (w.file? folder name).isSome then w.modify folder (·.set name content) else w
  { w with written := w.written ++ [(call, bytes)] }

def World.rename (w : World) (folder name name' : String) : Except Failure Unit × World :=
  match w.file? folder name with
  | none => (.error .noEntry, w)
  | some bytes => (.ok (), w.modify folder fun files => (files.delete name).set name' bytes)

def World.unlink (w : World) (folder name : String) : Except Failure Unit × World :=
  if (w.file? folder name).isSome then (.ok (), w.modify folder (·.delete name)) else (.error .noEntry, w)

def World.source (w : World) : Source → Option Bytes
  | .written k => w.written[k]?.map Prod.snd
  | .own bytes => some bytes

def World.tamper (w : World) : Deed → World
  | .index folder id source => w.modify folder fun files =>
    match source.bind w.source with
    | some bytes => files.set (indexName id) bytes
    | none => files.delete (indexName id)
  | .blob location source => { w with storage := w.storage.set location (source.bind w.source) }

section
variable [Platform]

def World.storeBlob (w : World) (router : StorageRouter) (call : Nat) (input : StoreInput) :
    Except Failure StoredObject × World :=
  match router.store input w.storage with
  | .ok (stored, storage) => (.ok stored, { w with storage, written := w.written ++ [(call, input.data)] })
  | .error e => (.error (.thrown e), w)

def World.readBlob (w : World) (router : StorageRouter) (uri : String) : Except Failure Bytes :=
  (router.read uri w.storage).mapError .thrown

variable (s : FileService)

/-- The query of a call is served. -/
@[local grind] def serve (w : World) (call : Nat) : (q : Query) → Fate → Except Failure q.Answer × World
  | .credential, f => w.ending call (.ok s.credential, w) f.ending
  | .randomUUID, f => w.draw call f.uuid
  | .now, f => (.ok f.createdAt, w)
  | .randomBytes, f => (.ok f.nonce, w)
  | .storeBlob input, f => w.ending call (w.storeBlob s.storage call input) f.ending
  | .mkdir folder, f => w.ending call (.ok (), w.modify folder id) f.ending
  | .openNew folder name, f => w.ending call (w.openNew folder name) f.ending
  | .writeFile folder name bytes, f => w.ending call
      (.ok (), w.writeFile call folder name bytes (if f.ending = .done then bytes else bytes.take f.count)) f.ending
  | .settle, f => w.ending call (.ok (), w) f.ending
  | .rename folder name name', f => w.ending call (w.rename folder name name') f.ending
  | .unlink folder name, f => w.ending call (w.unlink folder name) f.ending
  | .readFile folder name, f => w.ending call (((w.file? folder name).elim (.error .noEntry) .ok), w) f.ending
  | .readdir folder, f => w.ending call (((w.folders folder).elim (.error .noEntry) (.ok ·.keys)), w) f.ending
  | .readBlob uri, f => w.ending call (w.readBlob s.storage uri, w) f.ending
  | .tamper deed, _ => (.ok (), w.tamper deed)

/-! ## The operations -/

abbrev Act := Program Query Query.Answer Failure

omit [Platform] in
def refuse {α : Type} (error : AppError) : Act α := .raise (.thrown (.app error))

omit [Platform] in
/-- A refusal when the condition holds. -/
def refuseIf (c : Bool) (error : AppError) : Act Unit := .done (if c then .error (.thrown (.app error)) else .ok ())

omit [Platform] in
/-- The error of `missing()`. -/
def missing : AppError where
  code := "FILE_NOT_FOUND"
  message := "File not found in the authenticated tenant"
  status := 404
  category := .VALIDATION

omit [Platform] in
def integrityFailure (message : String) : AppError where
  code := "FILE_INTEGRITY_FAILURE"
  message := message
  status := 503
  category := .INTERNAL

omit [Platform] in
/-- The method `key`, with `requiredCredential`. -/
@[local grind] def key : Act Bytes := do
  let value ← Program.query (Query.credential)
  match value.filter (· != "") with
  | none => refuse {
      code := "CREDENTIAL_MISSING", message := "Credential 'DTIS_FILE_ENCRYPTION_KEY' is not configured"
      status := 503, category := .AUTHORIZATION }
  | some encoded =>
    match fileKey encoded with
    | none => refuse {
        code := "FILE_KEY_INVALID", message := "Expected a canonical base64 32-byte file encryption key"
        status := 503, category := .AUTHORIZATION }
    | some key => pure key

omit [Platform] in
/-- `unlink(path)`, where a file that is missing is no error. -/
def unlinkTemporary (folder name : String) : Act Unit :=
  (Program.query (Query.unlink folder name)).handle fun
    | .error .noEntry => pure ()
    | r => .done r

omit [Platform] in
/-- `open(folder, "r")`, and the handle synchronised and closed; not on Windows. -/
def syncFolder : Act Unit := do
  if s.windows then pure ()
  else do
    let _ ← Program.query Query.settle
    (Program.query Query.settle).andFinally (Program.query Query.settle)

variable (C : Cipher) (parse : Bytes → Option Json)

/-- The input that the content of a file is stored with. -/
def blobInput (key : Bytes) (nonce : Nonce) (tenant id : String) (data : Bytes) : StoreInput where
  data := encrypt C data key (aad tenant id .content) nonce
  category := some "files"
  fileName := some (id ++ ".bin")
  contentType := some "application/octet-stream"

/-- The index record goes to the handle, which is synchronised. -/
def writeTemporary (key : Bytes) (tenant : String) (m : FileMetadata) (uri : String) : Act Unit := do
  let nonce ← Program.query Query.randomBytes
  let _ ← Program.query (Query.writeFile (tenantDigest tenant) (temporaryName m.id)
    (encrypt C (indexText m uri) key (aad tenant m.id .index) nonce))
  Program.query Query.settle

/-- The index file of a file: written under another name first, and then renamed. -/
def writeIndex (key : Bytes) (tenant : String) (m : FileMetadata) (uri : String) : Act Unit := do
  let _ ← Program.query (Query.openNew (tenantDigest tenant) (temporaryName m.id))
  let _ ← (writeTemporary C key tenant m uri).andFinally (Program.query Query.settle)
  let _ ← Program.query (Query.rename (tenantDigest tenant) (temporaryName m.id) (indexName m.id))
  syncFolder s

def FileMetadata.of (id : Uuid) (subject name contentType : String) (data : Bytes) (createdAt : String) :
    FileMetadata where
  id := id.1
  name := name
  contentType := contentType
  size := data.length
  sha256 := digest data
  createdAt := createdAt
  createdBy := subject

def store (tenant subject name contentType : String) (data : Bytes) : Act FileMetadata := do
  refuseIf (MAX_FILE_BYTES < data.length) {
    code := "FILE_TOO_LARGE", message := "Maximum file size is 16 MiB", status := 413, category := .VALIDATION }
  refuseIf (!isAcceptable name contentType) {
    code := "FILE_METADATA_INVALID"
    message := "Supply a filename without path/control characters and a MIME type without parameters"
    status := 400, category := .VALIDATION }
  let key ← key
  let id ← Program.query Query.randomUUID
  let createdAt ← Program.query Query.now
  let m := FileMetadata.of id subject name contentType data createdAt
  let nonce ← Program.query Query.randomBytes
  let blob ← Program.query (Query.storeBlob (blobInput C key nonce tenant id.1 data))
  let _ ← Program.query (Query.mkdir (tenantDigest tenant))
  let _ ← (writeIndex s C key tenant m blob.uri).andFinally (unlinkTemporary (tenantDigest tenant) (temporaryName id.1))
  return m

omit [Platform] in
/-- `readFile` of an index file, where one that is missing is not found. -/
def readIndexFile (folder id : String) : Act Bytes :=
  (Program.query (Query.readFile folder (indexName id))).handle fun
    | .error .noEntry => refuse missing
    | r => .done r

def record (tenant id : String) : Act (Json × String) := do
  refuseIf (!validId id) missing
  let bytes ← readIndexFile (tenantDigest tenant) id
  let key ← key
  match (decrypt C bytes key (aad tenant id .index)).bind (readIndex parse id) with
  | some record => pure record
  | none => refuse (integrityFailure "File index authentication failed")

def metadata (tenant id : String) : Act Json := do
  let record ← record C parse tenant id
  return record.1

/-- The content of a record, when it is authentic and of the metadata. -/
def readContent (key : Bytes) (tenant id : String) (metadata : Json) (uri : String) : Act Bytes := do
  let bytes ← Program.query (Query.readBlob uri)
  match (decrypt C bytes key (aad tenant id .content)).filter (isContentOf metadata) with
  | some data => pure data
  | none => .raise .other

def read (tenant id : String) : Act (Json × Bytes) := do
  let record ← record C parse tenant id
  let key ← key
  let data ← (readContent C key tenant id record.1 record.2).orElse
    (refuse (integrityFailure "File content could not be authenticated or read"))
  return (record.1, data)

structure Page where
  files : List Json
  nextCursor : Option String

omit [Platform] in
/-- The valid ids of the index files among the names, in order, from behind the cursor on. -/
def listedIds (names : List String) (after : Option String) : List String :=
  ((names.filterMap indexId?).mergeSort fun a b => decide (a ≤ b)).filter fun id => after.all (· < id)

omit [Platform] in
/-- `readdir`, where a folder that is missing is empty. -/
def readFolder (folder : String) : Act (List String) :=
  (Program.query (Query.readdir folder)).handle fun
    | .error .noEntry => pure []
    | r => .done r

/-- `metadata` of each id. -/
def metadataOfAll (tenant : String) : List String → Act (List Json)
  | [] => pure []
  | id :: ids => do
    let m ← metadata C parse tenant id
    let ms ← metadataOfAll tenant ids
    return m :: ms

/-- The cursor is `undefined` or an empty string when there is none. -/
def list (tenant : String) (after : Option String) (limit : Int) : Act Page := do
  let after := after.filter (· != "")
  refuseIf (after.any (!validId ·) || limit < 1 || limit > 100) {
    code := "FILE_PAGE_INVALID", message := "Use a valid file ID cursor and limit 1..100", status := 400
    category := .VALIDATION }
  let _ ← key
  let names ← readFolder (tenantDigest tenant)
  let ids := listedIds names after
  let page := ids.take limit.toNat
  let files ← metadataOfAll C parse tenant page
  return { files, nextCursor := if ids.length > limit.toNat then page.getLast? else none }

/-- A client that follows the cursors, with a limit for each page, until there is none left. -/
def enumerate (tenant : String) (after : Option String) : List Int → Act (List Page)
  | [] => pure []
  | limit :: limits => do
    let page ← list C parse tenant after limit
    match page.nextCursor with
    | none => return [page]
    | some cursor => do
      let pages ← enumerate tenant (some cursor) limits
      return page :: pages

/-! ## Calls -/

inductive Call where
  | store (tenant subject name contentType : String) (data : Bytes)
  | metadata (tenant id : String)
  | read (tenant id : String)
  | list (tenant : String) (after : Option String) (limit : Int)
  | enumerate (tenant : String) (limits : List Int)
  | tamper (deed : Deed)

inductive Outcome where
  | stored (m : FileMetadata)
  | metadata (m : Json)
  | file (m : Json) (data : Bytes)
  | pages (pages : List Page)
  | tampered

def Call.program : Call → Act Outcome
  | .store tenant subject name contentType data => .stored <$> Files.store s C tenant subject name contentType data
  | .metadata tenant id => .metadata <$> Files.metadata C parse tenant id
  | .read tenant id => (fun r => .file r.1 r.2) <$> Files.read C parse tenant id
  | .list tenant after limit => (fun page => .pages [page]) <$> Files.list C parse tenant after limit
  | .enumerate tenant limits => .pages <$> Files.enumerate C parse tenant none limits
  | .tamper deed => (fun _ => .tampered) <$> Program.query (Query.tamper deed)

def service : Service World Call Query Query.Answer Failure Outcome Fate where
  program := Call.program s C parse
  serve := serve s

abbrev Moment := Config (System World Call) (Running Query Query.Answer Failure Outcome)

omit [Platform] in
def start : Moment := ⟨⟨World.empty, []⟩, []⟩

end

end Files
