-- SUMMARY: What the file service writes: its keys, envelopes, associated data, names and index records, and what opens.
import TwinServer.Base.Base64
import TwinServer.Base.Cipher
import TwinServer.Base.Serial
import TwinServer.Storage.Providers

/-!
# Envelopes

The functions of `src/files/service.ts` that compute: an envelope holds a version, a nonce, a tag and a body, and its
associated data name the tenant, the file and what the envelope is for. The index record of a file is an envelope of the
metadata and of the URI of the content.
-/

open Js Js.Json Storage

namespace Files

/-- The bytes of a text. -/
def utf8 (s : String) : Bytes := s.toByteArray.data.toList

theorem utf8_injective {s t : String} (h : utf8 s = utf8 t) : s = t :=
  String.toByteArray_inj.mp (ByteArray.ext (Array.toList_inj.mp h))

def MAX_FILE_BYTES : Nat := 16 * 1024 * 1024

/-! ## Ids and names -/

/-- The characters of the text fit the classes, one each. -/
def fits : List (Char → Bool) → List Char → Bool
  | [], [] => true
  | p :: ps, c :: cs => p c && fits ps cs
  | _, _ => false

/-- The classes of `/^[0-9a-f]{8}-[0-9a-f]{4}-4[0-9a-f]{3}-[89ab][0-9a-f]{3}-[0-9a-f]{12}$/`. -/
def uuidClasses : List (Char → Bool) :=
  .replicate 8 isLowerHex ++ [(· == '-')] ++ .replicate 4 isLowerHex ++ [(· == '-'), (· == '4')] ++
    .replicate 3 isLowerHex ++ [(· == '-'), fun c => c == '8' || c == '9' || c == 'a' || c == 'b'] ++
    .replicate 3 isLowerHex ++ [(· == '-')] ++ .replicate 12 isLowerHex

def validId (id : String) : Bool := fits uuidClasses id.toList

/-- What `randomUUID` returns. -/
abbrev Uuid := { id : String // validId id }

def indexName (id : String) : String := id ++ ".idx"

def temporaryName (id : String) : String := "." ++ id ++ ".tmp"

/-- `name.slice(0, -4)`. -/
def withoutSuffix (name : String) : String := .ofList (name.toList.take (name.toList.length - 4))

/-- The id of a name that ends with `.idx`, when it is valid. -/
def indexId? (name : String) : Option String :=
  if ".idx".toList.isSuffixOf name.toList && validId (withoutSuffix name) then some (withoutSuffix name) else none

theorem withoutSuffix_indexName (id : String) : withoutSuffix (indexName id) = id := by
  have hlength : (id.toList ++ ".idx".toList).length - 4 = id.toList.length := by simp
  rw [withoutSuffix, indexName, String.toList_append, hlength, List.take_left, String.ofList_toList]

theorem indexId?_eq_some_iff {name id : String} : indexId? name = some id ↔ name = indexName id ∧ validId id := by
  unfold indexId?
  rw [Option.ite_none_right_eq_some, Bool.and_eq_true, List.isSuffixOf_iff_suffix]
  constructor
  · rintro ⟨⟨⟨front, hfront⟩, hvalid⟩, hid⟩
    have hname : name = indexName (.ofList front) := by
      apply String.toList_inj.mp
      rw [indexName, String.toList_append, String.toList_ofList, hfront]
    rw [hname, withoutSuffix_indexName] at hid hvalid
    obtain rfl := Option.some.inj hid
    exact ⟨hname, hvalid⟩
  · rintro ⟨rfl, hvalid⟩
    rw [withoutSuffix_indexName]
    exact ⟨⟨⟨id.toList, by rw [indexName, String.toList_append]⟩, hvalid⟩, rfl⟩

theorem indexName_injective {id id' : String} (h : indexName id = indexName id') : id = id' := by
  rw [← withoutSuffix_indexName id, h, withoutSuffix_indexName]

theorem temporaryName_injective {id id' : String} (h : temporaryName id = temporaryName id') : id = id' := by
  have hlist := congrArg String.toList h
  simp only [temporaryName, String.toList_append] at hlist
  exact String.toList_inj.mp (List.append_cancel_left (List.append_cancel_right hlist))

theorem indexName_ne_temporaryName (id id' : String) : indexName id ≠ temporaryName id' := by
  intro h
  have hlast := congrArg (fun s => s.toList.getLast?) h
  simp only [indexName, temporaryName, String.toList_append, List.getLast?_append] at hlast
  cases hlast

/-! ## Metadata -/

structure FileMetadata where
  id : String
  name : String
  contentType : String
  size : Nat
  sha256 : String
  createdAt : String
  createdBy : String
  deriving DecidableEq

def FileMetadata.json (m : FileMetadata) : Json :=
  .object [("id", .string m.id), ("name", .string m.name), ("contentType", .string m.contentType),
    ("size", .number m.size), ("sha256", .string m.sha256), ("createdAt", .string m.createdAt),
    ("createdBy", .string m.createdBy)]

/-- The class `[a-zA-Z0-9!#$&^_.+-]`. -/
def isMimeChar (c : Char) : Bool := c.isAlphanum || "!#$&^_.+-".toList.contains c

def isMimePart (cs : List Char) : Bool := !cs.isEmpty && cs.all isMimeChar

/-- The expression `/^[a-zA-Z0-9!#$&^_.+-]+\/[a-zA-Z0-9!#$&^_.+-]+$/`; no character of a part is a slash. -/
def isMimeType (s : String) : Bool :=
  match Mqtt.splitChars '/' s.toList with
  | [type, subtype] => isMimePart type && isMimePart subtype
  | _ => false

def isNameChar (c : Char) : Bool := !(c.toNat < 32 || c.toNat == 127 || c == '/' || c == '\\')

/-- The checks of a name and a content type in `store`. -/
def isAcceptable (name contentType : String) : Bool :=
  trim name != "" && (utf8 name).length ≤ 240 && name.toList.all isNameChar && name != "." && name != ".." &&
    isMimeType contentType && utf16Length contentType ≤ 128

/-! ## Keys -/

/-- A letter of the alphabet of `toString("base64")`. -/
def base64Digit (n : Nat) : Char := if n = 62 then '+' else if n = 63 then '/' else Base64.digit n

/-- `key.toString("base64")`, padded to groups of four. -/
def toBase64 (bytes : List Nat) : List Char :=
  let digits := (Base64.split bytes).map base64Digit
  digits ++ .replicate ((4 - digits.length % 4) % 4) '='

/-- The key of a credential, when it is the canonical text of 32 bytes. -/
def fileKey (encoded : String) : Option Bytes :=
  let key := Base64.decode encoded.toList
  if key.length ≠ 32 ∨ String.ofList (toBase64 key) ≠ encoded then none else some (key.map UInt8.ofNat)

/-! ## Envelopes -/

abbrev Nonce := { bytes : Bytes // bytes.length = 12 }

inductive Purpose where
  | content | index

def Purpose.text : Purpose → String
  | content => "content"
  | index => "index"

section
variable [Platform]

/-- `digest` of a buffer or of a string. -/
def digest (data : Bytes) : String := sha256 data

def tenantDigest (tenant : String) : String := digest (utf8 tenant)

/-- The associated data of a file of the tenant with the digest. -/
def aadOf (tenant id : String) (purpose : Purpose) : Bytes :=
  utf8 (stringify (.array [.string "dtis-files", .number 1, .string tenant, .string id, .string purpose.text]))

/-- The method `aad`. -/
def aad (tenant id : String) (purpose : Purpose) : Bytes := aadOf (tenantDigest tenant) id purpose

variable (C : Cipher)

omit [Platform] in
/-- `encrypt` with the nonce that was drawn. -/
def encrypt (bytes key aad : Bytes) (nonce : Nonce) : Bytes :=
  1 :: (nonce.1 ++ ((C.encrypt key nonce.1 aad bytes).1 ++ (C.encrypt key nonce.1 aad bytes).2))

omit [Platform] in
def decrypt (bytes key aad : Bytes) : Option Bytes :=
  if bytes.length < 29 ∨ bytes.head? ≠ some 1 then none
  else C.decrypt key ((bytes.drop 1).take 12) aad ((bytes.drop 13).take 16) (bytes.drop 29)

/-- The text of an index record. -/
def indexText (m : FileMetadata) (uri : String) : Bytes :=
  utf8 (stringify (.object [("metadata", m.json), ("uri", .string uri)]))

/-- The metadata and the URI of an index record; `parse` is `JSON.parse` of the bytes as a string. -/
def readIndex (parse : Bytes → Option Json) (id : String) (text : Bytes) : Option (Json × String) := do
  let record ← parse text
  let metadata ← record.get? "metadata"
  guard (asString? (metadata.get? "id") = some id)
  let uri ← asString? (record.get? "uri")
  return (metadata, uri)

/-- The data have the size and the digest of the metadata. -/
def isContentOf (metadata : Json) (data : Bytes) : Bool :=
  asNumber? (metadata.get? "size") == some (Number.ofNat data.length) &&
    asString? (metadata.get? "sha256") == some (digest data)

/-! ## What opens -/

variable {C} {key key' text text' : Bytes}

omit [Platform] in
/-- An envelope is decrypted by its parts. -/
theorem decrypt_eq (hideal : C.Ideal) (aad aad' : Bytes) (nonce : Nonce) :
    decrypt C (encrypt C text key' aad' nonce) key aad =
      C.decrypt key nonce.1 aad (C.encrypt key' nonce.1 aad' text).1 (C.encrypt key' nonce.1 aad' text).2 := by
  have htag := hideal.tag_length key' nonce.1 aad' text
  have hnonce := nonce.2
  have hlength : ¬ (encrypt C text key' aad' nonce).length < 29 := by
    simp only [encrypt, List.length_cons, List.length_append, htag, hnonce]
    omega
  have hhead : (encrypt C text key' aad' nonce).head? = some 1 := rfl
  have hnonceBytes : ((encrypt C text key' aad' nonce).drop 1).take 12 = nonce.1 := by
    rw [encrypt, List.drop_succ_cons, List.drop_zero, List.take_left' hnonce]
  have htagBytes : ((encrypt C text key' aad' nonce).drop 13).take 16 = (C.encrypt key' nonce.1 aad' text).1 := by
    rw [encrypt, List.drop_succ_cons, List.drop_left' hnonce, List.take_left' htag]
  have hbody : (encrypt C text key' aad' nonce).drop 29 = (C.encrypt key' nonce.1 aad' text).2 := by
    rw [encrypt, List.drop_succ_cons, ← List.append_assoc]
    apply List.drop_left'
    rw [List.length_append, hnonce, htag]
  rw [decrypt, if_neg (by simp [hlength, hhead]), hnonceBytes, htagBytes, hbody]

omit [Platform] in
theorem decrypt_encrypt (hideal : C.Ideal) (aad : Bytes) (nonce : Nonce) :
    decrypt C (encrypt C text key aad nonce) key aad = some text := by
  rw [decrypt_eq hideal]
  exact hideal.decrypt_encrypt _ _ _ _

omit [Platform] in
/-- An envelope opens under its own key and for its own data only. -/
theorem eq_of_decrypt (hideal : C.Ideal) {aad aad' : Bytes} {nonce : Nonce}
    (h : decrypt C (encrypt C text' key' aad' nonce) key aad = some text) :
    key = key' ∧ aad = aad' ∧ text = text' := by
  rw [decrypt_eq hideal] at h
  exact hideal.authentic h

omit [Platform] in
theorem Purpose.text_injective {p q : Purpose} (h : p.text = q.text) : p = q := by
  cases p <;> cases q <;> first | rfl | exact absurd h (by decide)

/-- The associated data tell files and purposes apart. -/
theorem aadOf_injective [NumberText] {tenant tenant' id id' : String} {p p' : Purpose}
    (h : aadOf tenant id p = aadOf tenant' id' p') : tenant = tenant' ∧ id = id' ∧ p = p' := by
  have hwritten := (stringify_eq_iff _ _).mp (utf8_injective h)
  have hone : (1 : Number).isFinite := rfl
  simp only [written, writtenItems, hone, if_true, Json.array.injEq, List.cons.injEq, Json.string.injEq, true_and,
    and_true] at hwritten
  exact ⟨hwritten.1, hwritten.2.1, Purpose.text_injective hwritten.2.2⟩

/-! ## Index records -/

/-- `JSON.parse(bytes.toString("utf8"))` reads what was written. -/
def ReadsUtf8 (parse : Bytes → Option Json) : Prop := ∀ v, parse (utf8 (stringify v)) = some (written v)

open Classical in
/-- A parser of bytes that were written. -/
noncomputable def parseUtf8 (bytes : Bytes) : Option Json :=
  if h : ∃ v, utf8 (stringify v) = bytes then some (written h.choose) else none

theorem reads_parseUtf8 [NumberText] : ReadsUtf8 parseUtf8 := by
  intro v
  have h : ∃ w, utf8 (stringify w) = utf8 (stringify v) := ⟨v, rfl⟩
  rw [parseUtf8, dif_pos h, (stringify_eq_iff _ _).mp (utf8_injective h.choose_spec)]

variable {parse : Bytes → Option Json} {m m' : FileMetadata} {uri uri' id : String}

omit [Platform] in
theorem written_json (m : FileMetadata) : written m.json = m.json := by
  have hsize : (Number.ofNat m.size).isFinite := rfl
  simp [FileMetadata.json, written, writtenMembers, hsize]

omit [Platform] in
theorem asString?_id (m : FileMetadata) : asString? (m.json.get? "id") = some m.id := rfl

/-- An index record is read for its own id only. -/
theorem readIndex_indexText (hreads : ReadsUtf8 parse) :
    readIndex parse id (indexText m uri) = if m.id = id then some (m.json, uri) else none := by
  have hparse : parse (indexText m uri) = some (.object [("metadata", m.json), ("uri", .string uri)]) := by
    rw [indexText, hreads]
    simp [written, writtenMembers, written_json]
  have hmetadata : (Json.object [("metadata", m.json), ("uri", .string uri)]).get? "metadata" = some m.json := rfl
  have huri : asString? ((Json.object [("metadata", m.json), ("uri", .string uri)]).get? "uri") = some uri := rfl
  simp only [readIndex, hparse, hmetadata, huri, asString?_id, Option.bind_eq_bind, Option.bind_some, Option.some.injEq]
  by_cases hid : m.id = id
  · simp [guard, hid]
  · simp [guard, hid]

omit [Platform] in
theorem json_injective (h : m.json = m'.json) : m = m' := by
  cases m
  cases m'
  simp only [FileMetadata.json, Json.object.injEq, List.cons.injEq, Prod.mk.injEq, Json.string.injEq,
    Json.number.injEq, true_and, and_true] at h
  obtain ⟨rfl, rfl, rfl, hsize, rfl, rfl, rfl⟩ := h
  rw [Number.ofNat_injective hsize]

/-- An index record has one reading. -/
theorem indexText_injective (hreads : ReadsUtf8 parse) (h : indexText m uri = indexText m' uri') : m = m' := by
  have hleft : readIndex parse m.id (indexText m uri) = some (m.json, uri) :=
    (readIndex_indexText hreads).trans (if_pos rfl)
  rw [ h, readIndex_indexText hreads] at hleft
  exact (json_injective (Prod.mk.inj (Option.some.inj (Option.ite_none_right_eq_some.mp hleft).2)).1).symm

theorem isContentOf_json {data : Bytes} (hsize : m.size = data.length) (hsha : m.sha256 = digest data) :
    isContentOf m.json data := by
  have hsize' : asNumber? (m.json.get? "size") = some (Number.ofNat m.size) := rfl
  have hsha' : asString? (m.json.get? "sha256") = some m.sha256 := rfl
  simp [isContentOf, hsize', hsha', hsize, hsha]

end

end Files
