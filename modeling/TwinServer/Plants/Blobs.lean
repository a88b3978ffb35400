-- SUMMARY: The encrypted blobs of plants: their envelope, the data they are bound to, and what opens.
import TwinServer.Base.Aead
import TwinServer.Plants.Catalog

/-!
# Blobs

A blob holds the id and the document of a plant. It is encrypted with associated data that name the
scope, the plant, the revision and the publication of its pointer, but neither the blob nor the put.
-/

open Js Js.Json Thread

namespace Plants

abbrev Nonce := { bytes : List Nat // bytes.length = 12 }

section
variable (A : Aead)

/-- The version byte, the nonce, the tag and the ciphertext. -/
def envelope (key : List Nat) (nonce : Nonce) (aad text : String) : List Nat :=
  1 :: (nonce.1 ++ ((A.encrypt key nonce.1 aad text).1 ++ (A.encrypt key nonce.1 aad text).2))

/-- The text of an envelope. -/
def openEnvelope (key : List Nat) (aad : String) (bytes : List Nat) : Option String :=
  if bytes.length < 30 ∨ bytes.head? ≠ some 1 then none
  else A.decrypt key ((bytes.drop 1).take 12) aad ((bytes.drop 13).take 16) (bytes.drop 29)

variable {A} {key key' : List Nat} {aad aad' text : String}

/-- An envelope is decrypted by its parts. -/
theorem openEnvelope_eq_decrypt (hideal : A.Ideal) (nonce : Nonce) (htext : text ≠ "") :
    openEnvelope A key aad (envelope A key' nonce aad' text) =
      A.decrypt key nonce.1 aad (A.encrypt key' nonce.1 aad' text).1
        (A.encrypt key' nonce.1 aad' text).2 := by
  have htag := hideal.tag_length key' nonce.1 aad' text
  have hciphertext := List.length_pos_iff.mpr (hideal.ciphertext_ne key' nonce.1 aad' text htext)
  have hnonce := nonce.2
  have hlength : ¬ (envelope A key' nonce aad' text).length < 30 := by
    simp only [envelope, List.length_cons, List.length_append]
    omega
  have htagBytes : ((envelope A key' nonce aad' text).drop 13).take 16 =
      (A.encrypt key' nonce.1 aad' text).1 := by
    rw [envelope, List.drop_succ_cons, List.drop_left' hnonce, List.take_left' htag]
  have hrest : (envelope A key' nonce aad' text).drop 29 = (A.encrypt key' nonce.1 aad' text).2 := by
    rw [envelope, List.drop_succ_cons, ← List.append_assoc]
    apply List.drop_left'
    rw [List.length_append, hnonce, htag]
  have hnonceBytes : ((envelope A key' nonce aad' text).drop 1).take 12 = nonce.1 := by
    rw [envelope, List.drop_succ_cons, List.drop_zero, List.take_left' hnonce]
  have hversion : (envelope A key' nonce aad' text).head? = some 1 := rfl
  unfold openEnvelope
  rw [if_neg (by simp [hlength, hversion]), htagBytes, hrest, hnonceBytes]

theorem openEnvelope_envelope (hideal : A.Ideal) (nonce : Nonce) (htext : text ≠ "") :
    openEnvelope A key aad (envelope A key nonce aad text) = some text := by
  rw [openEnvelope_eq_decrypt hideal nonce htext]
  exact hideal.decrypt_encrypt _ _ _ _

/-- An envelope opens under its own key and for its own data only. -/
theorem eq_of_openEnvelope (hideal : A.Ideal) {nonce : Nonce} (htext : text ≠ "") {text' : String}
    (h : openEnvelope A key aad (envelope A key' nonce aad' text) = some text') :
    key = key' ∧ aad = aad' ∧ text' = text := by
  rw [openEnvelope_eq_decrypt hideal nonce htext] at h
  exact hideal.authentic h

end

section
variable [Services]

/-- The data that a pointer binds its blob to. -/
def Pointer.aad (p : Pointer) : String :=
  stringify (.array [.string "dtis-plants", .number 1, .string p.scope, .string p.plant,
    .number p.revision, publicationJson p.publication])

def recordText (id : String) (document : Record Json) : String :=
  stringify (.object [("id", .string id), ("document", .object document)])

variable (A : Aead) (parse : String → Option Json)

/-- The record of a plant with the digest. -/
def readRecord (plant : String) (text : String) : Option (String × Record Json) := do
  let v ← parse text
  let id ← validId (v.get? "id")
  guard (sha256 id = plant)
  match v.get? "document" with
  | some (.object document) => some (id, document)
  | _ => none

/-- The plant of a pointer, when the bytes are a blob of it. -/
def openBlob (key : List Nat) (p : Pointer) (bytes : List Nat) : Option Plant := do
  let text ← openEnvelope A key p.aad bytes
  let record ← readRecord parse p.plant text
  return {
    id := record.1, revision := p.revision, document := record.2
    publication := p.publication.map Projection.toPublication }

variable {A} {parse} {key : List Nat} {p q : Pointer} {id : String} {document : Record Json}

omit [Services] in
theorem written_publicationJson {published : Option Projection}
    (h : ∀ q, published = some q → q.toPublication.Valid) :
    written (publicationJson published) = publicationJson published := by
  cases published with
  | none => rfl
  | some q =>
    obtain ⟨-, hlatitude, hlongitude⟩ := h q rfl
    simp [publicationJson, Projection.json, written, writtenMembers, writtenItems,
      isFinite_of_isWithin hlatitude, isFinite_of_isWithin hlongitude]

omit [Services] in
theorem publicationJson_injective {a b : Option Projection} (h : publicationJson a = publicationJson b) :
    a = b := by
  cases a with
  | none =>
    cases b with
    | none => rfl
    | some b => cases h
  | some a =>
    cases b with
    | none => cases h
    | some b =>
      obtain ⟨a, id⟩ := a
      obtain ⟨b, id'⟩ := b
      obtain ⟨name, longitude, latitude⟩ := a
      obtain ⟨name', longitude', latitude'⟩ := b
      simp only [publicationJson, Projection.json, Json.object.injEq, List.cons.injEq, Prod.mk.injEq,
        Json.string.injEq, Json.array.injEq, Json.number.injEq] at h
      grind

/-- Pointers whose blobs may stand for each other. -/
structure Interchangeable (p q : Pointer) : Prop where
  scope : p.scope = q.scope
  plant : p.plant = q.plant
  revision : p.revision = q.revision
  publication : p.publication = q.publication

/-- The associated data tell pointers apart by all that they name. -/
theorem aad_eq_iff [NumberText] (hp : ∀ x, p.publication = some x → x.toPublication.Valid)
    (hq : ∀ x, q.publication = some x → x.toPublication.Valid) :
    p.aad = q.aad ↔ Interchangeable p q := by
  have hone : (1 : Number).isFinite := rfl
  have hfinite (n : Nat) : (Number.ofNat n).isFinite := rfl
  unfold Pointer.aad
  rw [stringify_eq_iff]
  simp only [written, writtenItems, hone, hfinite, if_true, written_publicationJson hp,
    written_publicationJson hq, Json.array.injEq, List.cons.injEq, Json.string.injEq, Json.number.injEq,
    true_and, and_true]
  constructor
  · rintro ⟨hscope, hplant, hrevision, hpublication⟩
    exact ⟨hscope, hplant, Number.ofNat_injective hrevision, publicationJson_injective hpublication⟩
  · rintro ⟨hscope, hplant, hrevision, hpublication⟩
    simp [hscope, hplant, hrevision, hpublication]

theorem recordText_ne (id : String) (document : Record Json) : recordText id document ≠ "" := by
  intro h
  have htext := congrArg String.toList h
  simp [recordText, stringify, write] at htext

theorem readRecord_recordText (hreads : Reads parse) (hid : isValidId id) :
    readRecord parse (sha256 id) (recordText id document) = some (id, leftOf document) := by
  unfold readRecord recordText
  rw [hreads]
  simp [written, writtenMembers, Json.get?, Record.get?_cons, validId, asString?, Option.filter_some,
    hid, leftOf]

/-- The blob of a put is read back. -/
theorem openBlob_envelope (hreads : Reads parse) (hideal : A.Ideal) (hid : isValidId id)
    (hplant : p.plant = sha256 id) (nonce : Nonce) :
    openBlob A parse key p (envelope A key nonce p.aad (recordText id document)) =
      some { id, revision := p.revision, document := leftOf document
             publication := p.publication.map Projection.toPublication } := by
  unfold openBlob
  rw [openEnvelope_envelope hideal nonce (recordText_ne id document), hplant]
  simp [readRecord_recordText hreads hid]

end

end Plants
