-- SUMMARY: Two payloads that agree on what the rights admit are filtered to the same response.
import TwinServer.Sharing.Filter

/-!
# Noninterference of the payload filter

`Agree` lists what a reader is entitled to see of a payload. The filter respects
it stage by stage: every value it copies is determined by the property it reads,
up to the order of keys.
-/

open Js Js.Json

namespace Sharing

/-! ## Values that are the same give the same copy -/

theorem scalar_eq_of_same {v w : Json} (h : Same v w) : scalar v = scalar w := by
  cases h <;> rfl

theorem eq_of_scalar {v w : Json} (h : Same v w) (hv : scalar v) : v = w := by
  cases h with
  | refl => rfl
  | array _ => cases hv
  | object _ => cases hv

theorem filter_scalar_eq {v w : Option Json} (h : Same? v w) :
    v.filter scalar = w.filter scalar := by
  cases h with
  | none => rfl
  | @some v w h =>
    have hs := scalar_eq_of_same h
    cases hv : scalar v with
    | false => simp [Option.filter, hv, ← hs]
    | true => rw [eq_of_scalar h hv]

theorem annotations_eq {v w : Json} (h : Same v w) : annotations v = annotations w := by
  simp only [annotations, (h.get? "unit").asString?_eq, (h.get? "label").asString?_eq,
    (h.get? "semanticKey").asString?_eq]

theorem reading_same {v w : Json} (h : Same v w) : Same? (reading v) (reading w) := by
  simp only [reading, ← scalar_eq_of_same h]
  split
  case isTrue => exact .some h
  case isFalse =>
    rw [filter_scalar_eq (h.get? "value"), annotations_eq h]
    exact Same?.refl _

theorem identityField_eq {p q : Json} {key : String} (h : Same? (p.get? key) (q.get? key)) :
    identityField p key = identityField q key := by
  simp only [identityField, h.asString?_eq, h.asNumber?_eq]

theorem coordinate_eq {p q : Json} (h : Same p q) (key : String) :
    coordinate p key = coordinate q key := by
  simp only [coordinate, (h.get? key).asNumber?_eq]

theorem coordinateList_eq {v w : Option Json} (h : Same? v w) :
    coordinateList v = coordinateList w := by
  cases h with
  | none => rfl
  | some hab =>
    cases hab with
    | refl => rfl
    | object _ => rfl
    | @array as bs hf =>
      by_cases has : as.all isFiniteNumber
      · rw [eq_of_forall₂_isFiniteNumber hf has]
      · have hbs : ¬ bs.all isFiniteNumber := by rwa [← all_isFiniteNumber_eq hf]
        simp only [Bool.not_eq_true] at has hbs
        simp [coordinateList, has, hbs]

theorem pointCoordinates_eq {p q : Json} (h : Same p q) :
    pointCoordinates p = pointCoordinates q := by
  simp only [pointCoordinates, (h.get? "type").asString?_eq,
    coordinateList_eq (h.get? "coordinates")]

theorem cleanPosition_eq {p q : Json} (h : Same p q) : cleanPosition p = cleanPosition q := by
  have hcoord : coordinate p = coordinate q := funext (coordinate_eq h)
  simp only [cleanPosition, hcoord, pointCoordinates_eq h]

theorem positionField_eq {p q : Json} {key : String} (h : Same? (p.get? key) (q.get? key)) :
    positionField p key = positionField q key := by
  simp only [positionField]
  revert h
  generalize p.get? key = a
  generalize q.get? key = b
  intro h
  cases h with
  | none => rfl
  | some hab =>
    cases hab with
    | refl => rfl
    | array hf => simp only [cleanPosition_eq (Same.array hf)]
    | object hf => simp only [cleanPosition_eq (Same.object hf)]

/-! ## Agreement -/

/-- The measurement entry of a payload at a key. -/
def measurementEntry (payload : Json) (key : String) : Option Json :=
  (payload.get? "measurements").bind (·.get? key)

/-- `payload.measurements` is a plain object. -/
def hasMeasurements (payload : Json) : Bool :=
  (payload.get? "measurements").elim false isPlainObject

/-- Two payloads agree on everything that rights let through at a scope and an
observation time. Values are compared up to the order of keys. -/
structure Agree (rights : Rights) (scope : Nat) (observedAt : Number) (p q : Json) : Prop where
  identity : ∀ key ∈ identityKeys, identityField p key = identityField q key
  synthetic : syntheticFlag p = syntheticFlag q
  encrypted : encryptedFlag p = encryptedFlag q
  ciphertext : truthy? (p.get? "ciphertext") = truthy? (q.get? "ciphertext")
  cipherText : truthy? (p.get? "cipherText") = truthy? (q.get? "cipherText")
  shape : hasMeasurements p = hasMeasurements q
  measurements : hasMeasurements p → ∀ key, isKeySyntax key → isPrototypeKey key = false →
    isLocationKey key = false → measurementAllowed rights scope key observedAt →
    Same? (measurementEntry p key) (measurementEntry q key)
  flat : hasMeasurements p = false → ∀ key ∈ flatKeys,
    measurementAllowed rights scope key observedAt → Same? (p.get? key) (q.get? key)
  position : hasScope rights.scopes 8 → ∀ key ∈ positionKeys, Same? (p.get? key) (q.get? key)

/-- The same error, or responses that are equal up to the order of keys. -/
inductive SameOutcome : Except PolicyError Json → Except PolicyError Json → Prop where
  | error (e : PolicyError) : SameOutcome (.error e) (.error e)
  | ok {v w : Json} : Same v w → SameOutcome (.ok v) (.ok w)

section
variable {rights : Rights} {scope : Nat} {observedAt : Number} {p q : Record Json}

theorem Agree.isEncrypted_eq {p q : Json} (h : Agree rights scope observedAt p q) :
    isEncrypted p = isEncrypted q := by
  simp only [isEncrypted, h.encrypted, h.ciphertext, h.cipherText]

/-- A payload has measurements exactly when it yields a record of them. -/
theorem hasMeasurements_eq_isSome (payload : Json) :
    hasMeasurements payload = (measurementsOf payload).isSome := by
  simp only [hasMeasurements, measurementsOf]
  cases payload.get? "measurements" with
  | none => rfl
  | some v => cases v <;> rfl

theorem measurementEntry_of_measurementsOf {payload : Json} {m : Record Json}
    (h : measurementsOf payload = some m) (key : String) :
    measurementEntry payload key = m.get? key := by
  simp only [measurementsOf] at h
  split at h
  case h_1 hm =>
    cases h
    rw [measurementEntry, hm]
    rfl
  case h_2 => cases h

theorem filterMeasurements_same {m m' : Record Json}
    (h : Agree rights scope observedAt (.object p) (.object q))
    (hm : measurementsOf (.object p) = some m) (hm' : measurementsOf (.object q) = some m') :
    SameRecord (filterMeasurements m rights scope observedAt)
      (filterMeasurements m' rights scope observedAt) := by
  intro key
  simp only [get?_filterMeasurements]
  split
  case isTrue hadmits =>
    simp only [admitsKey, Bool.and_eq_true, Bool.not_eq_true'] at hadmits
    obtain ⟨⟨⟨hkey, hproto⟩, hloc⟩, hallow⟩ := hadmits
    have hplain : hasMeasurements (.object p) := by simp [hasMeasurements_eq_isSome, hm]
    have hentry := h.measurements hplain key hkey hproto hloc hallow
    rw [measurementEntry_of_measurementsOf hm, measurementEntry_of_measurementsOf hm'] at hentry
    revert hentry
    generalize m.get? key = a
    generalize m'.get? key = b
    intro hentry
    cases hentry with
    | none => exact .none
    | some hab => exact reading_same hab
  case isFalse => exact .none

theorem filterFlat_same {out out' : Record Json}
    (h : Agree rights scope observedAt (.object p) (.object q))
    (hm : hasMeasurements (.object p) = false) (hout : SameRecord out out') :
    SameRecord (filterFlat p rights scope observedAt out)
      (filterFlat q rights scope observedAt out') := by
  intro key
  simp only [get?_filterFlat]
  have hread : (if admitsFlat rights scope observedAt key then
        (p.get? key).filter scalar else none) =
      (if admitsFlat rights scope observedAt key then (q.get? key).filter scalar else none) := by
    split
    case isTrue hadmits =>
      simp only [admitsFlat, Bool.and_eq_true, List.contains_iff_mem] at hadmits
      exact filter_scalar_eq (h.flat hm key hadmits.1.2 hadmits.2)
    case isFalse => rfl
  rw [hread]
  have hk := hout key
  revert hk
  generalize out.get? key = a
  generalize out'.get? key = b
  intro hk
  cases hk with
  | none => exact Same?.refl _
  | some hab => exact .some hab

theorem filterHeader_same {p q : Json} (h : Agree rights scope observedAt p q) :
    SameRecord (filterHeader p) (filterHeader q) := by
  have hidentity : SameRecord (Record.assignAll (identityField p) identityKeys [])
      (Record.assignAll (identityField q) identityKeys []) := by
    refine (SameRecord.refl []).assignAll fun key hkey => ?_
    rw [h.identity key hkey]
    exact Same?.refl _
  simp only [filterHeader, h.synthetic]
  split
  · exact hidentity.set _ (.refl _)
  · exact hidentity

theorem filterTelemetry_same (h : Agree rights scope observedAt (.object p) (.object q)) :
    SameRecord (filterTelemetry p rights scope observedAt)
      (filterTelemetry q rights scope observedAt) := by
  have hshape := h.shape
  simp only [hasMeasurements_eq_isSome] at hshape
  simp only [filterTelemetry]
  cases hm : measurementsOf (.object p) with
  | some m =>
    rw [hm] at hshape
    obtain ⟨m', hm'⟩ := Option.isSome_iff_exists.mp hshape.symm
    simp only [hm']
    exact (filterHeader_same h).set "measurements" (.object (filterMeasurements_same h hm hm'))
  | none =>
    rw [hm] at hshape
    have hm' : measurementsOf (.object q) = none := by
      cases hq : measurementsOf (.object q) with
      | none => rfl
      | some m' => rw [hq] at hshape; cases hshape
    simp only [hm']
    exact filterFlat_same h (by simp [hasMeasurements_eq_isSome, hm]) (filterHeader_same h)

/-- The responses assembled from two payloads that agree. -/
theorem filterFields_same (h : Agree rights scope observedAt (.object p) (.object q)) :
    SameRecord (filterFields p rights scope observedAt) (filterFields q rights scope observedAt) := by
  simp only [filterFields]
  split
  case isTrue hloc =>
    refine (filterTelemetry_same h).assignAll fun key hkey => ?_
    rw [positionField_eq (h.position hloc key hkey)]
    exact Same?.refl _
  case isFalse => exact filterTelemetry_same h

end

/-- Nothing but what the rights admit influences what a reader receives: payloads
that agree on it are filtered to the same response, or rejected with the same
error. -/
theorem filterPayload_noninterference {rights : Rights} {scope : Nat} {observedAt : Number}
    {p q : Record Json} (hlegacy : rights.legacy = false)
    (h : Agree rights scope observedAt (.object p) (.object q)) :
    SameOutcome (filterPayload (.object p) rights scope observedAt)
      (filterPayload (.object q) rights scope observedAt) := by
  simp only [filterPayload, hlegacy, Bool.false_and, Bool.false_eq_true, if_false]
  rw [h.isEncrypted_eq]
  cases hasScope rights.scopes scope with
  | false => exact .error _
  | true =>
    cases isEncrypted (.object q) with
    | true => exact .error _
    | false =>
      cases outsideHistory rights scope observedAt with
      | true => exact .error _
      | false => exact .ok (.object (filterFields_same h))

/-! ### A reader of one measurement -/

/-- The rights of a reader who holds realtime access to `pvPower`. -/
def pvPowerRights : Rights where
  discover := true
  scopes := 7
  publicScopes := 0
  reader := some { did := "did:iota:0x2", scopes := 7, validFrom := 100, expiresAt := 2000,
                   historyFrom := 100, historyTo := 300, allMeasurements := false,
                   measurements := ["pvPower"] }
  owner := false
  revision := some (.string "1")
  expiresAt := 2000

/-- A payload with one granted measurement and much that is not granted. -/
def plantPayload (load : Nat) (secret : String) : Record Json :=
  [("measurements", .object [("pvPower", .object [("value", .number 9), ("unit", .string "kW")]),
      ("loadPower", .object [("value", .number load)])]),
   ("position", .object [("latitude", .number load)]),
   ("password", .string secret)]

theorem measurementAllowed_pvPowerRights {key : String}
    (h : measurementAllowed pvPowerRights 1 key 1000) : key = "pvPower" := by
  simpa [measurementAllowed, pvPowerRights, hasScope, Reader.grants] using h

theorem filterPayload_noninterference_pvPower :
    pvPowerRights.legacy = false ∧
    Agree pvPowerRights 1 1000 (.object (plantPayload 8 "a")) (.object (plantPayload 7 "b")) ∧
    SameOutcome (filterPayload (.object (plantPayload 8 "a")) pvPowerRights 1 1000)
      (filterPayload (.object (plantPayload 7 "b")) pvPowerRights 1 1000) := by
  have hagree : Agree pvPowerRights 1 1000 (.object (plantPayload 8 "a"))
      (.object (plantPayload 7 "b")) :=
    { identity := by
        intro key hkey
        simp only [identityKeys, List.mem_cons, List.not_mem_nil, or_false] at hkey
        rcases hkey with rfl | rfl | rfl | rfl | rfl <;> rfl
      synthetic := rfl
      encrypted := rfl
      ciphertext := rfl
      cipherText := rfl
      shape := rfl
      measurements := by
        intro _ key _ _ _ hkey
        obtain rfl := measurementAllowed_pvPowerRights hkey
        exact Same?.refl _
      flat := by intro h; cases h
      position := by intro h; cases h }
  exact ⟨rfl, hagree, filterPayload_noninterference rfl hagree⟩

end Sharing
