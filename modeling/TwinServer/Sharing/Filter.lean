-- SUMMARY: The payload filter: what of a payload a reader receives, and that nothing else influences it.
import TwinServer.Sharing.Policy

/-!
# Filtering payloads

`filterPayload` reconstructs a response from an allow-list. Its body is a sequence
of loops that assign to the response; each of them is described by the property it
leaves at every key, and from these descriptions two payloads that agree on what
the rights admit are filtered to the same response.
-/

open Js Js.Json

namespace Sharing

/-! ## The filter -/

def identityKeys : List String := ["schema", "assetId", "machineName", "sequence", "observedAt"]

/-- `scalar(v)`. -/
def scalar : Json → Bool
  | .bool _ | .string _ => true
  | .number x => x.isFinite
  | _ => false

def locationNames : List String :=
  ["lat", "latitude", "lon", "lng", "longitude", "altitude", "heading", "headingDegrees", "speed",
   "speedKph", "accuracy", "accuracyMeters", "position", "location", "gps", "coordinates"]

/-- The expression `locationKeys`, which ignores the case of ASCII letters. -/
def isLocationKey (key : String) : Bool := (locationNames.map asciiLower).contains (asciiLower key)

def flatKeys : List String :=
  ["temperature", "vibration", "rpm", "activePower", "power", "pressure", "energy", "pvPower",
   "loadPower", "gridPower", "gridImportPower", "gridExportPower", "solarIrradiance"]

def positionKeys : List String := ["position", "location", "gps"]

def coordinateKeys : List String :=
  ["lat", "latitude", "lon", "lng", "longitude", "altitude", "speedKph", "headingDegrees",
   "accuracyMeters", "observedAt"]

/-- An identity field is copied when it is a string or a number. -/
def identityField (payload : Json) (key : String) : Option Json :=
  ((asString? (payload.get? key)).map .string).or ((asNumber? (payload.get? key)).map .number)

/-- `payload.simulation?.synthetic` when it is a boolean. -/
def syntheticFlag (payload : Json) : Option Bool :=
  asBool? ((payload.get? "simulation").bind (·.get? "synthetic"))

/-- The annotations kept of a measurement object. -/
def annotations (v : Json) : List (String × Json) :=
  let unit := asString? (v.get? "unit")
  let label := (asString? (v.get? "label")).map (sliceTo 128)
  let semanticKey := (asString? (v.get? "semanticKey")).filter isKeySyntax
  let entry (k : String) : Option String → List (String × Json)
    | some s => [(k, .string s)]
    | none => []
  entry "unit" unit ++ entry "label" label ++ entry "semanticKey" semanticKey

/-- The entry a measurement value becomes: a scalar as it is, an object cut down
to its value and three annotations. -/
def reading (v : Json) : Option Json :=
  if scalar v then some v
  else ((v.get? "value").filter scalar).map fun value =>
    .object (("value", value) :: annotations v)

/-- The key of a measurement the rights admit. -/
def admitsKey (rights : Rights) (scope : Nat) (observedAt : Number) (key : String) : Bool :=
  isKeySyntax key && !isPrototypeKey key && !isLocationKey key &&
    measurementAllowed rights scope key observedAt

/-- The loop over `payload.measurements`. -/
def filterMeasurements (measurements : Record Json) (rights : Rights) (scope : Nat)
    (observedAt : Number) : Record Json :=
  Record.assignAll
    (fun key =>
      if admitsKey rights scope observedAt key then (measurements.get? key).bind reading else none)
    (measurements.entries.map Prod.fst) []

/-- One round of the loop over a flat legacy payload. -/
def flatStep (rights : Rights) (scope : Nat) (observedAt : Number) (out : Record Json)
    (entry : String × Json) : Record Json :=
  let (key, value) := entry
  if !out.hasOwn key && !isLocationKey key && flatKeys.contains key && scalar value &&
      measurementAllowed rights scope key observedAt then
    out.set key value
  else out

def filterFlat (fields : Record Json) (rights : Rights) (scope : Nat) (observedAt : Number)
    (out : Record Json) : Record Json :=
  fields.entries.foldl (flatStep rights scope observedAt) out

/-- A coordinate is copied when it is a finite number. -/
def coordinate (p : Json) (key : String) : Option Json :=
  ((asNumber? (p.get? key)).filter Number.isFinite).map .number

/-- An array of two or three finite numbers. -/
def coordinateList : Option Json → Option (List Json)
  | some (.array cs) =>
    if cs.length ≥ 2 && cs.length ≤ 3 && cs.all isFiniteNumber then some cs else none
  | _ => none

/-- The coordinates of a GeoJSON point. -/
def pointCoordinates (p : Json) : Option (List Json) :=
  if asString? (p.get? "type") = some "Point" then coordinateList (p.get? "coordinates") else none

def cleanPosition (p : Json) : Record Json :=
  let clean := Record.assignAll (coordinate p) coordinateKeys []
  match pointCoordinates p with
  | some cs => ((clean.set "type" (.string "Point")).set "coordinates" (.array cs)).set "crs"
      (.string "EPSG:4326")
  | none => clean

/-- A position field is cleaned when it is an object, arrays included. -/
@[local grind] def positionField (payload : Json) (key : String) : Option Json :=
  match payload.get? key with
  | some (.object fields) => some (.object (cleanPosition (.object fields)))
  | some (.array items) => some (.object (cleanPosition (.array items)))
  | _ => none

/-- `payload.measurements` when it is a plain object. -/
def measurementsOf (payload : Json) : Option (Record Json) :=
  match payload.get? "measurements" with
  | some (.object measurements) => some measurements
  | _ => none

/-- The identity fields and the simulation flag. -/
def filterHeader (payload : Json) : Record Json :=
  let out := Record.assignAll (identityField payload) identityKeys []
  match syntheticFlag payload with
  | some b => out.set "simulation" (.object [("synthetic", .bool b)])
  | none => out

/-- The header with the measurements, or with the flat telemetry. -/
def filterTelemetry (payload : Record Json) (rights : Rights) (scope : Nat)
    (observedAt : Number) : Record Json :=
  let out := filterHeader (.object payload)
  match measurementsOf (.object payload) with
  | some measurements =>
    out.set "measurements" (.object (filterMeasurements measurements rights scope observedAt))
  | none => filterFlat payload rights scope observedAt out

/-- The response assembled from the payload. -/
def filterFields (payload : Record Json) (rights : Rights) (scope : Nat) (observedAt : Number) :
    Record Json :=
  let out := filterTelemetry payload rights scope observedAt
  if hasScope rights.scopes 8 then
    Record.assignAll (positionField (.object payload)) positionKeys out
  else out

/-- `payload.encrypted === true`. -/
def encryptedFlag (payload : Json) : Bool :=
  (payload.get? "encrypted").elim false (·.strictEq (.bool true))

def isEncrypted (payload : Json) : Bool :=
  encryptedFlag payload || truthy? (payload.get? "ciphertext") ||
    truthy? (payload.get? "cipherText")

/-- The sample lies outside the history interval of the reader. -/
def outsideHistory (rights : Rights) (scope : Nat) (observedAt : Number) : Bool :=
  scope != 1 && !rights.owner && rights.reader.any fun r =>
    observedAt.lt r.historyFrom || (r.historyTo != 0 && (r.historyTo : Number).le observedAt)

@[local grind] def filterPayload (payload : Json) (rights : Rights) (scope : Nat) (observedAt : Number) :
    Except PolicyError Json := do
  if rights.legacy && [2, 4].contains scope && hasScope rights.scopes scope then
    return payload
  rejectIf (!hasScope rights.scopes scope) "This data scope is not authorized" 403
  match payload with
  | .null => return .null
  | payload =>
    rejectIf (isEncrypted payload)
      "Encrypted data requires source-side filtering before sharing" 409
    match payload with
    | .object fields =>
      rejectIf (outsideHistory rights scope observedAt)
        "Historical sample is outside the authorized interval" 403
      return .object (filterFields fields rights scope observedAt)
    | _ => reject "This payload schema does not support controlled sharing" 409

/-! ## What the filter leaves at a key -/

theorem get?_filterMeasurements (measurements : Record Json) (rights : Rights) (scope : Nat)
    (observedAt : Number) (key : String) :
    (filterMeasurements measurements rights scope observedAt).get? key =
      if admitsKey rights scope observedAt key then (measurements.get? key).bind reading
      else none := by
  refine get?_assignAll_entries (fun k hk => ?_) key
  simp [hk]

/-- The flat key is one the rights admit. -/
def admitsFlat (rights : Rights) (scope : Nat) (observedAt : Number) (key : String) : Bool :=
  !isLocationKey key && flatKeys.contains key && measurementAllowed rights scope key observedAt

theorem get?_flatStep_self (rights : Rights) (scope : Nat) (observedAt : Number)
    (out : Record Json) (key : String) (value : Json) :
    (flatStep rights scope observedAt out (key, value)).get? key =
      (out.get? key).or (if admitsFlat rights scope observedAt key && scalar value then some value
        else none) := by
  cases hout : out.get? key with
  | some v => simp [flatStep, Record.hasOwn, hout]
  | none =>
    have hcond : (!out.hasOwn key && !isLocationKey key && flatKeys.contains key &&
        scalar value && measurementAllowed rights scope key observedAt) =
          (admitsFlat rights scope observedAt key && scalar value) := by
      simp only [Record.hasOwn, hout, admitsFlat, Option.isSome_none, Bool.not_false, Bool.true_and]
      ac_rfl
    simp only [flatStep, hcond]
    cases admitsFlat rights scope observedAt key && scalar value <;> simp [hout]

theorem get?_flatStep_ne (rights : Rights) (scope : Nat) (observedAt : Number)
    (out : Record Json) {key k₀ : String} (h : key ≠ k₀) (value : Json) :
    (flatStep rights scope observedAt out (k₀, value)).get? key = out.get? key := by
  simp only [flatStep]
  split
  · simp [h]
  · rfl

theorem get?_foldl_flatStep (rights : Rights) (scope : Nat) (observedAt : Number)
    (key : String) (es : Record Json) (hes : (es.map Prod.fst).Nodup) (out : Record Json) :
    Record.get? (es.foldl (flatStep rights scope observedAt) out) key =
      (out.get? key).or (if admitsFlat rights scope observedAt key then
        (Record.get? es key).filter scalar else none) := by
  induction es generalizing out with
  | nil => simp
  | cons e es ih =>
      obtain ⟨k₀, v₀⟩ := e
      simp only [List.map_cons, List.nodup_cons] at hes
      rw [List.foldl_cons, ih hes.2]
      by_cases hk : key = k₀
      · subst hk
        -- the key occurs nowhere else in the list
        have hrest : Record.get? es key = none := by
          simpa [Record.hasOwn] using mt Record.mem_map_of_hasOwn hes.1
        rw [get?_flatStep_self, hrest, Record.get?_cons, if_pos rfl]
        cases admitsFlat rights scope observedAt key <;> cases hs : scalar v₀ <;>
          simp [Option.filter, hs]
      · rw [get?_flatStep_ne _ _ _ _ hk, Record.get?_cons, if_neg hk]

theorem get?_filterFlat (fields : Record Json) (rights : Rights) (scope : Nat)
    (observedAt : Number) (out : Record Json) (key : String) :
    (filterFlat fields rights scope observedAt out).get? key =
      (out.get? key).or (if admitsFlat rights scope observedAt key then
        (fields.get? key).filter scalar else none) := by
  rw [filterFlat, get?_foldl_flatStep rights scope observedAt key _ (Record.nodup_entries fields),
    Record.get?_entries]

/-- The position fields leave the measurements alone. -/
theorem get?_filterFields_measurements {payload measurements : Record Json} (rights : Rights)
    (scope : Nat) (observedAt : Number) (h : measurementsOf (.object payload) = some measurements) :
    (filterFields payload rights scope observedAt).get? "measurements" =
      some (.object (filterMeasurements measurements rights scope observedAt)) := by
  have hnot : "measurements" ∉ positionKeys := by decide
  have htelemetry : (filterTelemetry payload rights scope observedAt).get? "measurements" =
      some (.object (filterMeasurements measurements rights scope observedAt)) := by
    simp only [filterTelemetry, h, Record.get?_set, if_true]
  simp only [filterFields]
  split
  · rw [Record.get?_assignAll, if_neg hnot, htelemetry]
  · exact htelemetry

theorem reading_isSome (v : Json) :
    (reading v).isSome ↔ scalar v ∨ ∃ w, v.get? "value" = some w ∧ scalar w := by
  simp only [reading]
  split
  case isTrue hv => simp [hv]
  case isFalse hv =>
    cases v.get? "value" <;> simp [hv]

end Sharing
