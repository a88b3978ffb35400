-- SUMMARY: The position a payload carries, as it is read and checked, and the ranges every position read is in.
import TwinServer.Base.Errors

/-!
# Positions

`positionFromPayload` of `src/realtime/position.ts`: a payload without a position has none, and one whose
position is not what it should be is refused as a whole.
-/

open Js Js.Json

namespace Realtime

/-- What the runtime supplies on dates and on the two products that convert a speed. -/
structure Measures where
  /-- `Date.parse`. -/
  parseDate : String → Number
  /-- `new Date(s).toISOString()`. -/
  isoDate : String → String
  /-- `x * 3.6`. -/
  fromMetersPerSecond : Number → Number
  /-- `x * 1.852`. -/
  fromKnots : Number → Number

structure TwinPosition where
  coordinates : List Number
  observedAt : Number
  accuracyMeters : Option Number := none
  speedKph : Option Number := none
  headingDegrees : Option Number := none

/-- `invalid`. -/
def invalidPosition (message : String) : AppError where
  code := "REALTIME_POSITION_INVALID"
  message
  status := 422
  category := .VALIDATION

def refuse {α : Type} (message : String) : Except Thrown α := .error (.app (invalidPosition message))

section
variable [Runtime] (measures : Measures)

/-- `finite`. -/
def finiteNumber (value : Option Json) (name : String) : Except Thrown Number := do
  let numeric ← conversion (toNumber? value)
  if numeric.isFinite then return numeric
  refuse ("Position " ++ name ++ " must be a finite number")

/-- The value is `undefined`, `null` or an empty string. -/
@[local grind] def isBlank : Option Json → Bool
  | none | some .null => true
  | some (.string s) => s == ""
  | _ => false

def optionalFinite (value : Option Json) (name : String) : Except Thrown (Option Number) :=
  if isBlank value then .ok none else return some (← finiteNumber value name)

/-- `String(unit ?? fallback).toLowerCase()`. -/
def unitOf (unit : Option Json) (fallback : String) : Except Thrown String :=
  return toLowerCase (← conversion ((coalesce unit (some (.string fallback))).elim none toString?))

@[local grind] def quantity (value : Option Json) (name fallback : String) (supportedUnits : List String) :
    Except Thrown (Option Number) :=
  match value with
  | none | some .null => .ok none
  | some (.number x) => return some (← finiteNumber (some (.number x)) name)
  | some (.object fields) => do
    let unit ← unitOf (Record.get? fields "unit") fallback
    if supportedUnits.contains unit then return some (← finiteNumber (Record.get? fields "value") name)
    refuse ("Position " ++ name ++ " unit '" ++ unit ++ "' is not supported")
  | some _ => refuse ("Position " ++ name ++ " must be numeric or a quantity")

def speed (value : Option Json) : Except Thrown (Option Number) :=
  match value with
  | none | some .null => .ok none
  | some (.number x) => return some (← finiteNumber (some (.number x)) "speed")
  | some (.object fields) => do
    let numeric ← finiteNumber (Record.get? fields "value") "speed"
    let unit ← unitOf (Record.get? fields "unit") "km/h"
    if ["km/h", "kmh", "kph"].contains unit then return some numeric
    if ["m/s", "mps"].contains unit then return some (measures.fromMetersPerSecond numeric)
    if ["kn", "knot", "knots"].contains unit then return some (measures.fromKnots numeric)
    refuse ("Position speed unit '" ++ unit ++ "' is not supported")
  | some _ => refuse "Position speed must be numeric or a quantity"

def quantityValue : Option Json → Option Json
  | some (.object fields) => Record.get? fields "value"
  | value => value

/-- `typeof value === "number" ? value : Date.parse(String(value))`. -/
def timestampNumber : Option Json → Except Thrown Number
  | some (.number x) => .ok x
  | value => return measures.parseDate (← conversion (value.elim none toString?))

/-- `timestamp`. -/
def positionTimestamp (value : Option Json) (fallback : Number) : Except Thrown Number :=
  if isBlank value then .ok fallback
  else do
    let numeric ← timestampNumber measures value
    if !numeric.isFinite || numeric.lt 0 then refuse "Position observedAt is invalid"
    return numeric

def refuseIf (c : Bool) (message : String) : Except Thrown Unit := throwIf c (invalidPosition message)

/-- The coordinates as they are given, in either form. -/
def coordinatesOf (candidate : Json) : List (Option Json) :=
  match candidate.get? "coordinates" with
  | some (.array items) => [items[0]?, items[1]?, items[2]?]
  | _ =>
    [coalesce (coalesce (candidate.get? "longitude") (candidate.get? "lng")) (candidate.get? "lon"),
      coalesce (candidate.get? "latitude") (candidate.get? "lat"),
      coalesce (candidate.get? "altitude") (candidate.get? "alt")]

/-- The position an object carries. -/
def readPosition (root candidate : Json) (fallbackObservedAt : Number) : Except Thrown TwinPosition := do
  let coordinates := coordinatesOf candidate
  let longitude ← finiteNumber coordinates[0]?.join "longitude"
  let latitude ← finiteNumber coordinates[1]?.join "latitude"
  refuseIf (longitude.lt (.finite (-180)) || Number.lt 180 longitude)
    "Position longitude must be between -180 and 180"
  refuseIf (latitude.lt (.finite (-90)) || Number.lt 90 latitude)
    "Position latitude must be between -90 and 90"
  let altitude ← optionalFinite coordinates[2]?.join "altitude"
  let accuracyMeters ← quantity (candidate.get? "accuracy") "accuracy" "m" ["m", "meter", "meters"]
  let speedKph ← speed measures (candidate.get? "speed")
  let headingDegrees ← optionalFinite (quantityValue (candidate.get? "heading")) "heading"
  refuseIf (accuracyMeters.any (·.lt 0)) "Position accuracy cannot be negative"
  refuseIf (speedKph.any (·.lt 0)) "Position speed cannot be negative"
  refuseIf (headingDegrees.any fun x => x.lt 0 || Number.le 360 x)
    "Position heading must be between 0 inclusive and 360 exclusive"
  let observedAt ← positionTimestamp measures
    (coalesce (root.get? "observedAt") (candidate.get? "observedAt")) fallbackObservedAt
  return { coordinates := [longitude, latitude] ++ altitude.toList
           observedAt, accuracyMeters, speedKph, headingDegrees }

@[local grind] def positionFromPayload (payload : Json) (fallbackObservedAt : Number) :
    Except Thrown (Option TwinPosition) :=
  match coalesce (payload.get? "position") (payload.get? "location") with
  | none => .ok none
  | some (.object fields) =>
    return some (← readPosition measures payload (.object fields) fallbackObservedAt)
  | some _ => refuse "Position must be an object"

/-! ## What a position is read from -/

/-- The position is the one that is read. -/
structure Reads (root candidate : Json) (fallback : Number) (p : TwinPosition) : Prop where
  coordinates : ∃ longitude latitude altitude, p.coordinates = longitude :: latitude :: altitude.toList ∧
    finiteNumber (coordinatesOf candidate)[0]?.join "longitude" = .ok longitude ∧
    finiteNumber (coordinatesOf candidate)[1]?.join "latitude" = .ok latitude ∧
    (longitude.lt (.finite (-180)) = false ∧ Number.lt 180 longitude = false) ∧
    (latitude.lt (.finite (-90)) = false ∧ Number.lt 90 latitude = false) ∧
    optionalFinite (coordinatesOf candidate)[2]?.join "altitude" = .ok altitude
  accuracy : quantity (candidate.get? "accuracy") "accuracy" "m" ["m", "meter", "meters"] = .ok p.accuracyMeters ∧
    p.accuracyMeters.any (·.lt 0) = false
  speed : speed measures (candidate.get? "speed") = .ok p.speedKph ∧ p.speedKph.any (·.lt 0) = false
  heading : optionalFinite (quantityValue (candidate.get? "heading")) "heading" = .ok p.headingDegrees ∧
    p.headingDegrees.any (fun x => x.lt 0 || Number.le 360 x) = false
  observedAt : positionTimestamp measures (coalesce (root.get? "observedAt") (candidate.get? "observedAt")) fallback =
    .ok p.observedAt

theorem readPosition_eq_ok {root candidate : Json} {fallback : Number} {p : TwinPosition} :
    readPosition measures root candidate fallback = .ok p ↔ Reads measures root candidate fallback p := by
  unfold readPosition
  simp only [Except.bind_eq_ok, refuseIf, throwIf_eq_ok, Except.pure_eq_ok, Bool.or_eq_false_iff]
  constructor
  · rintro ⟨longitude, hlongitude, latitude, hlatitude, -, hwest, -, hsouth, altitude, haltitude, accuracy, haccuracy,
      speed, hspeed, heading, hheading, -, haccuracy', -, hspeed', -, hheading', observedAt, hobserved, rfl⟩
    exact ⟨⟨longitude, latitude, altitude, rfl, hlongitude, hlatitude, hwest, hsouth, haltitude⟩,
      ⟨haccuracy, haccuracy'⟩, ⟨hspeed, hspeed'⟩, ⟨hheading, hheading'⟩, hobserved⟩
  · rintro ⟨⟨longitude, latitude, altitude, hp, hlongitude, hlatitude, hwest, hsouth, haltitude⟩,
      ⟨haccuracy, haccuracy'⟩, ⟨hspeed, hspeed'⟩, ⟨hheading, hheading'⟩, hobserved⟩
    refine ⟨longitude, hlongitude, latitude, hlatitude, (), hwest, (), hsouth, altitude, haltitude, _, haccuracy, _,
      hspeed, _, hheading, (), haccuracy', (), hspeed', (), hheading', _, hobserved, ?_⟩
    cases p
    exact congrArg (TwinPosition.mk · _ _ _ _) hp.symm

/-! ## The ranges -/

/-- The ranges a position is in. -/
structure TwinPosition.InRange (p : TwinPosition) : Prop where
  coordinates : ∃ longitude latitude altitude, p.coordinates = longitude :: latitude :: altitude ∧
    (longitude.isFinite ∧ Number.le (.finite (-180)) longitude ∧ longitude.le 180) ∧
    latitude.isFinite ∧ Number.le (.finite (-90)) latitude ∧ latitude.le 90
  accuracy : ∀ x, p.accuracyMeters = some x → x.lt 0 = false
  speed : ∀ x, p.speedKph = some x → x.lt 0 = false
  heading : ∀ x, p.headingDegrees = some x → x.lt 0 = false ∧ Number.le 360 x = false

theorem isFinite_of_finiteNumber {value : Option Json} {name : String} {x : Number}
    (h : finiteNumber value name = .ok x) : x.isFinite := by
  unfold finiteNumber at h
  obtain ⟨y, -, h⟩ := Except.bind_eq_ok.mp h
  split at h
  · exact Except.pure_eq_ok.mp h ▸ ‹_›
  · cases h

omit [Runtime] in
theorem ne_nan_of_isFinite {x : Number} (h : x.isFinite) : x ≠ .nan := by
  rintro rfl
  cases h

/-- A position that is read is in range. -/
theorem readPosition_inRange {root candidate : Json} {fallback : Number} {p : TwinPosition}
    (h : readPosition measures root candidate fallback = .ok p) : p.InRange := by
  obtain ⟨⟨longitude, latitude, altitude, hp, hlongitude, hlatitude, ⟨hwest, heast⟩, ⟨hsouth, hnorth⟩, -⟩,
    ⟨-, haccuracy⟩, ⟨-, hspeed⟩, ⟨-, hheading⟩, -⟩ := (readPosition_eq_ok measures).mp h
  have hlongitude := isFinite_of_finiteNumber hlongitude
  have hlatitude := isFinite_of_finiteNumber hlatitude
  have hbound (x : Dyadic) : Number.finite x ≠ .nan := by
    intro h
    cases h
  refine ⟨⟨longitude, latitude, altitude.toList, hp, ⟨hlongitude, ?_, ?_⟩, hlatitude, ?_, ?_⟩, ?_, ?_, ?_⟩
  · exact Number.le_of_lt_eq_false hwest (ne_nan_of_isFinite hlongitude) (hbound _)
  · exact Number.le_of_lt_eq_false heast (hbound _) (ne_nan_of_isFinite hlongitude)
  · exact Number.le_of_lt_eq_false hsouth (ne_nan_of_isFinite hlatitude) (hbound _)
  · exact Number.le_of_lt_eq_false hnorth (hbound _) (ne_nan_of_isFinite hlatitude)
  · intro x hx
    simpa [hx] using haccuracy
  · intro x hx
    simpa [hx] using hspeed
  · intro x hx
    simpa [hx] using hheading

end

end Realtime
