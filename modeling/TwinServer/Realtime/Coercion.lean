-- SUMMARY: Which of the values that a position is read from are numbers or numeric texts, and which become numbers by coercion.
import TwinServer.Realtime.Position

/-!
# Values and coercion

`finite` of `src/realtime/position.ts` converts whatever it is given with `Number`, so null, a truth value, an array
and a text of white space become numbers as well. A position says what the payload says exactly when none of the values
it is read from is one of these.
-/

open Js Js.Json

namespace Realtime

section
variable [Runtime] (measures : Measures)

/-! ## What a payload supplies -/

/-- The value is the number, or a text that is not blank and is read as the number. -/
inductive Supplies (x : Number) : Option Json → Prop where
  | number : Supplies x (some (.number x))
  | text {s : String} (hblank : trim s ≠ "") (hread : stringToNumber s = x) : Supplies x (some (.string s))

/-- A value that is no number and no numeric text, but that `Number` may convert. -/
@[local grind] def isCoerced : Option Json → Bool
  | some .null | some (.bool _) | some (.array _) => true
  | some (.string s) => trim s == ""
  | _ => false

/-- The object a position is read from. -/
def candidateOf (payload : Json) : Option Json :=
  match coalesce (payload.get? "position") (payload.get? "location") with
  | some (.object fields) => some (.object fields)
  | _ => none

/-- An optional value, when it counts as given. -/
def given (v : Option Json) : List (Option Json) := if isBlank v then [] else [v]

/-- The value of a quantity that is an object. -/
def amount : Option Json → List (Option Json)
  | some (.object fields) => [Record.get? fields "value"]
  | _ => []

/-- The values that the numbers of a position are read from. -/
def usedValues (candidate : Json) : List (Option Json) :=
  let coordinates := coordinatesOf candidate
  [coordinates[0]?.join, coordinates[1]?.join] ++ given coordinates[2]?.join ++
    amount (candidate.get? "accuracy") ++ amount (candidate.get? "speed") ++
    given (quantityValue (candidate.get? "heading"))

/-- A speed in kilometres per hour is the number in the unit it is given in. -/
def Converted (unit : Option Json) (x v : Number) : Prop :=
  ∃ text, unitOf unit "km/h" = .ok text ∧
    (text ∈ ["km/h", "kmh", "kph"] ∧ v = x ∨ text ∈ ["m/s", "mps"] ∧ v = measures.fromMetersPerSecond x ∨
      text ∈ ["kn", "knot", "knots"] ∧ v = measures.fromKnots x)

/-- The value is a speed in kilometres per hour, or one that is converted. -/
def Expresses (value : Option Json) (v : Number) : Prop :=
  ∃ x, Supplies x (quantityValue value) ∧
    (value = some (.number v) ∨ Converted measures (value.bind (·.get? "unit")) x v)

/-- The numbers of a position are those that the candidate supplies. -/
structure Genuine (candidate : Json) (p : TwinPosition) : Prop where
  coordinates : ∃ longitude latitude altitude, p.coordinates = longitude :: latitude :: altitude ∧
    Supplies longitude (coordinatesOf candidate)[0]?.join ∧ Supplies latitude (coordinatesOf candidate)[1]?.join ∧
    ∀ z ∈ altitude, Supplies z (coordinatesOf candidate)[2]?.join
  accuracy : ∀ x, p.accuracyMeters = some x → Supplies x (quantityValue (candidate.get? "accuracy"))
  speed : ∀ v, p.speedKph = some v → Expresses measures (candidate.get? "speed") v
  heading : ∀ x, p.headingDegrees = some x → Supplies x (quantityValue (candidate.get? "heading"))
  range : p.InRange

/-! ## One value -/

variable {v : Option Json} {x : Number} {name : String}

theorem isCoerced_of_supplies (h : Supplies x v) : isCoerced v = false := by
  cases h with
  | number => rfl
  | text hblank hread => simp [isCoerced, hblank]

/-- A value that is converted without coercion supplies the number. -/
theorem supplies_of_finiteNumber (hobject : stringToNumber "[object Object]" = .nan) (hv : isCoerced v = false)
    (h : finiteNumber v name = .ok x) : Supplies x v := by
  have hfinite := isFinite_of_finiteNumber h
  obtain ⟨y, hy, h⟩ := Except.bind_eq_ok.mp h
  rw [conversion_eq_ok] at hy
  have heq : y = x := by
    split at h
    · exact Except.pure_eq_ok.mp h
    · cases h
  subst heq
  match v with
  | none =>
    obtain rfl := Option.some.inj hy
    cases hfinite
  | some .null => cases hv
  | some (.bool _) => cases hv
  | some (.array _) => cases hv
  | some (.number z) =>
    obtain rfl := Option.some.inj hy
    exact .number
  | some (.string s) =>
    obtain rfl := Option.some.inj hy
    exact .text (by simpa [isCoerced] using hv) rfl
  | some (.object fields) =>
    -- an object without a text of its own is read as no number
    obtain ⟨s, hs, rfl⟩ := Option.map_eq_some_iff.mp hy
    rw [toString?] at hs
    split at hs
    · cases hs
    · obtain rfl := Option.some.inj hs
      rw [hobject] at hfinite
      cases hfinite

/-- An optional value supplies the number exactly when it is not coerced. -/
theorem supplies_optionalFinite (hobject : stringToNumber "[object Object]" = .nan) {answer : Option Number}
    (h : optionalFinite v name = .ok answer) :
    (∀ x, answer = some x → Supplies x v) ↔ ∀ w ∈ given v, isCoerced w = false := by
  unfold optionalFinite at h
  split at h
  case isTrue hblank =>
    obtain rfl := Except.ok.inj h
    simp [given, hblank]
  case isFalse hblank =>
    obtain ⟨y, hy, h⟩ := Except.bind_eq_ok.mp h
    obtain rfl := Except.pure_eq_ok.mp h
    simp only [Option.some.injEq, forall_eq', given, hblank, if_false, Bool.false_eq_true, List.mem_singleton, forall_eq]
    exact ⟨isCoerced_of_supplies, fun hv => supplies_of_finiteNumber hobject hv hy⟩

/-- A quantity supplies the number exactly when the value of its object is not coerced. -/
theorem supplies_quantity (hobject : stringToNumber "[object Object]" = .nan) {fallback : String}
    {units : List String} {answer : Option Number} (h : quantity v name fallback units = .ok answer) :
    (∀ x, answer = some x → Supplies x (quantityValue v)) ↔ ∀ w ∈ amount v, isCoerced w = false := by
  match v with
  | none | some .null =>
    obtain rfl := Except.ok.inj h
    simp [amount]
  | some (.bool _) | some (.string _) | some (.array _) => cases h
  | some (.number z) =>
    obtain ⟨y, hy, h⟩ := Except.bind_eq_ok.mp h
    obtain rfl := Except.pure_eq_ok.mp h
    have hsupplies := supplies_of_finiteNumber hobject rfl hy
    simpa [amount, quantityValue] using hsupplies
  | some (.object fields) =>
    obtain ⟨unit, -, h⟩ := Except.bind_eq_ok.mp h
    split at h
    case isFalse => cases h
    case isTrue =>
      obtain ⟨y, hy, h⟩ := Except.bind_eq_ok.mp h
      obtain rfl := Except.pure_eq_ok.mp h
      simp only [Option.some.injEq, forall_eq', amount, quantityValue, List.mem_singleton, forall_eq]
      exact ⟨isCoerced_of_supplies, fun hv => supplies_of_finiteNumber hobject hv hy⟩

/-- A speed is that of the value exactly when the value of its object is not coerced. -/
theorem expresses_speed (hobject : stringToNumber "[object Object]" = .nan) {answer : Option Number}
    (h : speed measures v = .ok answer) :
    (∀ x, answer = some x → Expresses measures v x) ↔ ∀ w ∈ amount v, isCoerced w = false := by
  match v with
  | none | some .null =>
    obtain rfl := Except.ok.inj h
    simp [amount]
  | some (.bool _) | some (.string _) | some (.array _) => cases h
  | some (.number z) =>
    obtain ⟨y, hy, h⟩ := Except.bind_eq_ok.mp h
    obtain rfl := Except.pure_eq_ok.mp h
    have hsupplies := supplies_of_finiteNumber hobject rfl hy
    cases hsupplies
    simp only [Option.some.injEq, forall_eq', amount, List.not_mem_nil, false_imp_iff, implies_true, iff_true]
    exact ⟨_, .number, .inl rfl⟩
  | some (.object fields) =>
    obtain ⟨x, hx, h⟩ := Except.bind_eq_ok.mp h
    obtain ⟨unit, hunit, h⟩ := Except.bind_eq_ok.mp h
    simp only [amount, List.mem_singleton, forall_eq]
    have hiff : Supplies x (Record.get? fields "value") ↔ isCoerced (Record.get? fields "value") = false :=
      ⟨isCoerced_of_supplies, fun hv => supplies_of_finiteNumber hobject hv hx⟩
    rw [← hiff]
    obtain ⟨y, rfl, hy⟩ : ∃ y, answer = some y ∧ Converted measures (Record.get? fields "unit") x y := by
      split at h
      case isTrue hu => exact ⟨_, (Except.pure_eq_ok.mp h).symm, unit, hunit, .inl ⟨List.contains_iff_mem.mp hu, rfl⟩⟩
      case isFalse =>
        split at h
        case isTrue hu =>
          exact ⟨_, (Except.pure_eq_ok.mp h).symm, unit, hunit, .inr (.inl ⟨List.contains_iff_mem.mp hu, rfl⟩)⟩
        case isFalse =>
          split at h
          case isTrue hu =>
            exact ⟨_, (Except.pure_eq_ok.mp h).symm, unit, hunit, .inr (.inr ⟨List.contains_iff_mem.mp hu, rfl⟩)⟩
          case isFalse => cases h
    simp only [Option.some.injEq, forall_eq']
    constructor
    · rintro ⟨z, hz, -⟩
      -- the number behind the value is one, whatever the unit makes of it
      exact hiff.mpr (isCoerced_of_supplies hz)
    · exact fun hsupplies => ⟨x, hsupplies, .inr hy⟩

/-! ## A position -/

/-- A position is read from the candidate. -/
theorem exists_candidateOf {payload : Json} {fallback : Number} {p : TwinPosition}
    (h : positionFromPayload measures payload fallback = .ok (some p)) :
    ∃ candidate, candidateOf payload = some candidate ∧ Reads measures payload candidate fallback p := by
  unfold positionFromPayload at h
  unfold candidateOf
  split at h
  case h_1 => cases h
  case h_2 fields hfields =>
    obtain ⟨q, hq, h⟩ := Except.bind_eq_ok.mp h
    obtain rfl := Option.some.inj (Except.pure_eq_ok.mp h)
    exact ⟨.object fields, by rw [hfields], (readPosition_eq_ok measures).mp hq⟩
  case h_3 => cases h

theorem genuine_of_reads (hobject : stringToNumber "[object Object]" = .nan) {payload candidate : Json}
    {fallback : Number} {p : TwinPosition} (h : Reads measures payload candidate fallback p) :
    Genuine measures candidate p ↔ ∀ v ∈ usedValues candidate, isCoerced v = false := by
  have hrange := readPosition_inRange measures ((readPosition_eq_ok measures).mpr h)
  obtain ⟨⟨longitude, latitude, altitude, hp, hlongitude, hlatitude, -, -, haltitude⟩, ⟨haccuracy, -⟩, ⟨hspeed, -⟩,
    ⟨hheading, -⟩, -⟩ := h
  have haltitude := supplies_optionalFinite hobject haltitude
  simp only [usedValues, List.forall_mem_append, List.forall_mem_cons, List.not_mem_nil, false_imp_iff, implies_true,
    and_true, ← haltitude, ← supplies_quantity hobject haccuracy, ← expresses_speed measures hobject hspeed,
    ← supplies_optionalFinite hobject hheading]
  constructor
  · rintro ⟨⟨longitude', latitude', altitude', hp', hlongitude', hlatitude', haltitude'⟩, haccuracy', hspeed',
      hheading', -⟩
    obtain ⟨rfl, rfl, rfl⟩ : longitude = longitude' ∧ latitude = latitude' ∧ altitude.toList = altitude' := by
      simpa using hp.symm.trans hp'
    refine ⟨⟨⟨⟨⟨isCoerced_of_supplies hlongitude', isCoerced_of_supplies hlatitude'⟩, ?_⟩, haccuracy'⟩, hspeed'⟩,
      hheading'⟩
    rintro x rfl
    exact haltitude' x (by simp)
  · rintro ⟨⟨⟨⟨⟨hlongitude', hlatitude'⟩, haltitude'⟩, haccuracy'⟩, hspeed'⟩, hheading'⟩
    refine ⟨⟨longitude, latitude, altitude.toList, hp, supplies_of_finiteNumber hobject hlongitude' hlongitude,
      supplies_of_finiteNumber hobject hlatitude' hlatitude, ?_⟩, haccuracy', hspeed', hheading', hrange⟩
    intro z hz
    exact haltitude' z (Option.mem_toList.mp hz)

/-- **No fabrication.** A position says what the object it is read from supplies exactly when no value it is read
from is null, a truth value, an array or a blank text. -/
theorem genuine_iff_not_coerced (hobject : stringToNumber "[object Object]" = .nan) {payload : Json}
    {fallback : Number} {p : TwinPosition} (h : positionFromPayload measures payload fallback = .ok (some p)) :
    ∃ candidate, candidateOf payload = some candidate ∧
      (Genuine measures candidate p ↔ ∀ v ∈ usedValues candidate, isCoerced v = false) := by
  obtain ⟨candidate, hcandidate, hreads⟩ := exists_candidateOf measures h
  exact ⟨candidate, hcandidate, genuine_of_reads measures hobject hreads⟩

end

/-- Dates of which none is valid, and speeds that no unit changes. -/
def plainMeasures : Measures := ⟨fun _ => .nan, id, id, id⟩

/-- A payload with the two coordinates. -/
def located (longitude latitude : Json) : Json :=
  .object [("position", .object [("coordinates", .array [longitude, latitude])])]

theorem genuine_iff_not_coerced_texts : ∃ candidate, candidateOf (located (.string "9") (.number 45)) = some candidate ∧
    (@Genuine Runtime.ascii plainMeasures candidate { coordinates := [9, 45], observedAt := 0 } ↔
      ∀ v ∈ usedValues candidate, isCoerced v = false) :=
  @genuine_iff_not_coerced Runtime.ascii plainMeasures rfl (located (.string "9") (.number 45)) 0 _ rfl

/-- A payload whose coordinates are null is at longitude and latitude zero. -/
theorem nulls_become_zero : ¬ ∀ payload p, @positionFromPayload Runtime.ascii plainMeasures payload 0 = .ok (some p) →
    ∀ candidate, candidateOf payload = some candidate → @Genuine Runtime.ascii plainMeasures candidate p := by
  intro h
  obtain ⟨⟨longitude, _, _, _, hlongitude, _⟩, _⟩ := h (located .null .null) _ rfl _ rfl
  cases hlongitude

end Realtime
