-- SUMMARY: A classified payload has the position of the payload, as long as the position is one that is read again.
import TwinServer.Devices.Extraction
import TwinServer.Realtime.Coercion

/-!
# Positions and classification

`classifyPayload` writes the position it reads in the format that `positionFromPayload` reads. What is written is
read again exactly when the speed is still finite after its conversion to kilometres per hour, and the time is one
that is accepted as a time of observation, also where it is the clock that supplied it.
-/

open Js Js.Json Realtime

namespace Devices

/-! ## The object that is written -/

/-- The position as classification writes it. -/
def positionObject (p : TwinPosition) : Json :=
  .object ([("type", .string "Point"), ("coordinates", .array (p.coordinates.map .number)),
    ("crs", .string "OGC:CRS84"), ("observedAt", .number p.observedAt)] ++
    quantityOf "accuracy" "m" p.accuracyMeters ++ quantityOf "speed" "km/h" p.speedKph ++
    quantityOf "heading" "deg" p.headingDegrees)

theorem positionRecord_eq (p : TwinPosition) : positionRecord p = [("position", positionObject p)] := rfl

/-- A number with its unit. -/
def withUnit (unit : String) (x : Number) : Json := .object [("value", .number x), ("unit", .string unit)]

theorem get?_quantityOf (name unit : String) (value : Option Number) (k : String) :
    Record.get? (quantityOf name unit value) k = if k = name then value.map (withUnit unit) else none := by
  cases value with
  | none => simp [quantityOf]
  | some x => exact Record.get?_cons _ _ _ _

theorem coordinatesOf_positionObject (p : TwinPosition) :
    coordinatesOf (positionObject p) =
      [(p.coordinates[0]?).map .number, (p.coordinates[1]?).map .number, (p.coordinates[2]?).map .number] := by
  have hget : (positionObject p).get? "coordinates" = some (.array (p.coordinates.map .number)) := rfl
  simp [coordinatesOf, hget]

theorem get?_observedAt_positionObject (p : TwinPosition) :
    (positionObject p).get? "observedAt" = some (.number p.observedAt) := rfl

theorem get?_positionObject (p : TwinPosition) {k : String} (hk : k ∉ ["type", "coordinates", "crs", "observedAt"]) :
    (positionObject p).get? k = (if k = "accuracy" then p.accuracyMeters.map (withUnit "m") else none).or
      ((if k = "speed" then p.speedKph.map (withUnit "km/h") else none).or
        (if k = "heading" then p.headingDegrees.map (withUnit "deg") else none)) := by
  simp only [List.mem_cons, List.not_mem_nil, or_false, not_or] at hk
  obtain ⟨htype, hcoordinates, hcrs, hobserved⟩ := hk
  simp [positionObject, Json.get?, Record.get?_append, get?_quantityOf, Record.get?_cons, htype, hcoordinates, hcrs,
    hobserved]

theorem get?_accuracy_positionObject (p : TwinPosition) :
    (positionObject p).get? "accuracy" = p.accuracyMeters.map (withUnit "m") := by
  simp [get?_positionObject]

theorem get?_speed_positionObject (p : TwinPosition) :
    (positionObject p).get? "speed" = p.speedKph.map (withUnit "km/h") := by
  simp [get?_positionObject]

theorem get?_heading_positionObject (p : TwinPosition) :
    (positionObject p).get? "heading" = p.headingDegrees.map (withUnit "deg") := by
  simp [get?_positionObject]

section
variable [Runtime] (measures : Measures)

/-! ## Reading it again -/

theorem finiteNumber_number {x : Number} (h : x.isFinite) (name : String) :
    finiteNumber (some (.number x)) name = .ok x := by
  simp [finiteNumber, toNumber?, conversion, h, bind, Except.bind, pure, Except.pure]

theorem finiteNumber_number_eq_ok {x y : Number} {name : String} :
    finiteNumber (some (.number x)) name = .ok y ↔ x = y ∧ x.isFinite := by
  constructor
  · intro h
    have hfinite := isFinite_of_finiteNumber h
    obtain ⟨z, hz, h⟩ := Except.bind_eq_ok.mp h
    obtain rfl := Option.some.inj (conversion_eq_ok.mp hz)
    split at h
    · obtain rfl := Except.pure_eq_ok.mp h
      exact ⟨rfl, hfinite⟩
    · cases h
  · rintro ⟨rfl, hfinite⟩
    exact finiteNumber_number hfinite name

theorem optionalFinite_number {answer : Option Number} {name : String} (h : ∀ x, answer = some x → x.isFinite) :
    optionalFinite (answer.map .number) name = .ok answer := by
  cases answer with
  | none => rfl
  | some x =>
    have hx := finiteNumber_number (h x rfl) name
    simp [optionalFinite, isBlank, hx, bind, Except.bind, pure, Except.pure]

theorem unitOf_ascii {unit : String} (h : unit.toList.all isAscii) (hlower : asciiLower unit = unit) (fallback : String) :
    unitOf (some (.string unit)) fallback = .ok unit := by
  have hunit : toLowerCase unit = unit := (Runtime.toLowerCase_ascii unit h).trans hlower
  simp [unitOf, coalesce, toString?, conversion, hunit, bind, Except.bind, pure, Except.pure]

theorem quantity_withUnit {answer : Option Number} (h : ∀ x, answer = some x → x.isFinite) :
    quantity (answer.map (withUnit "m")) "accuracy" "m" ["m", "meter", "meters"] = .ok answer := by
  cases answer with
  | none => rfl
  | some x =>
    have hx := finiteNumber_number (h x rfl) "accuracy"
    have hunit : unitOf (Record.get? [("value", .number x), ("unit", .string "m")] "unit") "m" = .ok "m" :=
      unitOf_ascii (by decide) (by decide) "m"
    have hvalue : Record.get? [("value", Json.number x), ("unit", .string "m")] "value" = some (.number x) := rfl
    simp [quantity, withUnit, hunit, hvalue, hx, bind, Except.bind, pure, Except.pure]

/-- A speed in kilometres per hour is read again exactly when it is finite. -/
theorem speed_withUnit {answer : Option Number} :
    speed measures (answer.map (withUnit "km/h")) = .ok answer ↔ ∀ x, answer = some x → x.isFinite := by
  cases answer with
  | none => simp [speed]
  | some x =>
    have hunit : unitOf (Record.get? [("value", .number x), ("unit", .string "km/h")] "unit") "km/h" = .ok "km/h" :=
      unitOf_ascii (by decide) (by decide) "km/h"
    have hvalue : Record.get? [("value", Json.number x), ("unit", .string "km/h")] "value" = some (.number x) := rfl
    simp only [Option.some.injEq, forall_eq']
    constructor
    · intro h
      obtain ⟨y, hy, -⟩ := Except.bind_eq_ok.mp h
      exact (finiteNumber_number_eq_ok.mp hy).2
    · intro hfinite
      have hx := finiteNumber_number hfinite "speed"
      simp [speed, withUnit, hunit, hvalue, hx, bind, Except.bind, pure, Except.pure]

/-- A time is one that an observation may have. -/
def IsTime (t : Number) : Prop := t.isFinite ∧ t.lt 0 = false

theorem positionTimestamp_number {t f : Number} :
    positionTimestamp measures (some (.number t)) f = .ok t ↔ IsTime t := by
  unfold IsTime
  cases hfinite : t.isFinite <;> cases hlt : t.lt 0 <;>
    simp [positionTimestamp, isBlank, timestampNumber, hfinite, hlt, refuse, bind, Except.bind, pure, Except.pure]

/-- What is written is read again as it was. -/
structure Rereadable (p : TwinPosition) : Prop where
  speed : ∀ x, p.speedKph = some x → x.isFinite
  observedAt : IsTime p.observedAt

theorem isFinite_of_optionalFinite {v : Option Json} {name : String} {answer : Option Number}
    (h : optionalFinite v name = .ok answer) (x : Number) (hx : answer = some x) : x.isFinite := by
  subst hx
  unfold optionalFinite at h
  split at h
  · cases h
  · obtain ⟨y, hy, h⟩ := Except.bind_eq_ok.mp h
    obtain rfl := Option.some.inj (Except.pure_eq_ok.mp h)
    exact isFinite_of_finiteNumber hy

theorem isFinite_of_quantity {v : Option Json} {name fallback : String} {units : List String} {answer : Option Number}
    (h : quantity v name fallback units = .ok answer) (x : Number) (hx : answer = some x) : x.isFinite := by
  subst hx
  unfold quantity at h
  split at h
  · cases h
  · cases h
  · obtain ⟨y, hy, h⟩ := Except.bind_eq_ok.mp h
    obtain rfl := Option.some.inj (Except.pure_eq_ok.mp h)
    exact isFinite_of_finiteNumber hy
  · obtain ⟨unit, -, h⟩ := Except.bind_eq_ok.mp h
    split at h
    · obtain ⟨y, hy, h⟩ := Except.bind_eq_ok.mp h
      obtain rfl := Option.some.inj (Except.pure_eq_ok.mp h)
      exact isFinite_of_finiteNumber hy
    · cases h
  · cases h

/-- A position that was read once is read again from what is written exactly when it is rereadable. -/
theorem reads_positionObject {payload candidate root : Json} {now f : Number} {p : TwinPosition}
    (h : Reads measures payload candidate now p) (hroot : root.get? "observedAt" = none) :
    Reads measures root (positionObject p) f p ↔ Rereadable p := by
  obtain ⟨⟨longitude, latitude, altitude, hp, hlongitude, hlatitude, hwest, hsouth, haltitude⟩,
    ⟨haccuracy, haccuracy'⟩, ⟨-, hspeed'⟩, ⟨hheading, hheading'⟩, -⟩ := h
  have htime : coalesce (root.get? "observedAt") ((positionObject p).get? "observedAt") =
      some (.number p.observedAt) := by
    rw [hroot, get?_observedAt_positionObject]
    rfl
  constructor
  · rintro ⟨-, -, ⟨hspeed, -⟩, -, hobserved⟩
    rw [get?_speed_positionObject] at hspeed
    rw [htime] at hobserved
    exact ⟨(speed_withUnit measures).mp hspeed, (positionTimestamp_number measures).mp hobserved⟩
  · rintro ⟨hspeed, hobserved⟩
    refine ⟨⟨longitude, latitude, altitude, hp, ?_, ?_, hwest, hsouth, ?_⟩, ⟨?_, haccuracy'⟩, ⟨?_, hspeed'⟩,
      ⟨?_, hheading'⟩, ?_⟩
    · rw [coordinatesOf_positionObject, hp]
      exact finiteNumber_number (isFinite_of_finiteNumber hlongitude) "longitude"
    · rw [coordinatesOf_positionObject, hp]
      exact finiteNumber_number (isFinite_of_finiteNumber hlatitude) "latitude"
    · rw [coordinatesOf_positionObject, hp]
      have hlist : ((longitude :: latitude :: altitude.toList)[2]?).map Json.number = altitude.map .number := by
        cases altitude <;> rfl
      exact (congrArg (optionalFinite · "altitude") hlist).trans
        (optionalFinite_number (isFinite_of_optionalFinite haltitude))
    · rw [get?_accuracy_positionObject]
      exact quantity_withUnit (isFinite_of_quantity haccuracy)
    · rw [get?_speed_positionObject]
      exact (speed_withUnit measures).mpr hspeed
    · have hvalue : quantityValue (p.headingDegrees.map (withUnit "deg")) = p.headingDegrees.map .number := by
        cases p.headingDegrees <;> rfl
      rw [get?_heading_positionObject, hvalue]
      exact optionalFinite_number (isFinite_of_optionalFinite hheading)
    · rw [htime]
      exact (positionTimestamp_number measures).mpr hobserved

/-! ## What the payload says of it -/

/-- A speed that is given in another unit is finite in kilometres per hour. -/
def SpeedFits : Option Json → Prop
  | some (.object fields) => ∀ x unit, finiteNumber (Record.get? fields "value") "speed" = .ok x →
      unitOf (Record.get? fields "unit") "km/h" = .ok unit →
      (unit ∈ ["m/s", "mps"] → (measures.fromMetersPerSecond x).isFinite) ∧
        (unit ∈ ["kn", "knot", "knots"] → (measures.fromKnots x).isFinite)
  | _ => True

/-- The speed fits, and the clock shows a time of observation where none is given. -/
structure Recoverable (payload candidate : Json) (now : Number) : Prop where
  speed : SpeedFits measures (candidate.get? "speed")
  observedAt : isBlank (coalesce (payload.get? "observedAt") (candidate.get? "observedAt")) → IsTime now

theorem isFinite_speed {v : Option Json} {answer : Option Number} (h : Realtime.speed measures v = .ok answer) :
    (∀ x, answer = some x → x.isFinite) ↔ SpeedFits measures v := by
  match v with
  | none | some .null =>
    obtain rfl := Except.ok.inj h
    simp [SpeedFits]
  | some (.bool _) | some (.string _) | some (.array _) => cases h
  | some (.number z) =>
    obtain ⟨y, hy, h⟩ := Except.bind_eq_ok.mp h
    obtain rfl := Except.pure_eq_ok.mp h
    have hfinite := isFinite_of_finiteNumber hy
    simpa [SpeedFits] using hfinite
  | some (.object fields) =>
    obtain ⟨x, hx, h⟩ := Except.bind_eq_ok.mp h
    obtain ⟨unit, hunit, h⟩ := Except.bind_eq_ok.mp h
    have hread : SpeedFits measures (some (.object fields)) ↔
        (unit ∈ ["m/s", "mps"] → (measures.fromMetersPerSecond x).isFinite) ∧
          (unit ∈ ["kn", "knot", "knots"] → (measures.fromKnots x).isFinite) := by
      simp [SpeedFits, hx, hunit]
    rw [hread]
    split at h
    case isTrue hkm =>
      -- no unit of the first list is one of the others
      obtain rfl := Except.pure_eq_ok.mp h
      have hfinite := isFinite_of_finiteNumber hx
      rw [List.contains_iff_mem] at hkm
      rcases List.mem_cons.mp hkm with rfl | hkm
      · simpa using hfinite
      · rcases List.mem_cons.mp hkm with rfl | hkm
        · simpa using hfinite
        · obtain rfl := List.mem_singleton.mp hkm
          simpa using hfinite
    case isFalse =>
      split at h
      case isTrue hm =>
        obtain rfl := Except.pure_eq_ok.mp h
        rw [List.contains_iff_mem] at hm
        rcases List.mem_cons.mp hm with rfl | hm
        · simp
        · obtain rfl := List.mem_singleton.mp hm
          simp
      case isFalse hm =>
        split at h
        case isTrue hkn =>
          obtain rfl := Except.pure_eq_ok.mp h
          rw [List.contains_iff_mem] at hkn hm
          simp [hkn, hm]
        case isFalse => cases h

theorem isTime_positionTimestamp {v : Option Json} {now t : Number} (h : positionTimestamp measures v now = .ok t) :
    IsTime t ↔ (isBlank v → IsTime now) := by
  unfold positionTimestamp at h
  split at h
  case isTrue hblank =>
    obtain rfl := Except.ok.inj h
    simp [hblank]
  case isFalse hblank =>
    obtain ⟨x, -, h⟩ := Except.bind_eq_ok.mp h
    split at h
    case isTrue => cases h
    case isFalse hx =>
      obtain rfl := Except.pure_eq_ok.mp h
      simpa [hblank, IsTime] using hx

theorem rereadable_iff {payload candidate : Json} {now : Number} {p : TwinPosition}
    (h : Reads measures payload candidate now p) : Rereadable p ↔ Recoverable measures payload candidate now := by
  have hspeed := isFinite_speed measures h.speed.1
  have htime := isTime_positionTimestamp measures h.observedAt
  exact ⟨fun hp => ⟨hspeed.mp hp.speed, htime.mp hp.observedAt⟩,
    fun hp => ⟨hspeed.mpr hp.speed, htime.mpr hp.observedAt⟩⟩

/-! ## Classification -/

/-- The classified payload has the position of the payload, and it is rejected exactly with it. -/
structure KeepsPosition (payload : Json) (now : Number) (signals : List Signal) : Prop where
  same : ∀ position, positionFromPayload measures payload now = .ok position →
    ∃ result, classifyPayload measures payload now signals = .ok result ∧
      ∀ f, positionFromPayload measures result f = .ok position
  rejected : ∀ error, classifyPayload measures payload now signals = .error error ↔
    positionFromPayload measures payload now = .error error

omit [Runtime] in
/-- The context of a simulation has no position, and no time of observation. -/
theorem get?_simulationContext (payload : Json) {k : String} (hk : k ≠ "simulation") (hk' : k ≠ "simulationScenario") :
    Record.get? (simulationContext measures payload) k = none := by
  rw [Record.get?_eq_none]
  unfold simulationContext
  dsimp only
  split
  · split
    · cases ((asString? (payload.get? "simulationScenario")).filter scenarios.contains) <;> simp [hk, hk']
    · simp
  · simp

/-- The payload that classification writes. -/
def classified (payload : Json) (position : Option TwinPosition) (measurements : Record Json) : Json :=
  .object (simulationContext measures payload ++ position.toList.flatMap positionRecord ++
    [("measurements", .object measurements)])

omit [Runtime] in
theorem get?_classified (payload : Json) (position : Option TwinPosition) (measurements : Record Json) {k : String}
    (hk : k ∈ ["position", "location", "observedAt"]) :
    (classified measures payload position measurements).get? k =
      if k = "position" then position.map positionObject else none := by
  have hcontext : Record.get? (simulationContext measures payload) k = none :=
    get?_simulationContext measures payload (by rintro rfl; simp at hk) (by rintro rfl; simp at hk)
  have hmeasurements : k ≠ "measurements" := by
    rintro rfl
    simp at hk
  cases position with
  | none => simp [classified, Json.get?, Record.get?_append, hcontext, Record.get?_cons, hmeasurements]
  | some p =>
    simp [classified, Json.get?, Record.get?_append, hcontext, Record.get?_cons, hmeasurements, positionRecord_eq]

/-- Classification goes through exactly when the position is read. -/
theorem classifyPayload_eq {signals : List Signal} (hkeys : StringKeys signals) (payload : Json) (now : Number) :
    ∃ measurements, classifyPayload measures payload now signals =
      (positionFromPayload measures payload now).map (classified measures payload · measurements) := by
  have hmap := mapM_keyString (keyString_measured (discoverSignals payload) hkeys)
  refine ⟨fromEntries ((signals.filterMap (measured (discoverSignals payload))).filterMap
    fun e => (keyString e.1).map (·, e.2)), ?_⟩
  rw [classifyPayload, measurementsFrom, hmap]
  cases positionFromPayload measures payload now <;> rfl

/-- **Classification keeps the position** of a payload, and rejects a payload exactly when its position is rejected,
if and only if the position is one that is recovered from what is written. -/
theorem keepsPosition_iff {signals : List Signal} (hkeys : StringKeys signals) (payload : Json) (now : Number) :
    KeepsPosition measures payload now signals ↔
      ∀ candidate, candidateOf payload = some candidate →
        (∃ position, positionFromPayload measures payload now = .ok position) →
        Recoverable measures payload candidate now := by
  obtain ⟨measurements, hclassify⟩ := classifyPayload_eq measures hkeys payload now
  -- what is read from the classified payload is what is read from the object in it
  have hread (p : TwinPosition) (f : Number) :
      positionFromPayload measures (classified measures payload (some p) measurements) f = .ok (some p) ↔
        Reads measures (classified measures payload (some p) measurements) (positionObject p) f p := by
    have hposition : coalesce ((classified measures payload (some p) measurements).get? "position")
        ((classified measures payload (some p) measurements).get? "location") = some (positionObject p) := by
      rw [get?_classified measures payload (some p) measurements (by simp)]
      rfl
    rw [positionFromPayload, hposition, ← readPosition_eq_ok]
    change (do return some (← readPosition measures _ (positionObject p) f)) = _ ↔ _
    cases readPosition measures (classified measures payload (some p) measurements) (positionObject p) f <;>
      simp [bind, Except.bind, pure, Except.pure]
  have hobserved (p : TwinPosition) :
      (classified measures payload (some p) measurements).get? "observedAt" = none := by
    rw [get?_classified measures payload (some p) measurements (by simp)]
    rfl
  constructor
  · rintro ⟨hsame, -⟩ candidate hcandidate ⟨position, hposition⟩
    cases position with
    | none =>
      -- without a position there is no candidate
      unfold candidateOf at hcandidate
      unfold positionFromPayload at hposition
      split at hposition
      case h_1 hnone => simp [hnone] at hcandidate
      case h_2 =>
        obtain ⟨q, -, h⟩ := Except.bind_eq_ok.mp hposition
        cases Except.pure_eq_ok.mp h
      case h_3 => cases hposition
    | some p =>
      obtain ⟨candidate', hcandidate', hreads⟩ := exists_candidateOf measures hposition
      obtain rfl := Option.some.inj (hcandidate.symm.trans hcandidate')
      obtain ⟨result, hresult, hagain⟩ := hsame _ hposition
      rw [hclassify, hposition] at hresult
      obtain rfl := Except.ok.inj hresult
      exact (rereadable_iff measures hreads).mp
        ((reads_positionObject measures hreads (hobserved p)).mp ((hread p 0).mp (hagain 0)))
  · intro hrecoverable
    refine ⟨fun position hposition => ⟨classified measures payload position measurements, ?_, fun f => ?_⟩,
      fun error => ?_⟩
    · rw [hclassify, hposition]
      rfl
    · cases position with
      | none =>
        rw [positionFromPayload, get?_classified measures payload none measurements (by simp),
          get?_classified measures payload none measurements (by simp)]
        rfl
      | some p =>
        obtain ⟨candidate, hcandidate, hreads⟩ := exists_candidateOf measures hposition
        have hrereadable := (rereadable_iff measures hreads).mpr (hrecoverable candidate hcandidate ⟨_, hposition⟩)
        exact (hread p f).mpr ((reads_positionObject measures hreads (hobserved p)).mpr hrereadable)
    · rw [hclassify]
      cases positionFromPayload measures payload now <;> simp [Except.map]

end

/-- Products as they are, except that of a speed that leaves the range of the finite numbers. -/
def overflowing : Measures :=
  ⟨fun _ => .nan, id, fun x => if Number.le (.finite (.ofIntWithPrec 1 (-1023))) x then .infinity false else x, id⟩

/-- A payload with a speed in metres per second. -/
def moving (x : Number) : Json :=
  .object [("position", .object [("coordinates", .array [.number 9, .number 45]),
    ("speed", .object [("value", .number x), ("unit", .string "m/s")])])]

theorem keepsPosition_iff_slow : @KeepsPosition Runtime.ascii overflowing (moving 1) 0 [temperatureSignal] ↔
    ∀ candidate, candidateOf (moving 1) = some candidate →
      (∃ position, @positionFromPayload Runtime.ascii overflowing (moving 1) 0 = .ok position) →
      @Recoverable Runtime.ascii overflowing (moving 1) candidate 0 :=
  @keepsPosition_iff Runtime.ascii overflowing [temperatureSignal] stringKeys_temperature (moving 1) 0

/-- A speed that is infinite in kilometres per hour is accepted, and refused once it is classified. -/
theorem overflow_is_lost : ¬ ∀ payload, @KeepsPosition Runtime.ascii overflowing payload 0 [] := by
  intro h
  let _ := Runtime.ascii
  obtain ⟨result, hresult, hagain⟩ := (h (moving (.finite (.ofIntWithPrec 1 (-1023))))).same _ rfl
  obtain rfl := Except.ok.inj hresult
  cases hagain 0

end Devices
