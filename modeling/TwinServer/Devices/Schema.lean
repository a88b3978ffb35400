-- SUMMARY: How the signals of a device are found, named and extracted, and what of a payload a measurement depends on.
import TwinServer.Base.Pointer
import TwinServer.Base.Records
import TwinServer.Realtime.Position
import TwinServer.Sharing.Policy

/-!
# Signals

`src/devices/schema.ts` and `src/devices/simulation.ts`. A sample is searched for scalars, in the order of
its properties, down to eight levels and up to a hundred rows. The owner names some of them, and every later
payload is searched again for the same pointers.
-/

open Js Js.Json Realtime

namespace Devices

def deviceError {α : Type} (code : String) (status : Nat := 422) : Except Thrown α :=
  .error (.app { code, message := code, status, category := .VALIDATION })

/-- A signal as it is accepted. The key is the value the client sent. -/
structure Signal where
  key : Option Json
  source : String
  name : String
  unit : String
  type : String

/-- A row of the search. -/
structure Row where
  key : String
  source : String
  name : String
  unit : String
  type : String
  value : Json

def forbidden : List String := ["__proto__", "constructor", "prototype"]

/-! ## The search -/

/-- `typeof v`. -/
def typeOf : Json → String
  | .bool _ => "boolean"
  | .number _ => "number"
  | .string _ => "string"
  | _ => "object"

def isScalar (v : Json) : Bool := ["number", "string", "boolean"].contains (typeOf v)

/-- The value is a number, and it is not finite. -/
def isUnbounded : Json → Bool
  | .number x => !x.isFinite
  | _ => false

/-- A scalar that a row is made of. -/
def isReading (v : Json) : Bool := isScalar v && !isUnbounded v

/-- The scalar an object wraps. -/
def wrapped (fields : Record Json) : Option Json := (fields.get? "value").filter isScalar

/-- What is not a letter, a digit or an underscore is replaced, one code unit at a time. -/
def keyOf (path : List String) : String :=
  .ofList (("_".intercalate (path.filter (· != "value"))).toList.flatMap fun c =>
    if isWord c then [c] else .replicate (utf16Width c) '_')

def rowOf (value : Json) (path : List String) (unit : String) (label : Option String) : Row where
  key := keyOf path
  source := Pointer.encode path
  name := sliceTo 128 ((((label.or path.getLast?).filter (· != "")).getD "value"))
  unit := sliceTo 32 unit
  type := typeOf value
  value := value

def add (value : Json) (path : List String) (unit : String) (label : Option String) (rows : List Row) :
    List Row :=
  if isUnbounded value then rows else rows ++ [rowOf value path unit label]

mutual

def visit (value : Json) (path : List String) (depth : Nat) (rows : List Row) : List Row :=
  if depth > 8 ∨ rows.length ≥ 100 then rows
  else
    match value with
    | .object fields =>
      match wrapped fields with
      | some scalar =>
        add scalar (path ++ ["value"]) ((asString? (Record.get? fields "unit")).getD "") path.getLast? rows
      | none => visitEntries [] fields path depth rows
    | value => if isScalar value then add value path "" none rows else rows

/-- The loop over `Object.entries`: of two entries for a key the first counts. -/
def visitEntries (seen : List String) (entries : List (String × Json)) (path : List String) (depth : Nat)
    (rows : List Row) : List Row :=
  match entries with
  | [] => rows
  | (key, child) :: entries =>
    if seen.contains key then visitEntries seen entries path depth rows
    else if forbidden.contains key then visitEntries (key :: seen) entries path depth rows
    else visitEntries (key :: seen) entries path depth (visit child (path ++ [key]) (depth + 1) rows)

end

def discoverSignals (payload : Json) : List Row := visit payload [] 0 []

/-- `new Map(rows.map(row => [row.source, row])).get(source)`: the last row of a source counts. -/
def rowAt (rows : List Row) (source : String) : Option Row := rows.reverse.find? (·.source == source)

/-! ## The signals -/

section
variable [Runtime]

/-- `String(key)`. -/
def keyString : Option Json → Option String
  | none => some "undefined"
  | some v => v.toString?

/-- The equality of the keys of a set. Two arrays or objects of a request are never the same. -/
def sameKey : Option Json → Option Json → Bool
  | none, none => true
  | some (.number x), some (.number y) => x == y
  | some v, some w => v.strictEq w
  | _, _ => false

def classifySignal (candidates : List Row) (keys : List (Option Json)) (raw : Json) :
    Except Thrown Signal :=
  match (asString? (raw.get? "source")).bind (rowAt candidates) with
  | none => deviceError "SIGNAL_INVALID"
  | some found => do
    let key ← conversion (keyString (raw.get? "key"))
    if !Sharing.isKeySyntax key || (asString? (raw.get? "key")).any forbidden.contains ||
        keys.any (sameKey (raw.get? "key")) then
      deviceError "SIGNAL_INVALID"
    else
      match asString? (raw.get? "name"), asString? (raw.get? "unit") with
      | some name, some unit =>
        if trim name == "" || utf16Length name > 128 || utf16Length unit > 32 then
          deviceError "SIGNAL_INVALID"
        else
          .ok { key := raw.get? "key", source := found.source, name := trim name, unit, type := found.type }
      | _, _ => deviceError "SIGNAL_INVALID"

def classifyEach (candidates : List Row) (keys : List (Option Json)) :
    List Json → Except Thrown (List Signal)
  | [] => .ok []
  | raw :: rest => do
    let signal ← classifySignal candidates keys raw
    let signals ← classifyEach candidates (signal.key :: keys) rest
    return signal :: signals

def classifySignals (input : Option Json) (payload : Json) : Except Thrown (List Signal) :=
  match input with
  | some (.array items) =>
    if items.isEmpty || items.length > 100 then deviceError "SIGNALS_REQUIRED"
    else classifyEach (discoverSignals payload) [] items
  | _ => deviceError "SIGNALS_REQUIRED"

/-! ## A payload -/

def scenarios : List String := ["normal", "cloudy", "demand-peak", "inverter-offline"]

def energyKeys : List String :=
  ["pvPower", "loadPower", "gridPower", "gridImportPower", "gridExportPower", "solarIrradiance"]

variable (measures : Measures)

def simulationContext (payload : Json) : Record Json :=
  let s := payload.get? "simulation"
  let simulated (k : String) : Option Json := s.bind (·.get? k)
  match simulated "simulatedAt", simulated "sampleIndex" with
  | some (.string simulatedAt), some (.number sampleIndex) =>
    if asString? (payload.get? "schema") == some "objectid.telemetry.energy.v1" &&
        (simulated "synthetic").any (·.strictEq (.bool true)) &&
        asString? (simulated "profile") == some "energy" && asString? (simulated "model") == some "pv-load-v1" &&
        utf16Length simulatedAt ≤ 32 && (measures.parseDate simulatedAt).isFinite &&
        sampleIndex.isSafeInteger && !sampleIndex.lt 0 then
      ("simulation", .object [("synthetic", .bool true), ("profile", .string "energy"),
        ("model", .string "pv-load-v1"), ("simulatedAt", .string (measures.isoDate simulatedAt)),
        ("sampleIndex", .number sampleIndex)]) ::
      ((asString? (payload.get? "simulationScenario")).filter scenarios.contains).toList.map fun scenario =>
        ("simulationScenario", .string scenario)
    else []
  | _, _ => []

/-- A value with its unit. -/
def quantityOf (name unit : String) (value : Option Number) : Record Json :=
  value.toList.map fun x => (name, .object [("value", .number x), ("unit", .string unit)])

def positionRecord (position : TwinPosition) : Record Json :=
  [("position", .object ([("type", .string "Point"),
    ("coordinates", .array (position.coordinates.map .number)), ("crs", .string "OGC:CRS84"),
    ("observedAt", .number position.observedAt)] ++ quantityOf "accuracy" "m" position.accuracyMeters ++
    quantityOf "speed" "km/h" position.speedKph ++ quantityOf "heading" "deg" position.headingDegrees))]

/-- The semantic key that a source of the energy profile stands for. -/
def semanticKey (source : String) : Option String :=
  energyKeys.find? fun key => source == "/measurements/" ++ key ++ "/value"

def measurementOf (signal : Signal) (value : Json) : Json :=
  .object ([("value", value), ("unit", .string signal.unit), ("label", .string signal.name)] ++
    (semanticKey signal.source).toList.map fun key => ("semanticKey", .string key))

/-- The entry of a signal, when the payload has a scalar of its type at its source. -/
def measured (rows : List Row) (signal : Signal) : Option (Option Json × Json) :=
  ((rowAt rows signal.source).filter (·.type == signal.type)).map fun row =>
    (signal.key, measurementOf signal row.value)

/-- `Object.fromEntries`. -/
def fromEntries (entries : List (String × Json)) : Record Json :=
  entries.foldl (fun o e => Record.set o e.1 e.2) []

def measurementsFrom (rows : List Row) (signals : List Signal) : Except Thrown (Record Json) := do
  let entries ← (signals.filterMap (measured rows)).mapM fun e => do
    return (← conversion (keyString e.1), e.2)
  return fromEntries entries

def classifyPayload (payload : Json) (now : Number) (signals : List Signal) : Except Thrown Json := do
  let rows := discoverSignals payload
  let position ← positionFromPayload measures payload now
  let measurements ← measurementsFrom rows signals
  return .object (simulationContext measures payload ++ position.toList.flatMap positionRecord ++
    [("measurements", .object measurements)])

end

end Devices
