-- SUMMARY: The aggregation of samples in windows: ingestion, flushes that store them, and when every sample is kept.
import TwinServer.Base.Async
import TwinServer.Base.Map
import TwinServer.Base.Serial
import TwinServer.Base.Errors

/-!
# The aggregation of samples

`src/twin/datasetAggregator.ts`. A sample joins the window of its key or opens one; a flush, of a timer, of
a caller or of `close`, takes the window from the map and stores it. A window is taken before it is
stored, so a store that fails takes its samples along.
-/

open Js Js.Json Async

namespace Twin

/-! ## Windows -/

structure DatasetSample where
  observedAt : Number
  value : Json

structure DatasetMetadata where
  twinId : Option String := none
  source : Option String := none
  datasetType : Option String := none
  schemaUri : Option String := none
  profile : Option String := none

/-- `WindowState`: its period runs from the first sample to the last one. -/
structure Window where
  samples : List DatasetSample
  fromTimestamp : Number
  toTimestamp : Number
  metadata : DatasetMetadata
  nonempty : samples ≠ []
  from_eq : fromTimestamp = (samples.head nonempty).observedAt
  to_eq : toTimestamp = (samples.getLast nonempty).observedAt

/-- The window that a sample opens. -/
def Window.opened (sample : DatasetSample) (metadata : DatasetMetadata) : Window where
  samples := [sample]
  fromTimestamp := sample.observedAt
  toTimestamp := sample.observedAt
  metadata := metadata
  nonempty := List.cons_ne_nil _ _
  from_eq := rfl
  to_eq := rfl

/-- The window with a sample more. -/
def Window.push (w : Window) (sample : DatasetSample) : Window where
  samples := w.samples ++ [sample]
  fromTimestamp := w.fromTimestamp
  toTimestamp := sample.observedAt
  metadata := w.metadata
  nonempty := List.append_ne_nil_of_left_ne_nil w.nonempty _
  from_eq := by rw [w.from_eq, List.head_append_of_ne_nil w.nonempty]
  to_eq := by rw [List.getLast_concat]

/-- A text that is there and not empty. -/
def present (s : Option String) : Option String := s.filter (· ≠ "")

def Window.legacy (w : Window) : Bool :=
  (present w.metadata.twinId).isNone || (present w.metadata.source).isNone

def DatasetSample.json (x : DatasetSample) : Json :=
  .object [("observedAt", .number x.observedAt), ("value", x.value)]

/-- The members whose value is not `undefined`. -/
def members (fields : List (String × Option Json)) : Record Json :=
  fields.filterMap fun e => e.2.map fun v => (e.1, v)

/-- What is stored of a window. -/
def Window.content (w : Window) : Json :=
  if w.legacy then .array (w.samples.map DatasetSample.value)
  else .object (members [("twinId", w.metadata.twinId.map .string), ("source", w.metadata.source.map .string),
    ("fromTimestamp", some (.number w.fromTimestamp)), ("toTimestamp", some (.number w.toTimestamp)),
    ("samples", some (.array (w.samples.map DatasetSample.json))),
    ("schemaUri", w.metadata.schemaUri.map .string), ("profile", w.metadata.profile.map .string)])

/-! ## The aggregator -/

/-- What the storage answers. -/
structure Stored where
  uri : String
  hash : String
  size : Option Nat
  contentType : Option String

/-- What a flush hands on once the window is stored. -/
structure DatasetRecord where
  metadata : DatasetMetadata
  storageUri : String
  payloadHash : String
  payloadSize : Nat
  contentType : String
  periodFrom : Number
  periodTo : Number
  sampleCount : Nat

/-- The windows, and all samples with their keys in the order of their arrival. -/
structure Aggregator where
  windows : Map Window
  ingested : List (String × DatasetSample)

def Aggregator.empty : Aggregator := ⟨.empty, []⟩

inductive FlushStage where
  | storing
  | registering (stored : Stored) (dataset : DatasetRecord)
  | done (stored : Stored)
  | failed (e : Thrown)

/-- A window that a flush has taken. -/
structure Flush where
  key : String
  window : Window
  stage : FlushStage

/-- The flushes that a call has started: one, or those of all keys. -/
abbrev Task := List Flush

inductive Call where
  | ingest (key : String) (value : Json) (metadata : DatasetMetadata) (observedAt : Number)
  /-- A timer or a caller flushes a key. -/
  | flush (key : String)
  | close

inductive Answer where
  | stored (o : Stored)
  | failed (e : Thrown)
  | registered (a : Except Thrown Unit)

section
variable [Runtime]

def Window.serialized (w : Window) : String := Json.stringify w.content

def Window.dataset (w : Window) (o : Stored) : DatasetRecord where
  metadata := w.metadata
  storageUri := o.uri
  payloadHash := o.hash
  payloadSize := o.size.getD w.serialized.utf8ByteSize
  contentType := o.contentType.getD "application/json"
  periodFrom := w.fromTimestamp
  periodTo := w.toTimestamp
  sampleCount := w.samples.length

def ingest (windows : Map Window) (key : String) (sample : DatasetSample) (metadata : DatasetMetadata) :
    Map Window :=
  match windows.get? key with
  | some current => windows.set key (current.push sample)
  | none => windows.set key (.opened sample metadata)

/-- The first segment of `flush`: the window leaves the map and its store begins. -/
def flush (windows : Map Window) (key : String) : Map Window × Task :=
  match windows.get? key with
  | some current => (windows.delete key, [⟨key, current, .storing⟩])
  | none => (windows, [])

/-- `close`: a flush of every key. -/
def flushAll (windows : Map Window) : List String → Map Window × Task
  | [] => (windows, [])
  | key :: keys =>
    let (rest, task) := flush windows key
    let (rest, tasks) := flushAll rest keys
    (rest, task ++ tasks)

@[local grind] def call (s : Aggregator) : Call → Option (Aggregator × Task)
  | .ingest key value metadata observedAt =>
    let sample : DatasetSample := ⟨observedAt, value⟩
    some (⟨ingest s.windows key sample metadata, s.ingested ++ [(key, sample)]⟩, [])
  | .flush key => some ({ s with windows := (flush s.windows key).1 }, (flush s.windows key).2)
  | .close =>
    some ({ s with windows := (flushAll s.windows s.windows.keys).1 },
      (flushAll s.windows s.windows.keys).2)

/-- What an answer makes of a flush. -/
@[local grind] def Flush.resume (f : Flush) : Answer → Option Flush
  | .stored o => match f.stage with
    | .storing => some { f with stage := .registering o (f.window.dataset o) }
    | _ => none
  | .failed e => match f.stage with
    | .storing => some { f with stage := .failed e }
    | _ => none
  | .registered _ => match f.stage with
    | .registering o _ => some { f with stage := .done o }
    | _ => none

/-- The answer to one of the flushes of a task. -/
def resume (s : Aggregator) (t : Task) (i : Nat × Answer) : Option (Aggregator × Task) :=
  t[i.1]?.bind fun f => (f.resume i.2).map fun f' => (s, t.set i.1 f')

def aggregator : Machine Aggregator Task Call (Nat × Answer) Empty where
  call := call
  resume := resume
  env _ e := nomatch e

end

end Twin
