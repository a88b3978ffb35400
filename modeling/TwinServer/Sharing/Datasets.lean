-- SUMMARY: The collection of a dataset: the samples of an interval from the retained windows of a Twin.
import TwinServer.Evidence.Completeness
import TwinServer.Sharing.Narrowing
import TwinServer.Sharing.Realtime

/-!
# Collecting a dataset

`collect` of `src/sharing/datasets.ts` reads the retained windows of a Twin one after the other, and takes the
samples of an interval as the reader may see them. What it reads and what it takes is bounded, and a window
that is not as expected ends the collection.
-/

open Js Js.Json Thread Storage Evidence

namespace Sharing

/-! ## Limits -/

namespace DATASET_LIMITS

def maxSourceBytes : Nat := 16 * 1024 * 1024

def maxScanBytes : Nat := 256 * 1024 * 1024

def maxArchiveBytes : Nat := 16 * 1024 * 1024

def maxWindows : Nat := 10000

end DATASET_LIMITS

open DATASET_LIMITS

/-- The error of `fail`. -/
def datasetError (code message : String) (status : Nat := 422) : AppError :=
  { code, message, status, category := if status = 403 then .AUTHORIZATION else .VALIDATION }

def tooManyWindows : AppError :=
  datasetError "DATASET_SOURCE_LIMIT" "Too many retained windows for this export service" 413

def scanTooLarge : AppError :=
  datasetError "DATASET_SOURCE_LIMIT" "Retained telemetry scan exceeds the export size limit" 413

def windowTooLarge : AppError :=
  datasetError "DATASET_SOURCE_LIMIT" "Retained telemetry exceeds the export size limit" 413

def windowNotJson : AppError :=
  datasetError "DATASET_SOURCE_INVALID" "A retained telemetry window is not valid JSON" 409

def windowInvalid : AppError :=
  datasetError "DATASET_SOURCE_INVALID" "A retained window has an invalid Twin or sample schema" 409

def sampleInvalid : AppError :=
  datasetError "DATASET_SOURCE_INVALID" "A retained sample has no valid observation timestamp or value" 409

def outputTooLarge : AppError :=
  datasetError "DATASET_OUTPUT_LIMIT" "Selected data exceeds the export size limit. Request a shorter interval." 413

def datasetEmpty : AppError :=
  datasetError "DATASET_EMPTY" "No retained samples exist in the requested interval" 404

/-- What the functions of a dataset throw: what those of the server throw, what those of the policy do, or the
`RangeError` of a time that is no date. -/
inductive CollectError where
  | thrown (e : Thrown)
  | policy (e : PolicyError)
  | range

instance : MonadLift (Except Thrown) (Except CollectError) := ⟨Except.mapError .thrown⟩

instance : MonadLift (Except PolicyError) (Except CollectError) := ⟨Except.mapError .policy⟩

@[simp] theorem liftM_thrown_eq_ok {α : Type} {x : Except Thrown α} {a : α} :
    (liftM x : Except CollectError α) = .ok a ↔ x = .ok a := by
  cases x with
  | error e => exact iff_of_false nofun nofun
  | ok b =>
    show (Except.ok b : Except CollectError α) = .ok a ↔ _
    simp

@[simp] theorem liftM_policy_eq_ok {α : Type} {x : Except PolicyError α} {a : α} :
    (liftM x : Except CollectError α) = .ok a ↔ x = .ok a := by
  cases x with
  | error e => exact iff_of_false nofun nofun
  | ok b =>
    show (Except.ok b : Except CollectError α) = .ok a ↔ _
    simp

/-! ## Reading -/

/-- What `read` answers: a buffer, or a stream of chunks, of which one may fail. -/
inductive Content where
  | buffer (bytes : Bytes)
  | stream (chunks : List (Option Bytes))

/-- The chunks of a stream, as long as they are within the limit together. -/
def readChunks (limit size : Nat) : List (Option Bytes) → Except Thrown Bytes
  | [] => .ok []
  | none :: _ => .error .rejection
  | some bytes :: chunks => do
    throwIf (limit < size + bytes.length) windowTooLarge
    let rest ← readChunks limit (size + bytes.length) chunks
    return bytes ++ rest

def boundedBuffer (content : Content) (limit : Nat) : Except Thrown Bytes :=
  match content with
  | .buffer bytes => do
    throwIf (limit < bytes.length) windowTooLarge
    return bytes
  | .stream chunks => readChunks limit 0 chunks

/-- All bytes of a content. -/
def Content.bytes : Content → Option Bytes
  | .buffer bytes => some bytes
  | .stream chunks => (chunks.mapM id).map List.flatten

/-! ## Windows and samples -/

/-- An object of a listing, with the size its provider may know. -/
structure ListedObject extends ManagedStoredObject where
  size : Option Number

/-- The selection of a request, as `parseSelection` leaves it. -/
structure DatasetSelection where
  fromTimestamp : Nat
  toTimestamp : Nat
  measurements : Option (List String)

structure Sample where
  observedAt : Nat
  value : Json
  sourceHash : String

/-- A window of which samples were taken. -/
structure DatasetSource where
  sha256 : String
  byteLength : Nat
  selectedSamples : Nat

/-- A moment at which it is asked whether the request is still active. -/
inductive Moment where
  | listed
  | before (item : ListedObject)
  | after (item : ListedObject)
  | sample (item : ListedObject) (index : Nat)

/-- What is awaited and asked during a collection: the listing, the objects, whether the request is active, and
what a sample is decoded to. -/
structure Retained where
  managed : Option (List ListedObject)
  read : ListedObject → Option Content
  active : Moment → Except Thrown Unit
  decoded : ListedObject → Nat → Option (Except Thrown Json)

section
variable [Runtime]

/-- The objects of the Twin. -/
def isCandidate (twinId : String) (item : ListedObject) : Bool :=
  toLowerCase item.twinId == twinId && ["dataset", "datasets"].contains item.category

/-- The samples of a window of the Twin. -/
def samplesOfWindow (twinId : String) (window : Json) : Except Thrown (List Json) := do
  let text ← conversion (stringOf (window.get? "twinId"))
  throwIf (toLowerCase text != twinId) windowInvalid
  match window, window.get? "samples" with
  | .null, _ => .error .type
  | _, some (.array samples) => .ok samples
  | _, _ => .error (.app windowInvalid)

omit [Runtime] in
/-- The time a sample was observed at, which is a safe integer, where the sample has a value. -/
def observation (sample : Json) : Except Thrown (Nat × Json) :=
  match (asNumber? (sample.get? "observedAt")).bind Number.safeNat?, sample.get? "value" with
  | some observedAt, some value => .ok (observedAt, value)
  | _, _ => .error (.app sampleInvalid)

omit [Runtime] in
def DatasetSelection.contains (selection : DatasetSelection) (observedAt : Nat) : Bool :=
  selection.fromTimestamp ≤ observedAt && observedAt ≤ selection.toTimestamp

/-- The bytes a sample counts for. -/
def weight (sample : Json) : Nat := (utf8 sample.stringify).length + 100

omit [Runtime] in
/-- The value of a sample as the reader sees it. -/
def filteredValue (decoded : Option (Except Thrown Json)) (selection : DatasetSelection) (rights : Rights) (scope : Nat)
    (observedAt : Nat) (value : Json) : Except CollectError Json := do
  let value ← filterSample decoded value rights scope observedAt
  match selection.measurements with
  | some keys => filterPayload value (rights.narrowed keys) scope observedAt
  | none => return value

/-- The loop over the samples of a window: the bytes that are selected so far, and the samples of the interval. -/
def collectSamples (s : Retained) (selection : DatasetSelection) (rights : Rights) (scope : Nat) (item : ListedObject)
    (sourceHash : String) : Nat → Nat → List Json → Except CollectError (Nat × List Sample)
  | _, selectedBytes, [] => return (selectedBytes, [])
  | index, selectedBytes, sample :: rest => do
    s.active (.sample item index)
    let (observedAt, value) ← observation sample
    if selection.contains observedAt then
      let selectedBytes := selectedBytes + weight sample
      throwIf (maxArchiveBytes < 3 * selectedBytes) outputTooLarge
      let value ← filteredValue (s.decoded item index) selection rights scope observedAt value
      let (selectedBytes, samples) ←
        collectSamples s selection rights scope item sourceHash (index + 1) selectedBytes rest
      return (selectedBytes, ⟨observedAt, value, sourceHash⟩ :: samples)
    else collectSamples s selection rights scope item sourceHash (index + 1) selectedBytes rest

variable (text : Bytes → String) (parse : String → Option Json) (digest : Bytes → String)

/-- A window is read within a limit. -/
def readWindow (s : Retained) (readLimit : Nat) (item : ListedObject) : Except Thrown Bytes := do
  s.active (.before item)
  throwIf (item.size.any fun size => (readLimit : Number).lt size) scanTooLarge
  let content ← awaited (s.read item)
  let bytes ← boundedBuffer content readLimit
  s.active (.after item)
  return bytes

def parsed (bytes : Bytes) : Except Thrown Json :=
  match parse (text bytes) with
  | some window => .ok window
  | none => .error (.app windowNotJson)

/-- The loop over the objects of the Twin: the samples, and the windows they are from. -/
def collectWindows (s : Retained) (twinId : String) (selection : DatasetSelection) (rights : Rights) (scope : Nat) :
    Nat → Nat → List ListedObject → Except CollectError (List Sample × List DatasetSource)
  | _, _, [] => return ([], [])
  | scannedBytes, selectedBytes, item :: items => do
    let bytes ← readWindow s (min maxSourceBytes (maxScanBytes - scannedBytes)) item
    let window ← parsed text parse bytes
    let samples ← samplesOfWindow twinId window
    let (selectedBytes, found) ←
      collectSamples s selection rights scope item (digest bytes) 0 selectedBytes samples
    let (rest, sources) ←
      collectWindows s twinId selection rights scope (scannedBytes + bytes.length) selectedBytes items
    return (found ++ rest,
      if found.isEmpty then sources else ⟨digest bytes, bytes.length, found.length⟩ :: sources)

end

section
variable [Services]

/-- `a.observedAt - b.observedAt || a.sourceHash.localeCompare(b.sourceHash)`, not positive. -/
def Sample.before (a b : Sample) : Bool :=
  if a.observedAt ≠ b.observedAt then a.observedAt < b.observedAt else localeCompare a.sourceHash b.sourceHash ≤ 0

variable (text : Bytes → String) (parse : String → Option Json) (digest : Bytes → String)

def collect (s : Retained) (twinId : String) (selection : DatasetSelection) (rights : Rights) (scope : Nat) :
    Except CollectError (List Sample × List DatasetSource) := do
  let managed ← awaited s.managed
  let candidates := managed.filter (isCandidate twinId)
  s.active .listed
  throwIf (maxWindows < candidates.length) tooManyWindows
  let (samples, sources) ← collectWindows text parse digest s twinId selection rights scope 0 0 candidates
  throwIf samples.isEmpty datasetEmpty
  return (samples.mergeSort Sample.before, sources)

end

/-! ## What is read -/

theorem readChunks_eq_ok {limit size : Nat} (hsize : size ≤ limit) {chunks : List (Option Bytes)} {bytes : Bytes}
    (h : readChunks limit size chunks = .ok bytes) :
    (chunks.mapM id).map List.flatten = some bytes ∧ size + bytes.length ≤ limit := by
  induction chunks generalizing size bytes with
  | nil =>
    obtain rfl := Except.ok.inj h
    exact ⟨rfl, hsize⟩
  | cons chunk chunks ih =>
    cases chunk with
    | none => cases h
    | some b =>
      obtain ⟨hfits, h⟩ := Except.check_bind_eq_ok.mp h
      obtain ⟨rest, hrest, h⟩ := Except.bind_eq_ok.mp h
      obtain rfl := Except.pure_eq_ok.mp h
      have hfits : size + b.length ≤ limit := by simpa using hfits
      obtain ⟨hall, hle⟩ := ih hfits hrest
      obtain ⟨bs, hbs, rfl⟩ := Option.map_eq_some_iff.mp hall
      refine ⟨by simp [List.mapM_cons, hbs], ?_⟩
      rw [List.length_append]
      omega

/-- What is read within a limit is all of the content. -/
theorem boundedBuffer_eq_ok {content : Content} {limit : Nat} {bytes : Bytes}
    (h : boundedBuffer content limit = .ok bytes) : content.bytes = some bytes ∧ bytes.length ≤ limit := by
  cases content with
  | buffer b =>
    obtain ⟨hfits, h⟩ := Except.check_bind_eq_ok.mp h
    obtain rfl := Except.pure_eq_ok.mp h
    exact ⟨rfl, by simpa using hfits⟩
  | stream chunks =>
    obtain ⟨hall, hle⟩ := readChunks_eq_ok (Nat.zero_le limit) h
    exact ⟨hall, by omega⟩

/-- The bytes of a retained object. -/
def Retained.bytesOf (s : Retained) (item : ListedObject) : Option Bytes := (s.read item).bind Content.bytes

/-- The number of bytes that are read of an object. -/
def Retained.lengthOf (s : Retained) (item : ListedObject) : Nat := (s.bytesOf item).elim 0 List.length

theorem readWindow_eq_ok {s : Retained} {readLimit : Nat} {item : ListedObject} {bytes : Bytes}
    (h : readWindow s readLimit item = .ok bytes) :
    s.bytesOf item = some bytes ∧ bytes.length ≤ readLimit ∧
      ∀ size, item.size = some size → (readLimit : Number).lt size = false := by
  obtain ⟨-, h⟩ := Except.check_bind_eq_ok.mp h
  obtain ⟨hsize, h⟩ := Except.check_bind_eq_ok.mp h
  obtain ⟨content, hcontent, h⟩ := Except.bind_eq_ok.mp h
  obtain ⟨b, hb, h⟩ := Except.bind_eq_ok.mp h
  obtain ⟨-, h⟩ := Except.check_bind_eq_ok.mp h
  obtain rfl := Except.pure_eq_ok.mp h
  obtain ⟨hbytes, hle⟩ := boundedBuffer_eq_ok hb
  have hread : s.read item = some content := by
    cases hanswer : s.read item with
    | none => simp [awaited, hanswer] at hcontent
    | some c => simpa [awaited, hanswer] using hcontent
  refine ⟨by rw [Retained.bytesOf, hread]; exact hbytes, hle, fun size hitem => ?_⟩
  rw [throwIf_eq_ok, hitem] at hsize
  exact hsize

/-! ## What is taken of a window -/

section
variable [Runtime] {s : Retained} {selection : DatasetSelection} {rights : Rights} {scope : Nat}
variable {item : ListedObject} {sourceHash : String}

omit [Runtime] in
variable (selection) in
/-- The sample was observed in the interval. -/
def inside (sample : Json) : Bool :=
  (observation sample).toOption.any fun p => selection.contains p.1

/-- What is collected for a sample of a window: its time, its value as the reader sees it, and the digest. -/
def CarriedAs (s : Retained) (selection : DatasetSelection) (rights : Rights) (scope : Nat) (item : ListedObject)
    (sourceHash : String) (p : Json × Nat) (sample : Sample) : Prop :=
  sample.sourceHash = sourceHash ∧ ∃ value, observation p.1 = .ok (sample.observedAt, value) ∧
    filteredValue (s.decoded item p.2) selection rights scope sample.observedAt value = .ok sample.value

theorem collectSamples_eq_ok {index selectedBytes : Nat} {raws : List Json} {total : Nat} {samples : List Sample}
    (h : collectSamples s selection rights scope item sourceHash index selectedBytes raws = .ok (total, samples)) :
    (∀ raw ∈ raws, ∃ p, observation raw = .ok p) ∧
      List.Forall₂ (CarriedAs s selection rights scope item sourceHash)
        ((raws.zipIdx index).filter (inside selection ·.1)) samples := by
  induction raws generalizing index selectedBytes total samples with
  | nil =>
    obtain ⟨-, rfl⟩ := Prod.mk.inj (Except.pure_eq_ok.mp h)
    exact ⟨nofun, .nil⟩
  | cons raw raws ih =>
    obtain ⟨-, -, h⟩ := Except.bind_eq_ok.mp h
    obtain ⟨⟨observedAt, value⟩, hobserved, h⟩ := Except.bind_eq_ok.mp h
    rw [liftM_thrown_eq_ok] at hobserved
    have hinside : inside selection raw = selection.contains observedAt := by
      rw [inside, hobserved]
      rfl
    rw [List.zipIdx_cons, List.filter_cons, hinside]
    dsimp only at h
    cases hcontains : selection.contains observedAt with
    | true =>
      rw [hcontains, if_pos rfl] at h
      obtain ⟨-, -, h⟩ := Except.bind_eq_ok.mp h
      obtain ⟨filtered, hfiltered, h⟩ := Except.bind_eq_ok.mp h
      obtain ⟨⟨total', rest⟩, hrest, h⟩ := Except.bind_eq_ok.mp h
      obtain ⟨-, rfl⟩ := Prod.mk.inj (Except.pure_eq_ok.mp h)
      obtain ⟨hvalid, hcarried⟩ := ih hrest
      refine ⟨?_, .cons ⟨rfl, value, hobserved, hfiltered⟩ hcarried⟩
      exact List.forall_mem_cons.mpr ⟨⟨_, hobserved⟩, hvalid⟩
    | false =>
      rw [hcontains, if_neg Bool.false_ne_true] at h
      obtain ⟨hvalid, hcarried⟩ := ih h
      exact ⟨List.forall_mem_cons.mpr ⟨⟨_, hobserved⟩, hvalid⟩, hcarried⟩

/-- A sample of the interval that is read, fits and is filtered is collected before the rest. -/
theorem collectSamples_cons {index selectedBytes total observedAt : Nat} {raw value filtered : Json} {raws : List Json}
    {samples : List Sample} (hactive : s.active (.sample item index) = .ok ())
    (hobserved : observation raw = .ok (observedAt, value)) (hcontains : selection.contains observedAt = true)
    (hfits : 3 * (selectedBytes + weight raw) ≤ maxArchiveBytes)
    (hfiltered : filteredValue (s.decoded item index) selection rights scope observedAt value = .ok filtered)
    (hrest : collectSamples s selection rights scope item sourceHash (index + 1) (selectedBytes + weight raw) raws =
      .ok (total, samples)) :
    collectSamples s selection rights scope item sourceHash index selectedBytes (raw :: raws) =
      .ok (total, ⟨observedAt, filtered, sourceHash⟩ :: samples) := by
  refine Except.bind_eq_ok.mpr ⟨(), liftM_thrown_eq_ok.mpr hactive, ?_⟩
  refine Except.bind_eq_ok.mpr ⟨_, liftM_thrown_eq_ok.mpr hobserved, ?_⟩
  dsimp only
  rw [hcontains, if_pos rfl]
  refine Except.bind_eq_ok.mpr ⟨(), ?_, Except.bind_eq_ok.mpr ⟨_, hfiltered, ?_⟩⟩
  · exact liftM_thrown_eq_ok.mpr (throwIf_eq_ok.mpr (decide_eq_false (Nat.not_lt.mpr hfits)))
  · exact Except.bind_eq_ok.mpr ⟨_, hrest, rfl⟩

omit [Runtime] in
theorem sourceHash_of_carries {places : List (Json × Nat)} {samples : List Sample}
    (h : List.Forall₂ (CarriedAs s selection rights scope item sourceHash) places samples) :
    ∀ sample ∈ samples, sample.sourceHash = sourceHash := by
  induction h with
  | nil => exact nofun
  | cons hcarries _ ih => exact List.forall_mem_cons.mpr ⟨hcarries.1, ih⟩

/-! ## Sound windows -/

variable (text : Bytes → String) (parse : String → Option Json)

/-- A window is as it should be: its object is read to its end within the limit, its content is a window of the
Twin, and each of its samples has a time and a value. -/
structure Sound (s : Retained) (twinId : String) (item : ListedObject) (bytes : Bytes) (raws : List Json) :
    Prop where
  read : s.bytesOf item = some bytes
  limit : bytes.length ≤ maxSourceBytes
  size : ∀ size, item.size = some size → (maxSourceBytes : Number).lt size = false
  window : ∃ window, parse (text bytes) = some window ∧ samplesOfWindow twinId window = .ok raws
  samples : ∀ raw ∈ raws, ∃ p, observation raw = .ok p

variable {text parse} {twinId : String} {bytes : Bytes} {raws : List Json}

theorem Sound.unique {bytes' : Bytes} {raws' : List Json} (h : Sound text parse s twinId item bytes raws)
    (h' : Sound text parse s twinId item bytes' raws') : bytes = bytes' ∧ raws = raws' := by
  obtain rfl := Option.some.inj (h.read.symm.trans h'.read)
  obtain ⟨window, hparse, hraws⟩ := h.window
  obtain ⟨window', hparse', hraws'⟩ := h'.window
  obtain rfl := Option.some.inj (hparse.symm.trans hparse')
  exact ⟨rfl, Except.ok.inj (hraws.symm.trans hraws')⟩

omit [Runtime] in
theorem lt_eq_false_of_ge {m n : Nat} (hle : m ≤ n) {size : Number} (h : (m : Number).lt size = false) :
    (n : Number).lt size = false := by
  cases hnan : decide (size = .nan) with
  | true =>
    obtain rfl := of_decide_eq_true hnan
    rfl
  | false =>
    have hsize := Number.le_of_lt_eq_false h (Number.ofNat_ne_nan m) (of_decide_eq_false hnan)
    exact Number.lt_eq_false_of_le (Number.le_trans hsize ((Number.ofNat_le m n).trans (decide_eq_true hle)))

variable (text parse) in
/-- A sample of a sound window that was observed in the interval. -/
def IsSelected (s : Retained) (twinId : String) (selection : DatasetSelection) (p : ListedObject × Nat) : Prop :=
  ∃ bytes raws raw, Sound text parse s twinId p.1 bytes raws ∧ raws[p.2]? = some raw ∧ inside selection raw

variable (text parse) in
/-- What is collected for a sample of a sound window. -/
def CollectedAs (digest : Bytes → String) (s : Retained) (twinId : String) (selection : DatasetSelection)
    (rights : Rights) (scope : Nat) (p : ListedObject × Nat) (sample : Sample) : Prop :=
  ∃ bytes raws raw, Sound text parse s twinId p.1 bytes raws ∧ raws[p.2]? = some raw ∧
    CarriedAs s selection rights scope p.1 (digest bytes) (raw, p.2) sample

/-- The samples of a sound window that are in the interval, by their places. -/
theorem mem_places_iff (h : Sound text parse s twinId item bytes raws) {p : ListedObject × Nat} :
    p ∈ ((raws.zipIdx).filter (inside selection ·.1)).map (fun q => (item, q.2)) ↔
      p.1 = item ∧ IsSelected text parse s twinId selection p := by
  obtain ⟨item', i⟩ := p
  simp only [List.mem_map, List.mem_filter, Prod.exists, Prod.mk.injEq, List.mk_mem_zipIdx_iff_getElem?, IsSelected]
  constructor
  · rintro ⟨raw, j, ⟨hraw, hinside⟩, rfl, rfl⟩
    exact ⟨rfl, bytes, raws, raw, h, hraw, hinside⟩
  · rintro ⟨rfl, bytes', raws', raw, h', hraw, hinside⟩
    obtain ⟨-, rfl⟩ := h.unique h'
    exact ⟨raw, i, ⟨hraw, hinside⟩, rfl, rfl⟩

variable {digest : Bytes → String}

/-- The places of what is collected of some windows. -/
structure Collected (text : Bytes → String) (parse : String → Option Json) (digest : Bytes → String) (s : Retained)
    (twinId : String) (selection : DatasetSelection) (rights : Rights) (scope : Nat) (items : List ListedObject)
    (samples : List Sample) (pairs : List (ListedObject × Nat)) : Prop where
  nodup : items.Nodup → pairs.Nodup
  mem_iff : ∀ p, p ∈ pairs ↔ p.1 ∈ items ∧ IsSelected text parse s twinId selection p
  carried : List.Forall₂ (CollectedAs text parse digest s twinId selection rights scope) pairs samples

/-- What is collected of one window more. -/
theorem Collected.cons (h : Sound text parse s twinId item bytes raws) {found : List Sample}
    (hfound : List.Forall₂ (CarriedAs s selection rights scope item (digest bytes))
      (raws.zipIdx.filter (inside selection ·.1)) found)
    {items : List ListedObject} {samples : List Sample} {pairs : List (ListedObject × Nat)}
    (hrest : Collected text parse digest s twinId selection rights scope items samples pairs) :
    Collected text parse digest s twinId selection rights scope (item :: items) (found ++ samples)
      ((raws.zipIdx.filter (inside selection ·.1)).map (fun q => (item, q.2)) ++ pairs) where
  nodup := by
    intro hnodup
    obtain ⟨hitem, hitems⟩ := List.nodup_cons.mp hnodup
    refine List.nodup_append.mpr ⟨?_, hrest.nodup hitems, ?_⟩
    · -- the places of one window have different indices
      have hindices : (raws.zipIdx.map Prod.snd).Nodup := by
        rw [List.zipIdx_map_snd]
        exact List.nodup_range'
      have hkept : ((raws.zipIdx.filter (inside selection ·.1)).map Prod.snd).Nodup :=
        hindices.sublist (List.filter_sublist.map _)
      refine List.Nodup.of_map Prod.snd ?_
      rw [List.map_map]
      exact hkept
    · rintro p hp q hq rfl
      obtain ⟨heq, -⟩ := (mem_places_iff h).mp hp
      exact hitem (heq ▸ ((hrest.mem_iff p).mp hq).1)
  mem_iff p := by
    rw [List.mem_append, mem_places_iff h, hrest.mem_iff, List.mem_cons, or_and_right]
  carried := by
    refine List.rel_append ?_ hrest.carried
    rw [List.forall₂_map_left_iff]
    have hmem : ∀ q ∈ raws.zipIdx.filter (inside selection ·.1), raws[q.2]? = some q.1 := fun q hq =>
      List.mem_zipIdx_iff_getElem?.mp (List.mem_of_mem_filter hq)
    refine ((List.forall₂_and_left _ _).mpr ⟨hmem, hfound⟩).imp ?_
    rintro ⟨raw, i⟩ sample ⟨hraw, hcarries⟩
    exact ⟨bytes, raws, raw, h, hraw, hcarries⟩

theorem Collected.perm {items : List ListedObject} {samples samples' : List Sample}
    {pairs : List (ListedObject × Nat)}
    (h : Collected text parse digest s twinId selection rights scope items samples pairs)
    (hperm : samples'.Perm samples) :
    ∃ pairs', Collected text parse digest s twinId selection rights scope items samples' pairs' := by
  have hcomp : Relation.Comp (List.Forall₂ (CollectedAs text parse digest s twinId selection rights scope))
      List.Perm pairs samples' := ⟨samples, h.carried, hperm.symm⟩
  rw [List.forall₂_comp_perm_eq_perm_comp_forall₂] at hcomp
  obtain ⟨pairs', hpairs, hcarried⟩ := hcomp
  exact ⟨pairs', fun hitems => hpairs.nodup_iff.mp (h.nodup hitems),
    fun p => hpairs.mem_iff.symm.trans (h.mem_iff p), hcarried⟩

/-- The windows that samples were taken of: each with the digest and the length of its bytes and the number of
the samples that carry the digest. -/
structure Listed (digest : Bytes → String) (s : Retained) (items : List ListedObject) (samples : List Sample)
    (sources : List DatasetSource) : Prop where
  sum : (sources.map (·.selectedSamples)).sum = samples.length
  count : ∀ hash, ((sources.filter (·.sha256 = hash)).map (·.selectedSamples)).sum =
    samples.countP (·.sourceHash = hash)
  source : ∀ source ∈ sources, 0 < source.selectedSamples ∧
    ∃ item ∈ items, ∃ bytes, s.bytesOf item = some bytes ∧ source.sha256 = digest bytes ∧
      source.byteLength = bytes.length

omit [Runtime] in
theorem Listed.perm {items : List ListedObject} {samples samples' : List Sample} {sources : List DatasetSource}
    (h : Listed digest s items samples sources) (hperm : samples'.Perm samples) :
    Listed digest s items samples' sources where
  sum := h.sum.trans hperm.length_eq.symm
  count hash := (h.count hash).trans (hperm.countP_eq _).symm
  source := h.source

omit [Runtime] in
theorem Listed.cons (hread : s.bytesOf item = some bytes) {found : List Sample}
    (hfound : ∀ sample ∈ found, sample.sourceHash = digest bytes) {items : List ListedObject}
    {samples : List Sample} {sources : List DatasetSource} (h : Listed digest s items samples sources) :
    Listed digest s (item :: items) (found ++ samples)
      (if found.isEmpty then sources else ⟨digest bytes, bytes.length, found.length⟩ :: sources) := by
  have hsource : ∀ source ∈ sources, 0 < source.selectedSamples ∧
      ∃ item' ∈ item :: items, ∃ bytes, s.bytesOf item' = some bytes ∧ source.sha256 = digest bytes ∧
        source.byteLength = bytes.length := by
    intro source hmem
    obtain ⟨hpos, item', hitem', hbytes⟩ := h.source source hmem
    exact ⟨hpos, item', List.mem_cons_of_mem _ hitem', hbytes⟩
  cases found with
  | nil => exact ⟨h.sum, h.count, hsource⟩
  | cons first found =>
    have hcount (hash : String) : (first :: found).countP (·.sourceHash = hash) =
        if digest bytes = hash then (first :: found).length else 0 := by
      split
      case isTrue heq => exact List.countP_eq_length.mpr fun sample hmem => decide_eq_true ((hfound sample hmem).trans heq)
      case isFalse hne =>
        refine List.countP_eq_zero.mpr fun sample hmem => ?_
        rw [decide_eq_true_eq, hfound sample hmem]
        exact hne
    refine ⟨?_, fun hash => ?_, ?_⟩
    · rw [List.length_append, ← h.sum]
      rfl
    · rw [List.countP_append, ← h.count, hcount]
      simp only [List.isEmpty_cons, Bool.false_eq_true, if_false, List.filter_cons, decide_eq_true_eq]
      split
      · rw [List.map_cons, List.sum_cons]
      · rw [Nat.zero_add]
    · exact List.forall_mem_cons.mpr ⟨⟨Nat.succ_pos _, item, List.mem_cons_self, bytes, hread, rfl, rfl⟩, hsource⟩

theorem collectWindows_eq_ok {scannedBytes selectedBytes : Nat} (hscanned : scannedBytes ≤ maxScanBytes)
    {items : List ListedObject} {samples : List Sample} {sources : List DatasetSource}
    (h : collectWindows text parse digest s twinId selection rights scope scannedBytes selectedBytes items =
      .ok (samples, sources)) :
    (∀ item ∈ items, ∃ bytes raws, Sound text parse s twinId item bytes raws) ∧
      scannedBytes + (items.map s.lengthOf).sum ≤ maxScanBytes ∧
      Listed digest s items samples sources ∧
      ∃ pairs, Collected text parse digest s twinId selection rights scope items samples pairs := by
  induction items generalizing scannedBytes selectedBytes samples sources with
  | nil =>
    obtain ⟨rfl, rfl⟩ := Prod.mk.inj (Except.pure_eq_ok.mp h)
    refine ⟨nofun, hscanned, ⟨rfl, fun _ => rfl, nofun⟩, [], fun _ => .nil, fun p => ?_, .nil⟩
    exact iff_of_false nofun fun hp => nomatch hp.1
  | cons item items ih =>
    obtain ⟨bytes, hread, h⟩ := Except.bind_eq_ok.mp h
    obtain ⟨window, hwindow, h⟩ := Except.bind_eq_ok.mp h
    obtain ⟨raws, hraws, h⟩ := Except.bind_eq_ok.mp h
    obtain ⟨⟨selected, found⟩, hfound, h⟩ := Except.bind_eq_ok.mp h
    obtain ⟨⟨rest, restSources⟩, hrest, h⟩ := Except.bind_eq_ok.mp h
    obtain ⟨rfl, rfl⟩ := Prod.mk.inj (Except.pure_eq_ok.mp h)
    obtain ⟨hbytes, hle, hsize⟩ := readWindow_eq_ok (liftM_thrown_eq_ok.mp hread)
    obtain ⟨hvalid, hcarries⟩ := collectSamples_eq_ok hfound
    have hparse : parse (text bytes) = some window := by
      have hwindow := liftM_thrown_eq_ok.mp hwindow
      unfold parsed at hwindow
      split at hwindow
      case h_1 w hparse => exact hparse.trans (congrArg some (Except.ok.inj hwindow))
      case h_2 => cases hwindow
    have hsource : bytes.length ≤ maxSourceBytes := hle.trans (Nat.min_le_left _ _)
    have hscan : scannedBytes + bytes.length ≤ maxScanBytes := by
      have := hle.trans (Nat.min_le_right _ _)
      omega
    have hsound : Sound text parse s twinId item bytes raws :=
      ⟨hbytes, hsource, fun size hitem => lt_eq_false_of_ge (Nat.min_le_left _ _) (hsize size hitem),
        ⟨window, hparse, liftM_thrown_eq_ok.mp hraws⟩, hvalid⟩
    have hlength : s.lengthOf item = bytes.length := by rw [Retained.lengthOf, hbytes, Option.elim_some]
    obtain ⟨hsounds, htotal, hlisted, pairs, hpairs⟩ := ih hscan hrest
    refine ⟨?_, ?_, hlisted.cons hbytes ?_, _, Collected.cons hsound hcarries hpairs⟩
    · exact List.forall_mem_cons.mpr ⟨⟨bytes, raws, hsound⟩, hsounds⟩
    · rw [List.map_cons, List.sum_cons, hlength, ← Nat.add_assoc]
      exact htotal
    · exact sourceHash_of_carries hcarries

end

/-! ## The collection -/

section
variable [Services] {text : Bytes → String} {parse : String → Option Json} {digest : Bytes → String}

theorem Sample.before_trans (a b c : Sample) (hab : a.before b) (hbc : b.before c) : a.before c := by
  have hlocale := Services.localeCompare_trans a.sourceHash b.sourceHash c.sourceHash
  simp only [Sample.before] at hab hbc ⊢
  split at hab <;> split at hbc <;> split <;> simp only [decide_eq_true_eq] at hab hbc ⊢ <;> grind

theorem Sample.before_total (a b : Sample) : (a.before b || b.before a) = true := by
  have hlocale := Services.localeCompare_swap b.sourceHash a.sourceHash
  simp only [Sample.before]
  split <;> split <;> simp only [Bool.or_eq_true, decide_eq_true_eq] <;> grind

theorem Sample.observedAt_le {a b : Sample} (h : a.before b) : a.observedAt ≤ b.observedAt := by
  simp only [Sample.before] at h
  split at h
  · exact Nat.le_of_lt (of_decide_eq_true h)
  · omega

variable {s : Retained} {twinId : String} {selection : DatasetSelection} {rights : Rights} {scope : Nat}
variable {managed : List ListedObject} {samples : List Sample} {sources : List DatasetSource}

/-- What a collection that succeeds comes to. -/
theorem collect_eq_ok (hmanaged : s.managed = some managed)
    (h : collect text parse digest s twinId selection rights scope = .ok (samples, sources)) :
    samples ≠ [] ∧ samples.Pairwise (fun a b => a.observedAt ≤ b.observedAt) ∧
      (∀ item ∈ managed.filter (isCandidate twinId), ∃ bytes raws, Sound text parse s twinId item bytes raws) ∧
      ((managed.filter (isCandidate twinId)).map s.lengthOf).sum ≤ maxScanBytes ∧
      Listed digest s (managed.filter (isCandidate twinId)) samples sources ∧
      ∃ pairs, Collected text parse digest s twinId selection rights scope (managed.filter (isCandidate twinId))
        samples pairs := by
  obtain ⟨listed, hlisted, h⟩ := Except.bind_eq_ok.mp h
  obtain rfl : managed = listed := by
    rw [liftM_thrown_eq_ok, hmanaged] at hlisted
    exact Except.ok.inj hlisted
  obtain ⟨-, -, h⟩ := Except.bind_eq_ok.mp h
  obtain ⟨-, -, h⟩ := Except.bind_eq_ok.mp h
  obtain ⟨⟨collected, windows⟩, hcollected, h⟩ := Except.bind_eq_ok.mp h
  obtain ⟨_, hsome, h⟩ := Except.bind_eq_ok.mp h
  obtain ⟨rfl, rfl⟩ := Prod.mk.inj (Except.pure_eq_ok.mp h)
  obtain ⟨hsounds, htotal, hlisted, pairs, hpairs⟩ := collectWindows_eq_ok (Nat.zero_le _) hcollected
  rw [Nat.zero_add] at htotal
  have hperm : (collected.mergeSort Sample.before).Perm collected := List.mergeSort_perm _ _
  refine ⟨fun hnil => ?_, ?_, hsounds, htotal, hlisted.perm hperm, hpairs.perm hperm⟩
  · rw [hnil] at hperm
    obtain rfl := List.nil_perm.mp hperm
    cases hsome
  · exact (List.pairwise_mergeSort Sample.before_trans Sample.before_total collected).imp Sample.observedAt_le

/-- A sample that was observed at a time. -/
def sampleAt (observedAt : Nat) : Json := .object [("observedAt", .number observedAt), ("value", .number 20)]

/-- A window of one sample. -/
def windowOfOne : Json := .object [("twinId", .string "0x1"), ("samples", .array [sampleAt 5])]

def oneObject : ListedObject :=
  { uri := "file:a", twinId := "0x1", category := "dataset", createdAt := "", size := none }

/-- The bytes of the window. -/
def oneContent : Bytes := utf8 (@stringify exactServices.toRuntime windowOfOne)

/-- A listing of one object, whose content is a stream. -/
def oneWindow : Retained where
  managed := some [oneObject]
  read _ := some (.stream [some oneContent])
  active _ := .ok ()
  decoded _ _ := none

/-- A reader of the retained samples of a policy without scopes. -/
def retainedReader : Rights :=
  { discover := true, scopes := 2, publicScopes := 0, owner := false, revision := none, expiresAt := 0
    reader := none, legacy := true }

omit [Services] in
theorem collect_oneWindow : let _ := exactServices
    collect decodeUtf8 readBack (fun _ => "0a") oneWindow "0x1" ⟨0, 6, none⟩ retainedReader 2 =
      .ok ([⟨5, .number 20, "0a"⟩], [⟨"0a", oneContent.length, 1⟩]) := by
  intro _
  have hnumbers : NumberText := numberText_exact
  have hfits : 3 * (0 + weight (sampleAt 5)) ≤ maxArchiveBytes := by decide
  have hlength : decide (min maxSourceBytes (maxScanBytes - 0) < 0 + oneContent.length) = false := by decide
  have hread : readWindow oneWindow (min maxSourceBytes (maxScanBytes - 0)) oneObject = .ok oneContent := by
    refine Except.check_bind_eq_ok.mpr ⟨rfl, Except.check_bind_eq_ok.mpr ⟨rfl, ?_⟩⟩
    refine Except.bind_eq_ok.mpr ⟨.stream [some oneContent], rfl, Except.bind_eq_ok.mpr ⟨oneContent, ?_, rfl⟩⟩
    refine Except.check_bind_eq_ok.mpr ⟨throwIf_eq_ok.mpr hlength, ?_⟩
    exact Except.bind_eq_ok.mpr ⟨[], rfl, by rw [List.append_nil]; rfl⟩
  have hparsed : parsed decodeUtf8 readBack oneContent = .ok windowOfOne := by
    have hparse : readBack (decodeUtf8 oneContent) = some (written windowOfOne) := by
      rw [oneContent, decodeUtf8_utf8]
      exact reads_readBack windowOfOne
    rw [parsed, hparse]
    rfl
  have hnil : collectSamples oneWindow ⟨0, 6, none⟩ retainedReader 2 oneObject "0a" 1 (0 + weight (sampleAt 5)) [] =
      .ok (0 + weight (sampleAt 5), []) := by
    unfold collectSamples
    rfl
  have hsamples : collectSamples oneWindow ⟨0, 6, none⟩ retainedReader 2 oneObject "0a" 0 0 [sampleAt 5] =
      .ok (0 + weight (sampleAt 5), [⟨5, .number 20, "0a"⟩]) :=
    collectSamples_cons rfl rfl rfl hfits rfl hnil
  have hwindows : collectWindows decodeUtf8 readBack (fun _ => "0a") oneWindow "0x1" ⟨0, 6, none⟩ retainedReader 2 0 0
      [oneObject] = .ok ([⟨5, .number 20, "0a"⟩], [⟨"0a", oneContent.length, 1⟩]) := by
    unfold collectWindows
    refine Except.bind_eq_ok.mpr ⟨_, liftM_thrown_eq_ok.mpr hread, ?_⟩
    refine Except.bind_eq_ok.mpr ⟨_, liftM_thrown_eq_ok.mpr hparsed, ?_⟩
    refine Except.bind_eq_ok.mpr ⟨[sampleAt 5], rfl, Except.bind_eq_ok.mpr ⟨_, hsamples, ?_⟩⟩
    unfold collectWindows
    rfl
  refine Except.bind_eq_ok.mpr ⟨[oneObject], rfl, Except.bind_eq_ok.mpr ⟨(), rfl, ?_⟩⟩
  refine Except.bind_eq_ok.mpr ⟨(), rfl, Except.bind_eq_ok.mpr ⟨_, hwindows, ?_⟩⟩
  dsimp only
  rw [List.mergeSort_singleton]
  rfl

end

end Sharing
