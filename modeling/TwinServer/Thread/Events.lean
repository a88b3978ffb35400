-- SUMMARY: Events of a Digital Thread: their order, their filters, their hashes, and the checks a verifier makes of one event.
import Mathlib.Data.String.Basic
import TwinServer.Base.Errors

/-!
# Events

What `src/thread/verifier.ts` and `src/indexer/objectid.ts` know of a single event.
Revisions, timestamps and event types are integers.
-/

open Js

namespace Thread

structure TwinStateEvidence where
  objectId : String
  aspectCode : String
  sampleType : String
  payloadHash : String
  observedAt : Int
  deriving DecidableEq

structure TwinEvent where
  eventId : String
  twinId : String
  eventType : Int
  revisionBefore : Int
  revisionAfter : Int
  actorDid : String
  payloadRef : String
  payloadHash : String
  createdAt : Int
  transactionDigest : Option String := none
  referencedState : Option TwinStateEvidence := none
  deriving DecidableEq

structure PaginationOptions where
  cursor : Option String := none
  limit : Option Number := none
  fromRevision : Option Int := none
  toRevision : Option Int := none
  eventTypes : Option (List Int) := none
  fromTimestamp : Option Int := none
  toTimestamp : Option Int := none

/-- What a verifier uses of the collation of strings, of RFC 8785 and of SHA-256. -/
class Services extends Js.Runtime where
  /-- `a.localeCompare(b)`. -/
  localeCompare : String → String → Int
  /-- `canonicalize` of a JSON value. -/
  canonicalize : Json → String
  /-- `createHash("sha256").update(s).digest("hex")`. -/
  sha256 : String → String
  localeCompare_self : ∀ a, localeCompare a a = 0
  localeCompare_swap : ∀ a b, localeCompare a b < 0 ↔ 0 < localeCompare b a
  localeCompare_trans : ∀ a b c,
    localeCompare a b ≤ 0 → localeCompare b c ≤ 0 → localeCompare a c ≤ 0

export Services (localeCompare canonicalize sha256)

/-- Strings in the order of their characters. The digests of a report are left out. -/
@[reducible] def Services.plain : Services where
  toRuntime := Runtime.ascii
  localeCompare a b := if a < b then -1 else if b < a then 1 else 0
  canonicalize _ := ""
  sha256 _ := ""
  localeCompare_self a := by simp
  localeCompare_swap a b := by
    rcases lt_trichotomy a b with h | rfl | h
    · simp [h, lt_asymm h]
    · simp
    · simp [h, lt_asymm h]
  localeCompare_trans a b c := by
    have hle (a b : String) : (if a < b then (-1 : Int) else if b < a then 1 else 0) ≤ 0 ↔ a ≤ b := by
      rcases lt_trichotomy a b with h | rfl | h
      · simp [h, h.le]
      · simp
      · simp [h, lt_asymm h, not_le.mpr h]
    rw [hle, hle, hle]
    exact le_trans

def VALID_TWIN_EVENT_TYPES : List Int :=
  [1, 2, 3, 10, 20, 21, 22, 30, 31, 32, 40, 41, 42, 45, 46, 50, 51, 52,
    60, 61, 62, 70, 71, 72, 80, 81, 82, 100, 101, 102, 103, 104, 110,
    120, 121, 130, 140, 150, 151, 152, 153, 154, 160, 161, 162, 163, 164,
    170, 171, 172, 180, 181]

/-- The types whose events carry a reference or a hash. -/
def referenceTypes : List Int := [30, 32, 70, 80, 160, 162]

/-! ## Order and filters -/

section
variable [Services]

/-- `a.revisionAfter - b.revisionAfter || a.createdAt - b.createdAt || a.eventId.localeCompare(b.eventId)`. -/
def compareEvents (a b : TwinEvent) : Int :=
  if a.revisionAfter - b.revisionAfter ≠ 0 then a.revisionAfter - b.revisionAfter
  else if a.createdAt - b.createdAt ≠ 0 then a.createdAt - b.createdAt
  else localeCompare a.eventId b.eventId

theorem compareEvents_of_lt {a b : TwinEvent} (h : a.revisionAfter < b.revisionAfter) :
    compareEvents a b < 0 := by
  unfold compareEvents
  rw [if_pos (by omega)]
  omega

theorem compareEvents_self (a : TwinEvent) : compareEvents a a = 0 := by
  unfold compareEvents
  rw [Int.sub_self, Int.sub_self, if_neg (by simp), if_neg (by simp), Services.localeCompare_self]

theorem compareEvents_swap (a b : TwinEvent) : compareEvents a b < 0 ↔ 0 < compareEvents b a := by
  have hlocale := Services.localeCompare_swap a.eventId b.eventId
  unfold compareEvents
  grind

theorem compareEvents_trans {a b c : TwinEvent} (hab : compareEvents a b ≤ 0)
    (hbc : compareEvents b c ≤ 0) : compareEvents a c ≤ 0 := by
  have hlocale := Services.localeCompare_trans a.eventId b.eventId c.eventId
  unfold compareEvents at hab hbc ⊢
  grind

end

/-- The filter of the indexer. -/
def matchesOptions (event : TwinEvent) (o : PaginationOptions) : Bool :=
  o.fromRevision.all (fun r => r ≤ event.revisionAfter) &&
  o.toRevision.all (fun r => event.revisionAfter ≤ r) &&
  o.eventTypes.all (fun types => types.isEmpty || types.contains event.eventType) &&
  o.fromTimestamp.all (fun t => t ≤ event.createdAt) &&
  o.toTimestamp.all (fun t => event.createdAt ≤ t)

/-! ## Hashes -/

/-- Whether the rest of the string is 64 digits `[0-9a-f]`. -/
def isHex64 (cs : List Char) : Bool := cs.length == 64 && cs.all isLowerHex

/-- `/^(sha256:|0x)[0-9a-f]{64}$/`. -/
def isValidHash (value : String) : Bool :=
  (startsWith value "sha256:" && isHex64 (value.toList.drop 7)) ||
    (startsWith value "0x" && isHex64 (value.toList.drop 2))

/-- `s.replace(/^(sha256:|0x)/, "")`. -/
def stripScheme (s : String) : String :=
  if startsWith s "sha256:" then .ofList (s.toList.drop 7)
  else if startsWith s "0x" then .ofList (s.toList.drop 2)
  else s

/-- `s.replace(/^0x0+/, "0x")`. -/
def stripZeros (s : String) : String :=
  if startsWith s "0x0" then .ofList ('0' :: 'x' :: (s.toList.drop 2).dropWhile (· == '0')) else s

section
variable [Services]

def hashesMatch (left right : String) : Bool :=
  left != "" && right != "" && stripScheme (toLowerCase left) == stripScheme (toLowerCase right)

def normalize (value : String) : String := stripZeros (toLowerCase value)

/-! ## Evidence -/

/-- An integer as a JSON number. -/
def integer (n : Int) : Json := .number (.finite n)

def canonicalEvent (event : TwinEvent) : Json :=
  .object [("eventId", .string event.eventId), ("twinId", .string event.twinId),
    ("eventType", integer event.eventType), ("revisionBefore", integer event.revisionBefore),
    ("revisionAfter", integer event.revisionAfter), ("actorDid", .string event.actorDid),
    ("payloadRef", .string event.payloadRef), ("payloadHash", .string event.payloadHash),
    ("createdAt", integer event.createdAt)]

def canonicalHash (value : Json) : String := "sha256:" ++ sha256 (canonicalize value)

def eventEvidenceHash (event : TwinEvent) : String := canonicalHash (canonicalEvent event)

/-! ## The checks of one event -/

/-- The errors of an event after another, or of the first one. -/
def eventErrors (twinId : String) (previous : Option TwinEvent) (event : TwinEvent) : List String :=
  (if previous.any fun p => 0 < compareEvents p event then ["event is out of order"] else []) ++
  (if normalize event.twinId != normalize twinId then ["event belongs to another Twin"] else []) ++
  (if VALID_TWIN_EVENT_TYPES.contains event.eventType then []
    else ["unknown event type " ++ numberToString (.finite event.eventType)]) ++
  (if event.actorDid = "" then ["actor is missing"] else []) ++
  (if event.revisionAfter ≠ event.revisionBefore + 1 then ["invalid revision transition"] else []) ++
  (if referenceTypes.contains event.eventType && event.payloadRef == "" && event.payloadHash == ""
    then ["payload reference or hash is required"] else [])

/-- The errors of the hashes of an event. -/
def eventHashErrors (event : TwinEvent) : List String :=
  (if event.payloadHash != "" && !isValidHash event.payloadHash
    then ["payloadHash must be sha256:<64 lowercase hex> or 0x<64 hex>"] else []) ++
  (if event.eventType == 30 &&
      event.referencedState.any fun state => !hashesMatch event.payloadHash state.payloadHash
    then ["referenced state payloadHash does not match the immutable publication event"] else [])

/-- The event alone is in order: its Twin, type, actor, hashes and reference. -/
structure Sound (twinId : String) (event : TwinEvent) : Prop where
  twin : normalize event.twinId = normalize twinId
  type : event.eventType ∈ VALID_TWIN_EVENT_TYPES
  actor : event.actorDid ≠ ""
  hash : event.payloadHash ≠ "" → isValidHash event.payloadHash
  state : event.eventType = 30 → ∀ state, event.referencedState = some state →
    hashesMatch event.payloadHash state.payloadHash
  reference : event.eventType ∈ referenceTypes → event.payloadRef ≠ "" ∨ event.payloadHash ≠ ""

theorem eventErrors_eq_nil {twinId : String} {previous : Option TwinEvent} {event : TwinEvent} :
    eventErrors twinId previous event = [] ↔
      (∀ p, previous = some p → compareEvents p event ≤ 0) ∧
      normalize event.twinId = normalize twinId ∧ event.eventType ∈ VALID_TWIN_EVENT_TYPES ∧
      event.actorDid ≠ "" ∧ event.revisionAfter = event.revisionBefore + 1 ∧
      (event.eventType ∈ referenceTypes → event.payloadRef ≠ "" ∨ event.payloadHash ≠ "") := by
  have horder : (previous.any fun p => decide (0 < compareEvents p event)) = false ↔
      ∀ p, previous = some p → compareEvents p event ≤ 0 := by
    cases previous with
    | none => simp
    | some p => simp
  unfold eventErrors
  simp only [List.append_eq_nil_iff, ite_eq_right_iff, ite_eq_left_iff, List.cons_ne_nil, imp_false,
    Bool.not_eq_true, horder, bne_eq_false_iff_eq, List.contains_iff_mem,
    ne_eq, Decidable.not_not, Bool.and_eq_false_imp, and_assoc]
  grind

theorem eventHashErrors_eq_nil {event : TwinEvent} :
    eventHashErrors event = [] ↔
      (event.payloadHash ≠ "" → isValidHash event.payloadHash) ∧
      (event.eventType = 30 → ∀ state, event.referencedState = some state →
        hashesMatch event.payloadHash state.payloadHash) := by
  unfold eventHashErrors
  cases event.referencedState with
  | none => simp
  | some state => simp

/-- An event without errors is in order, steps by one, and does not come before the previous one. -/
theorem errors_eq_nil_iff {twinId : String} {previous : Option TwinEvent} {event : TwinEvent} :
    eventErrors twinId previous event = [] ∧ eventHashErrors event = [] ↔
      Sound twinId event ∧ event.revisionAfter = event.revisionBefore + 1 ∧
        ∀ p, previous = some p → compareEvents p event ≤ 0 := by
  rw [eventErrors_eq_nil, eventHashErrors_eq_nil]
  constructor
  · rintro ⟨⟨horder, htwin, htype, hactor, hstep, href⟩, hhash, hstate⟩
    exact ⟨⟨htwin, htype, hactor, hhash, hstate, href⟩, hstep, horder⟩
  · rintro ⟨⟨htwin, htype, hactor, hhash, hstate, href⟩, hstep, horder⟩
    exact ⟨⟨horder, htwin, htype, hactor, hstep, href⟩, hhash, hstate⟩

end

/-! ## A sample -/

/-- The event of one revision. -/
def sampleEvent (revision : Int) : TwinEvent where
  eventId := "e"
  twinId := "0x1"
  eventType := 60
  revisionBefore := revision - 1
  revisionAfter := revision
  actorDid := "did:a"
  payloadRef := ""
  payloadHash := ""
  createdAt := 0

end Thread
