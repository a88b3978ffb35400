-- SUMMARY: Access policies: normalisation of untyped input, the on-chain policy, and the rights a policy gives a DID.
import TwinServer.Base.Json

/-!
# Access policies

`src/sharing/policy.ts` up to `measurementAllowed`: untyped JSON is checked and
brought into the form `AccessPolicy`, from which `policyRights` computes what one
DID may do at one time. What leaves the server under such rights is decided in
`TwinServer/Sharing/Filter.lean`.
-/

open Js Js.Json

namespace Sharing

/-! ## Data -/

/-- `scopes & bit` as a truth value. -/
def hasScope (scopes bit : Nat) : Bool := scopes &&& bit != 0

theorem hasScope_or (a b bit : Nat) : hasScope (a ||| b) bit = (hasScope a bit || hasScope b bit) := by
  rw [Bool.eq_iff_iff, Bool.or_eq_true]
  simp only [hasScope, Nat.and_or_distrib_right, bne_iff_ne, ne_eq, Nat.or_eq_zero_iff]
  exact not_and_or

structure Reader where
  did : String
  scopes : Nat
  validFrom : Nat
  expiresAt : Nat
  historyFrom : Nat
  historyTo : Nat
  allMeasurements : Bool
  measurements : List String
  deriving DecidableEq

inductive Mode where
  | private_
  | restricted
  | public_
  deriving DecidableEq

@[local grind] def Mode.name : Mode → String
  | .private_ => "private"
  | .restricted => "restricted"
  | .public_ => "public"

/-- The mode a value of the field `mode` names. -/
def Mode.parse : Option Json → Option Mode
  | some (.string s) =>
    if s = "private" then some .private_
    else if s = "restricted" then some .restricted
    else if s = "public" then some .public_
    else none
  | _ => none

structure AccessPolicy where
  mode : Mode
  publicScopes : Nat
  readers : List Reader
  ownerDid : String
  revision : String
  updatedAt : Nat
  deriving DecidableEq

/-- What one DID may do. The revision is the one of the policy the rights come
from; a stored policy may carry any value there. -/
structure Rights where
  legacy : Bool := false
  discover : Bool
  scopes : Nat
  publicScopes : Nat
  reader : Option Reader
  owner : Bool
  admin : Bool := false
  revision : Option Json
  expiresAt : Nat

/-- What the policy functions throw: an `AccessPolicyError`, or the `TypeError`
of a string conversion. -/
inductive PolicyError where
  | access (message : String) (status : Nat)
  | type
  deriving DecidableEq

def reject {α : Type} (message : String) (status : Nat := 422) : Except PolicyError α :=
  .error (.access message status)

/-- Go on when the condition fails, reject with the message when it holds. -/
def rejectIf (c : Bool) (message : String) (status : Nat := 422) : Except PolicyError Unit :=
  if c then reject message status else .ok ()

/-- A string conversion that may throw. -/
def orTypeError {α : Type} : Option α → Except PolicyError α
  | some a => .ok a
  | none => .error .type

/-- `v?.fields ?? v ?? {}`. -/
def object (v : Option Json) : Json :=
  (coalesce (coalesce (v.bind (·.get? "fields")) v) (some (.object []))).getD .null

/-! ## Syntax checks -/

/-- The expression `/^0x[0-9a-f]{64}$/`. -/
def isObjectId (s : String) : Bool :=
  match s.toList with
  | '0' :: 'x' :: rest => rest.length == 64 && rest.all isLowerHex
  | _ => false

/-- The expression `/^[A-Za-z][A-Za-z0-9_]{0,63}$/`. -/
def isKeySyntax (k : String) : Bool :=
  match k.toList with
  | c :: rest => c.isAlpha && rest.length ≤ 63 && rest.all isWord
  | [] => false

/-- The keys of the prototype chain that no measurement may take. -/
def isPrototypeKey (k : String) : Bool := k == "constructor" || k == "prototype"

section
variable [Runtime]

def didPrefix (network : String) : String :=
  if network = "mainnet" then "did:iota:" else "did:iota:" ++ network ++ ":"

/-- `did` is the DID of an object id on the network. -/
def isDid (did network : String) : Bool :=
  startsWith did (didPrefix network) &&
    isObjectId (.ofList (did.toList.drop (didPrefix network).length))

def canonicalDid (value : Option Json) (network : String) : Except PolicyError String := do
  let text ← orTypeError (textOf? value)
  let did := toLowerCase (trim text)
  rejectIf (!isDid did network) ("A valid " ++ network ++ " DID is required")
  return did

/-- `typeof value === 'number'`. -/
def isNumber : Option Json → Bool
  | some (.number _) => true
  | _ => false

/-- `String(value)`, where `none` is `undefined`. -/
def stringOf (value : Option Json) : Option String :=
  match value with
  | none => some "undefined"
  | some v => v.toString?

def integer (value : Option Json) (label : String) : Except PolicyError Nat := do
  if !isNumber value then
    let text ← orTypeError (stringOf value)
    rejectIf (!isDigits text) ("Invalid " ++ label)
  let n ← orTypeError (toNumber? value)
  match n.safeNat? with
  | some n => return n
  | none => reject ("Invalid " ++ label)

/-! ## Normalisation -/

/-- The strings of a list of values, when they all are strings. -/
def strings? (items : List Json) : Option (List String) :=
  items.mapM fun
    | .string s => some s
    | _ => none

/-- The measurement selection of a reader. -/
def normalizeMeasurements (all : Option Json) (measurements : Option Json) :
    Except PolicyError (Bool × List String) := do
  match all, measurements with
  | some (.bool all), some (.array items) =>
    rejectIf (items.length > 64) "Invalid measurement selection"
    match strings? items with
    | some keys =>
      rejectIf (keys.any (fun k => !isKeySyntax k || isPrototypeKey k) || !decide keys.Nodup)
        "Use distinct exact measurement keys"
      return (all, keys)
    | none => reject "Use distinct exact measurement keys"
  | _, _ => reject "Invalid measurement selection"

def normalizeReader (value : Option Json) (network : String) (now : Number) :
    Except PolicyError Reader := do
  let v := object value
  let did ← canonicalDid (coalesce (v.get? "did") (v.get? "subject_did")) network
  let zero : Option Json := some (.number 0)
  let scopes ← integer (v.get? "scopes") "scopes"
  let validFrom ← integer (coalesce (coalesce (v.get? "validFrom") (v.get? "valid_from")) zero)
    "valid from"
  let expiresAt ← integer (coalesce (coalesce (v.get? "expiresAt") (v.get? "expires_at")) zero)
    "expiry"
  let historyFrom ← integer
    (coalesce (coalesce (v.get? "historyFrom") (v.get? "history_from")) zero) "history start"
  let historyTo ← integer (coalesce (coalesce (v.get? "historyTo") (v.get? "history_to")) zero)
    "history end"
  let all := coalesce (v.get? "allMeasurements") (v.get? "all_measurements")
  let measurements := v.get? "measurements"
  rejectIf (scopes > 63 || (hasScope scopes 4 && !hasScope scopes 2))
    "Export requires history; unsupported scope"
  rejectIf (hasScope scopes 32 && (scopes != 63 || !truthy? all ||
      truthy? (measurements.bind length?) || historyFrom != 0 || historyTo != 0))
    "Admin requires all capabilities, all measurements and unrestricted history"
  rejectIf (expiresAt != 0 && (expiresAt ≤ validFrom || (expiresAt : Number).le now))
    "Access expiry must follow its start and be in the future"
  rejectIf (historyTo != 0 && historyTo ≤ historyFrom) "History end must follow its start"
  rejectIf (!hasScope scopes 2 && (historyFrom != 0 || historyTo != 0))
    "History bounds require historical access"
  let (allMeasurements, keys) ← normalizeMeasurements all measurements
  rejectIf (allMeasurements && !keys.isEmpty) "Choose all measurements or an explicit list"
  rejectIf (hasScope scopes 3 && !allMeasurements && keys.isEmpty) "Select at least one measurement"
  return { did, scopes, validFrom, expiresAt, historyFrom, historyTo, allMeasurements,
           measurements := keys }

/-- `18446744073709551615n`. -/
def maxRevision : Nat := 18446744073709551615

def normalizeRevision (value : Option Json) : Except PolicyError String := do
  let revision ← orTypeError (stringOf (coalesce value (some (.string "0"))))
  rejectIf (!isDigits revision || digitsToNat revision > maxRevision) "Invalid policy revision"
  return revision

/-- The mode and the list of readers of an input that has both. -/
def policyShape (input : Option Json) : Except PolicyError (Mode × List Json) :=
  match Mode.parse (input.bind (·.get? "mode")), input.bind (·.get? "readers") with
  | some mode, some (.array readers) =>
    if readers.length > 100 then reject "Invalid access policy" else .ok (mode, readers)
  | _, _ => reject "Invalid access policy"

def normalizePolicy (input : Option Json) (network : String) (ownerDid : Option Json)
    (now : Number) : Except PolicyError AccessPolicy := do
  let (mode, items) ← policyShape input
  let field k := input.bind (·.get? k)
  let publicScopes ← integer (coalesce (field "publicScopes") (some (.number 0))) "public scopes"
  rejectIf (publicScopes &&& 25 != publicScopes || publicScopes > 31 ||
      (mode != .public_ && publicScopes != 0))
    "Only public realtime, location and evidence can be enabled"
  let readers ← items.mapM (fun r => normalizeReader (some r) network now)
  rejectIf (!decide (readers.map (·.did)).Nodup) "Duplicate DID"
  rejectIf ((mode == .private_ && !readers.isEmpty) || (mode == .restricted && readers.isEmpty))
    "Restricted visibility requires readers; private visibility has none"
  let revision ← normalizeRevision (field "revision")
  let ownerDid ← canonicalDid ownerDid network
  let updatedAt ← integer (coalesce (field "updatedAt") (some (.number 0))) "updated time"
  return { mode, publicScopes, readers, ownerDid, revision, updatedAt }

/-! ## The on-chain policy -/

def ACCESS_PACKAGES (network : String) : Option String :=
  if network = "testnet" then
    some "0x417d724f26f1af41a258c5ea22ae8476adc8a4d0e550ae62624b061cf18aa765"
  else if network = "mainnet" then
    some "0x877834453155dcf6c5f0350e7232a6bec84612e1e09685803cdec9069a664418"
  else none

/-- Whether `loadChainPolicy` asks the chain: `false` for a Twin that was not
migrated, whose policy is not on chain. -/
def hasChainPolicy (fields : Json) (accessPackage : Option String) : Except PolicyError Bool := do
  let version := fields.get? "version"
  let text ← orTypeError (stringOf version)
  if text = "1" || version.isNone then
    return false
  rejectIf (text != "2" || (fields.get? "deletion_prepared").elim false (·.strictEq (.bool true)) ||
      !accessPackage.any (· != ""))
    "Twin access is unavailable" 503
  return true

/-- `modes[Number(value.mode)]`. -/
def chainMode (mode : Option Json) : Except PolicyError (Option Json) := do
  let n ← orTypeError (toNumber? mode)
  match n.toInt? with
  | some 0 => return some (.string "private")
  | some 1 => return some (.string "restricted")
  | some 2 => return some (.string "public")
  | _ => return none

/-- The policy in the answer to `getDynamicFieldObject`. -/
def decodeChainPolicy (fields result : Json) (network : String) :
    Except PolicyError AccessPolicy := do
  let content := (result.get? "data").bind (·.get? "content")
  rejectIf (truthy? (result.get? "error") ||
      !((content.bind (·.get? "dataType")).elim false (·.strictEq (.string "moveObject"))))
    "On-chain access policy unavailable" 503
  let wrapped := object (content.bind (·.get? "fields"))
  let value := object (wrapped.get? "value")
  let owner ← orTypeError (stringOf (value.get? "owner_did"))
  let twinOwner ← orTypeError (stringOf (fields.get? "owner_did"))
  rejectIf (toLowerCase owner != toLowerCase twinOwner) "Access policy owner mismatch" 503
  let mode ← chainMode (value.get? "mode")
  let entry (k : String) : Option Json → List (String × Json)
    | some v => [(k, v)]
    | none => []
  let input : Json := .object (entry "mode" mode ++ entry "publicScopes" (value.get? "public_scopes") ++
    entry "readers" (value.get? "readers") ++ entry "revision" (value.get? "revision") ++
    entry "updatedAt" (value.get? "updated_at"))
  normalizePolicy (some input) network (value.get? "owner_did") 0

/-! ## Rights -/

/-- The reader's grant is in force. -/
def Reader.active (r : Reader) (now : Number) : Bool :=
  (r.validFrom : Number).le now && (r.expiresAt == 0 || now.lt r.expiresAt)

/-- The history interval of the grant contains the time. -/
def Reader.historyContains (r : Reader) (t : Number) : Bool :=
  (r.historyFrom : Number).le t && (r.historyTo == 0 || t.lt r.historyTo)

/-- The grant names the measurement. -/
def Reader.grants (r : Reader) (key : String) : Bool :=
  r.allMeasurements || r.measurements.contains key

def policyRights (policy : AccessPolicy) (did : String) (now : Number) : Rights :=
  let owner := policy.ownerDid == toLowerCase did
  let reader := policy.readers.find? (fun r => r.did == toLowerCase did && r.active now)
  { discover := owner || policy.mode == .public_ || reader.isSome
    scopes := if owner then 31 else policy.publicScopes ||| reader.elim 0 (·.scopes)
    publicScopes := policy.publicScopes
    reader, owner
    admin := reader.any (fun r => hasScope r.scopes 32)
    revision := some (.string policy.revision)
    expiresAt := if owner then 0 else reader.elim 0 (·.expiresAt) }

end

def measurementAllowed (rights : Rights) (scope : Nat) (key : String) (observedAt : Number) : Bool :=
  if !([1, 2, 4].contains scope) || !hasScope rights.scopes scope then false
  else if rights.owner || hasScope rights.publicScopes scope then true
  else rights.reader.any fun r =>
    hasScope r.scopes scope && r.grants key && (scope == 1 || r.historyContains observedAt)

structure Permissions where
  realtime : Bool
  storage : Bool
  history : Bool
  export_ : Bool
  location : Bool
  evidence : Bool
  admin : Bool
  deriving DecidableEq

def permissionSummary (rights : Rights) : Permissions :=
  { realtime := hasScope rights.scopes 1
    storage := hasScope rights.scopes 2
    history := hasScope rights.scopes 2
    export_ := hasScope rights.scopes 4
    location := hasScope rights.scopes 8
    evidence := hasScope rights.scopes 16
    admin := rights.admin }

/-! ## DIDs -/

theorem isWhiteSpace_of_isLowerHex {c : Char} (h : isLowerHex c) : isWhiteSpace c = false := by
  have hrange : 48 ≤ c.toNat ∧ c.toNat < 128 := by
    refine ⟨?_, by simpa [isAscii] using (isLowerHex_ascii h).1⟩
    simp only [isLowerHex, Char.isDigit, Bool.or_eq_true, Bool.and_eq_true, decide_eq_true_eq, Char.le_def,
      UInt32.le_iff_toNat_le, ge_iff_le] at h
    have hzero : ('0' : Char).val.toNat = 48 := rfl
    have ha : ('a' : Char).val.toNat = 97 := rfl
    have hc : c.toNat = c.val.toNat := rfl
    omega
  simp only [isWhiteSpace, Bool.or_eq_false_iff, Bool.and_eq_false_iff, decide_eq_false_iff_not, beq_eq_false_iff_ne]
  omega

/-- A text that begins and ends with a character that is no white space is trimmed already. -/
theorem trim_eq_self {s : String} {c d : Char} {cs ds : List Char} (hhead : s.toList = c :: cs)
    (hlast : s.toList = ds ++ [d]) (hc : isWhiteSpace c = false) (hd : isWhiteSpace d = false) : trim s = s := by
  have hfront : s.toList.dropWhile isWhiteSpace = s.toList := by
    rw [hhead, List.dropWhile_cons, hc]
    rfl
  have hback : s.toList.reverse.dropWhile isWhiteSpace = s.toList.reverse := by
    rw [hlast, List.reverse_append, List.reverse_singleton, List.singleton_append, List.dropWhile_cons, hd]
    rfl
  rw [trim, hfront, hback, List.reverse_reverse, String.ofList_toList]

theorem isObjectId_last {s : String} (h : isObjectId s) : ∃ ds d, s.toList = ds ++ [d] ∧ isLowerHex d := by
  unfold isObjectId at h
  split at h
  case h_1 rest hrest =>
    simp only [Bool.and_eq_true, beq_iff_eq, List.all_eq_true] at h
    have hne : rest ≠ [] := by
      rintro rfl
      cases h.1
    refine ⟨'0' :: 'x' :: rest.dropLast, rest.getLast hne, ?_, h.2 _ (List.getLast_mem hne)⟩
    rw [hrest, List.cons_append, List.cons_append, List.dropLast_append_getLast]
  case h_2 => cases h

theorem trim_isDid {did network : String} (h : isDid did network) : trim did = did := by
  simp only [isDid, Bool.and_eq_true] at h
  obtain ⟨hstarts, hid⟩ := h
  obtain ⟨rest, hrest⟩ := List.isPrefixOf_iff_prefix.mp hstarts
  obtain ⟨ds, d, hlast, hhex⟩ := isObjectId_last hid
  have hlength : (didPrefix network).length = (didPrefix network).toList.length := (String.length_toList).symm
  have hdrop : did.toList.drop (didPrefix network).length = rest := by
    rw [← hrest, hlength, List.drop_left]
  rw [String.toList_ofList, hdrop] at hlast
  have hprefix : ∃ cs, (didPrefix network).toList = 'd' :: cs := by
    unfold didPrefix
    split
    · exact ⟨_, rfl⟩
    · rw [String.toList_append, String.toList_append]
      exact ⟨_, rfl⟩
  obtain ⟨cs, hcs⟩ := hprefix
  have hhead : did.toList = 'd' :: (cs ++ rest) := by
    rw [← hrest, hcs]
    rfl
  have hend : did.toList = ((didPrefix network).toList ++ ds) ++ [d] := by
    rw [← hrest, hlast, List.append_assoc]
  exact trim_eq_self hhead hend (by decide) (isWhiteSpace_of_isLowerHex hhex)

/-- The text is an object id when one digit is repeated. -/
theorem isObjectId_objectId {digit : Char} (h : isLowerHex digit) : isObjectId (objectId digit) := by
  have hlist : (objectId digit).toList = '0' :: 'x' :: .replicate 64 digit := by
    simp only [objectId, String.toList_append, String.toList_ofList, String.reduceToList]
    rfl
  simp only [isObjectId, hlist, List.length_replicate, List.all_replicate, h, beq_self_eq_true, Bool.true_and]
  rfl

theorem ascii_of_all {s : String} (h : (s.toList.all fun c => isAscii c && c.toLower == c) = true) :
    ∀ c ∈ s.toList, isAscii c ∧ c.toLower = c := by
  simpa using h

theorem ascii_of_isObjectId {id : String} (h : isObjectId id) : ∀ c ∈ id.toList, isAscii c ∧ c.toLower = c := by
  intro c hc
  simp only [isObjectId] at h
  split at h
  case h_1 rest hlist =>
    simp only [Bool.and_eq_true, List.all_eq_true] at h
    rw [hlist, List.mem_cons, List.mem_cons] at hc
    rcases hc with rfl | rfl | hc
    · decide
    · decide
    · exact isLowerHex_ascii (h.2 c hc)
  case h_2 => cases h

/-- The prefix of a network and an object id. -/
theorem isDid_append {network id : String} (h : isObjectId id) : isDid (didPrefix network ++ id) network := by
  rw [isDid, startsWith, String.toList_append, ← String.length_toList, List.drop_left, String.ofList_toList, h,
    Bool.and_true]
  exact List.isPrefixOf_iff_prefix.mpr (List.prefix_append _ _)

theorem toLowerCase_of_ascii [Runtime] {s : String} (h : ∀ c ∈ s.toList, isAscii c ∧ c.toLower = c) :
    toLowerCase s = s := by
  rw [Runtime.toLowerCase_ascii _ (List.all_eq_true.mpr fun c hc => (h c hc).1), asciiLower,
    List.map_congr_left fun c hc => (h c hc).2, List.map_id', String.ofList_toList]

/-- It is in its canonical form on a network whose name is. -/
theorem toLowerCase_did [Runtime] {network id : String} (h : isObjectId id)
    (hnetwork : ∀ c ∈ network.toList, isAscii c ∧ c.toLower = c) :
    toLowerCase (didPrefix network ++ id) = didPrefix network ++ id := by
  apply toLowerCase_of_ascii
  intro c hc
  rw [String.toList_append, List.mem_append] at hc
  rcases hc with hc | hc
  · unfold didPrefix at hc
    split at hc
    case isTrue =>
      simp only [String.reduceToList, List.mem_cons, List.not_mem_nil, or_false] at hc
      rcases hc with rfl | rfl | rfl | rfl | rfl | rfl | rfl | rfl | rfl <;> decide
    case isFalse =>
      simp only [String.toList_append, String.reduceToList, List.mem_append, List.mem_cons, List.not_mem_nil,
        or_false] at hc
      rcases hc with ((rfl | rfl | rfl | rfl | rfl | rfl | rfl | rfl | rfl) | hc) | rfl
      all_goals first | decide | exact hnetwork c hc
  · exact ascii_of_isObjectId h c hc

theorem canonicalDid_append [Runtime] {network id : String} (h : isObjectId id)
    (hnetwork : ∀ c ∈ network.toList, isAscii c ∧ c.toLower = c) :
    canonicalDid (some (.string (didPrefix network ++ id))) network = .ok (didPrefix network ++ id) := by
  have hdid : isDid (didPrefix network ++ id) network := isDid_append h
  have htext (text : String) : orTypeError (textOf? (some (.string text))) = .ok text := rfl
  rw [canonicalDid, htext]
  simp [bind, Except.bind, pure, Except.pure, trim_isDid hdid, toLowerCase_did h hnetwork, hdid, rejectIf]

end Sharing
