-- SUMMARY: What the sharing service does between two suspensions: Twins, policies on chain and in files, and authorization.
import TwinServer.Base.Errors
import TwinServer.Sharing.Policy

/-!
# The sharing service

The parts of `src/sharing/service.ts` that run without a suspension: the reading of a
Twin and of its two kinds of policy, and the decision whether a DID may use a scope.
The policy of a Twin that was not migrated to the chain is kept in a file, as JSON.
The sequences of these steps are `TwinServer/Sharing/Update.lean` and
`TwinServer/Sharing/Session.lean`.
-/

open Js Js.Json

namespace Sharing

/-! ## Options and errors -/

/-- The options of the service, with the parser of JSON texts. -/
structure SharingOptions where
  network : String
  packageId : String
  accessPackageId : Option String
  publicUrl : String
  parseJson : String → Option Json

/-- The error of `fail`. -/
def denied (message : String) (status : Nat := 403) : AppError :=
  { code := "TWIN_SHARING_DENIED", message, status, category := .AUTHORIZATION }

/-- `fail`. -/
def fail {α : Type} (message : String) (status : Nat := 403) : Except Thrown α :=
  .error (.app (denied message status))

def policyUnavailable (message : String) : AppError :=
  { code := "TWIN_POLICY_UNAVAILABLE", message, status := 503, category := .AUTHORIZATION }

/-! ## Policies in files -/

structure StoredPolicy where
  mode : Mode
  allowedDids : List Json
  storageDids : Option (List String)
  ownerDid : String
  revision : Option Json
  pending : Bool

/-- The list holds the string. -/
def includes (items : List Json) (s : String) : Bool := items.any (·.strictEq (.string s))

/-- The DIDs of the field `storageDids`, when it is missing or a list of strings among
the allowed DIDs. -/
def storageOf (allowed : List Json) : Option Json → Option (Option (List String))
  | none => some none
  | some (.array items) =>
    match strings? items with
    | some dids => if dids.all (includes allowed) then some (some dids) else none
    | none => none
  | some _ => none

/-- `stored` on the content of the file; a file that is missing has no policy. A text
that is not JSON stands as `null`, which is as unreadable. -/
@[local grind] def stored (content : Option Json) : Except Thrown (Option StoredPolicy) :=
  match content with
  | none => .ok none
  | some .null => .error .type
  | some value =>
    match Mode.parse (value.get? "mode"), value.get? "allowedDids", value.get? "ownerDid" with
    | some mode, some (.array allowedDids), some (.string ownerDid) =>
      match storageOf allowedDids (value.get? "storageDids") with
      | some storageDids =>
        .ok (some { mode, allowedDids, storageDids, ownerDid, revision := value.get? "revision",
                    pending := truthy? (value.get? "pending") })
      | none => fail "Access policy unavailable" 503
    | _, _, _ => fail "Access policy unavailable" 503

/-- The JSON text of a policy. -/
def StoredPolicy.encode (p : StoredPolicy) : Json :=
  .object ([("mode", .string p.mode.name), ("allowedDids", .array p.allowedDids)] ++
    (p.storageDids.map fun dids => ("storageDids", Json.array (dids.map .string))).toList ++
    [("ownerDid", .string p.ownerDid)] ++ (p.revision.map fun v => ("revision", v)).toList ++
    if p.pending then [("pending", .bool true)] else [])

/-- What an update checks a request against: `current?.revision ?? null`. -/
def currentRevision (current : Option StoredPolicy) : Json :=
  (coalesce (current.bind (·.revision)) none).getD .null

/-- Nobody may store what he may not read, and only a restricted policy names anybody. -/
structure StoredPolicy.WellFormed (p : StoredPolicy) : Prop where
  storage : ∀ dids, p.storageDids = some dids → ∀ did ∈ dids, includes p.allowedDids did
  empty : p.mode ≠ .restricted → p.allowedDids = [] ∧ p.storageDids.getD [] = []

/-! ## Scopes -/

inductive Scope where
  | discover | realtime | storage | export_ | location | evidence
  deriving DecidableEq

def Scope.bit : Scope → Nat
  | .discover => 0
  | .realtime => 1
  | .storage => 2
  | .export_ => 4
  | .location => 8
  | .evidence => 16

/-- What an authorization yields: the fields of the Twin, the revision of the policy it
rests on, and the rights. -/
structure Authorization where
  fields : Json
  revision : Option Json
  rights : Rights

section
variable [Runtime] (o : SharingOptions)

/-! ## Twins -/

/-- `id`. -/
def twinIdOf (v : String) : Except Thrown String :=
  let id := toLowerCase v
  if isObjectId id then .ok id else fail "Invalid Twin ID" 400

/-- `did`. -/
def didOf (v : Option Json) : Except Thrown String := do
  let text ← conversion (textOf? v)
  let did := toLowerCase (trim text)
  if isDid did o.network then return did
  else fail ("A valid " ++ o.network ++ " DID is required") 422

/-- An object id in lower case is accepted as it is. -/
theorem twinIdOf_of_isObjectId {id : String} (h : isObjectId id) : twinIdOf id = .ok id := by
  simp only [twinIdOf, toLowerCase_of_ascii (ascii_of_isObjectId h), h, if_true]

theorem didOf_append {id : String} (h : isObjectId id) (hnetwork : ∀ c ∈ o.network.toList, isAscii c ∧ c.toLower = c) :
    didOf o (some (.string (didPrefix o.network ++ id))) = .ok (didPrefix o.network ++ id) := by
  have hdid : isDid (didPrefix o.network ++ id) o.network := isDid_append h
  have htext (text : String) : conversion (textOf? (some (.string text))) = .ok text := rfl
  rw [didOf, htext]
  simp [bind, Except.bind, pure, Except.pure, trim_isDid hdid, toLowerCase_did h hnetwork, hdid]

/-- `fieldsOf`. -/
def fieldsOf (v : Json) : Json :=
  let content (w : Option Json) := (w.bind (·.get? "content")).bind (·.get? "fields")
  (coalesce (coalesce (content (v.get? "data")) (content (some v)))
    (coalesce (v.get? "fields") (some (.object [])))).getD .null

/-- `twin` on the object that the ledger gives for the id. -/
def twinFields (twin : Json) : Except Thrown Json := do
  let data := twin.get? "data"
  let type_ := coalesce (coalesce (data.bind (·.get? "type"))
      ((data.bind (·.get? "content")).bind (·.get? "type")))
    (coalesce ((twin.get? "content").bind (·.get? "type")) (twin.get? "type"))
  let text ← conversion (stringOf type_)
  if toLowerCase text = toLowerCase (o.packageId ++ "::oid_twin::OIDTwin") then
    return fieldsOf twin
  else fail "Twin unavailable" 404

@[local grind] def metadata (v : Option Json) : Except Thrown Json :=
  let value := match v with
    | some (.string s) => o.parseJson (if s = "" then "{}" else s)
    | v => coalesce v (some (.object []))
  match value with
  | some (.object fields) =>
    match coalesce (Record.get? fields "objectid") none with
    | none | some (.object _) => .ok (.object fields)
    | some _ => fail "Invalid Twin metadata" 422
  | _ => fail "Invalid Twin metadata" 422

/-- `m.objectid?.dataVisibility ?? m.dataVisibility`. -/
def dataVisibility (m : Json) : Option Json :=
  coalesce ((m.get? "objectid").bind (·.get? "dataVisibility")) (m.get? "dataVisibility")

/-- `chainPolicy` on the fields of a Twin and the answer of the chain, if it gives one. -/
def chainPolicy (fields : Json) (answer : Option Json) : Except Thrown (Option AccessPolicy) :=
  let loaded : Except PolicyError (Option AccessPolicy) := do
    if ← hasChainPolicy fields (o.accessPackageId.or (ACCESS_PACKAGES o.network)) then
      match answer with
      | some result => some <$> decodeChainPolicy fields result o.network
      | none => .error .type
    else return none
  match loaded with
  | .ok p => .ok p
  | .error (.access message _) => .error (.app (policyUnavailable message))
  | .error .type => .error (.app (policyUnavailable "On-chain access policy unavailable"))

/-- `manage` on the fields of the Twin. -/
def manage (did : String) (fields : Json) : Except Thrown Unit := do
  let owner ← conversion (textOf? (fields.get? "owner_did"))
  let did ← didOf o (some (.string did))
  if toLowerCase owner = did then return ()
  else fail "Only the owner can manage data access"

variable {o} in
/-- An owner manages his Twin. -/
theorem manage_owner {did owner : String} {fields : Json}
    (hdid : didOf o (some (.string did)) = .ok owner) (hlower : toLowerCase did = owner)
    (hfields : fields.get? "owner_did" = some (.string did)) : manage o did fields = .ok () := by
  have htext : conversion (textOf? (some (.string did))) = .ok did := rfl
  simp [manage, hfields, htext, hdid, hlower, bind, Except.bind, pure, Except.pure]

/-! ## Authorization -/

/-- `authorize` under a policy on chain. -/
def authorizeChain (fields : Json) (p : AccessPolicy) (did : String) (scope : Scope)
    (now : Number) : Except Thrown Authorization := do
  let did ← didOf o (some (.string did))
  let rights := policyRights p did now
  if !rights.discover || (scope.bit != 0 && !hasScope rights.scopes scope.bit) then
    fail "Your DID is not authorized for this data scope"
  else return { fields, revision := some (.string p.revision), rights }

/-- `String(f.k).toLowerCase()`. -/
def lowerField (fields : Json) (k : String) : Except Thrown String := do
  let text ← conversion (stringOf (fields.get? k))
  return toLowerCase text

/-- The rights a policy in a file gives a DID it admits. -/
def storedRights (p : StoredPolicy) (did : String) (owner : Bool) : Rights :=
  let scopes := if owner then 31
    else if (p.storageDids.getD []).contains did then 7 else 1
  { legacy := true, discover := true, scopes, publicScopes := 0, owner, revision := p.revision,
    expiresAt := 0,
    reader := some { did, scopes, validFrom := 0, expiresAt := 0, historyFrom := 0,
                     historyTo := 0, allMeasurements := true, measurements := [] } }

/-- `authorize` under the policy in the file, with the metadata of the Twin. -/
def authorizeStored (fields m : Json) (content : Option Json) (did : String) (scope : Scope) :
    Except Thrown Authorization := do
  let unavailable := fail "Restricted access is unavailable or revoked"
  match ← stored content with
  | none => unavailable
  | some p =>
    if p.pending || p.mode != .restricted ||
        !(dataVisibility m).any (·.strictEq (.string "restricted")) then unavailable
    else
      let owner ← lowerField fields "owner_did"
      if p.ownerDid != owner then unavailable
      else
        let did ← didOf o (some (.string did))
        let steward ← if includes p.allowedDids did then pure "" else lowerField fields "steward_did"
        if !includes p.allowedDids did && did != owner && did != steward then
          fail "Your DID is not authorized for this Twin"
        else if (scope == .storage || scope == .export_) && did != owner &&
            !(includes p.allowedDids did && (p.storageDids.getD []).contains did) then
          fail "Your DID is authorized for realtime data only"
        else if (scope == .location || scope == .evidence) && did != owner then
          fail "Activate explicit on-chain resource access first"
        else return { fields, revision := p.revision, rights := storedRights p did (did == owner) }

end

/-! ## Files that an update writes -/

theorem Mode.parse_name (mode : Mode) : Mode.parse (some (.string mode.name)) = some mode := by
  cases mode <;> rfl

theorem strings?_map (dids : List String) : strings? (dids.map .string) = some dids := by
  induction dids with
  | nil => rfl
  | cons did dids ih =>
      simp only [strings?] at ih
      simp only [strings?, List.map_cons, List.mapM_cons, ih]
      rfl

theorem storageOf_encode {allowed : List Json} {dids : List String}
    (h : ∀ did ∈ dids, includes allowed did) :
    storageOf allowed (some (.array (dids.map .string))) = some (some dids) := by
  have hall : dids.all (includes allowed) := List.all_eq_true.mpr h
  simp only [storageOf, strings?_map, hall, if_true]

/-- The fields of the text of a policy. -/
theorem StoredPolicy.get?_encode (p : StoredPolicy) :
    p.encode.get? "mode" = some (.string p.mode.name) ∧
      p.encode.get? "allowedDids" = some (.array p.allowedDids) ∧
      p.encode.get? "storageDids" = p.storageDids.map (fun dids => .array (dids.map .string)) ∧
      p.encode.get? "ownerDid" = some (.string p.ownerDid) ∧
      p.encode.get? "revision" = p.revision ∧
      truthy? (p.encode.get? "pending") = p.pending := by
  obtain ⟨mode, allowedDids, storageDids, ownerDid, revision, pending⟩ := p
  cases storageDids <;> cases revision <;> cases pending <;>
    simp [encode, Json.get?, Record.get?_cons, truthy?, truthy]

/-- A policy that an update writes is read back as it was. -/
theorem stored_encode {p : StoredPolicy} (h : p.WellFormed) :
    stored (some p.encode) = .ok (some p) := by
  obtain ⟨hmode, hallowed, hstorage, howner, hrevision, hpending⟩ := p.get?_encode
  have hstorage' : storageOf p.allowedDids (p.encode.get? "storageDids") = some p.storageDids := by
    rw [hstorage]
    cases hdids : p.storageDids with
    | none => rfl
    | some dids => exact storageOf_encode (h.storage dids hdids)
  have hobject : p.encode ≠ .null := by
    intro hnull
    cases hnull
  simp only [stored, hmode, hallowed, howner, Mode.parse_name, hstorage', hrevision, hpending]

/-- Nobody is authorized under a policy that is pending. -/
theorem authorizeStored_pending [Runtime] (o : SharingOptions) {p : StoredPolicy}
    (h : p.WellFormed) (hpending : p.pending) (fields m : Json) (did : String) (scope : Scope) :
    authorizeStored o fields m (some p.encode) did scope =
      fail "Restricted access is unavailable or revoked" := by
  simp only [authorizeStored, stored_encode h, bind, Except.bind, hpending, Bool.true_or, if_true]

end Sharing
