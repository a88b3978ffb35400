-- SUMMARY: Two readers of the sharing of a Twin, the gate for anonymous requests and the owner's view, and when they agree.
import TwinServer.Sharing.Service

/-!
# Public access

`src/twin/publicVisibility.ts` and `assertPublicTwinAccess` decide whether a request without
credentials may see a Twin, `policy` of the sharing service tells the owner what he shares. Both
read the metadata of the Twin, where a setting stands in the entry `objectid` or, in older Twins,
beside it.
-/

open Js Js.Json

namespace Sharing

/-! ## The gate -/

structure PublicAccess where
  twinPublic : Bool
  dataPublic : Bool
  liveLocationPublic : Bool
  deriving DecidableEq

def PublicAccess.none : PublicAccess := ⟨false, false, false⟩

/-- What a public endpoint gives: the Twin alone, its data (`true`), or its location. -/
inductive AccessKind where
  | twin | data | location
  deriving DecidableEq

def PublicAccess.admits (access : PublicAccess) (kind : AccessKind) : Bool :=
  access.twinPublic && (kind != .data || access.dataPublic) &&
    (kind != .location || access.liveLocationPublic)

/-- `asRecord`, with the properties of the record. -/
def asRecord : Option Json → Record Json
  | some (.object fields) => fields
  | _ => []

/-- The property is the string `public`. -/
def isPublic (v : Option Json) : Bool := v.any (·.strictEq (.string "public"))

/-- What the metadata of a Twin makes public. -/
def publicFlags (metadata : Record Json) : PublicAccess :=
  let nested := asRecord (metadata.get? "objectid")
  let twinPublic := isPublic (nested.get? "visibility") || isPublic (metadata.get? "visibility")
  let dataPublic := twinPublic &&
    (isPublic (nested.get? "dataVisibility") || isPublic (metadata.get? "dataVisibility"))
  let liveLocationPolicy :=
    coalesce (nested.get? "liveLocationVisibility") (metadata.get? "liveLocationVisibility")
  { twinPublic, dataPublic
    liveLocationPublic := twinPublic && (isPublic liveLocationPolicy ||
      ((coalesce liveLocationPolicy none).isNone && dataPublic)) }

section
variable [Runtime] (o : SharingOptions)

/-- `parseMetadata`. -/
def parseMetadata (v : Option Json) : Record Json :=
  match v with
  | some (.string s) => asRecord (o.parseJson s)
  | v => asRecord v

/-- `stringValue`. -/
def trimmedString (v : Option Json) : String := ((asString? v).map trim).getD ""

def objectIdTwinPublicAccess (value : Json) : PublicAccess :=
  let object := asRecord (some value)
  let data := asRecord (object.get? "data")
  let type := trimmedString (coalesce (data.get? "type") (object.get? "type"))
  if type = "" ∨ toLowerCase type ≠ toLowerCase (o.packageId ++ "::oid_twin::OIDTwin") then .none
  else
    let content := asRecord (coalesce (data.get? "content") (object.get? "content"))
    let fields := asRecord (coalesce (content.get? "fields") (object.get? "fields"))
    publicFlags
      (parseMetadata o (coalesce (fields.get? "mutable_metadata") (fields.get? "mutableMetadata")))

/-- `chainPolicy(id)` on the object of the Twin and the answer of the chain. -/
def chainPolicyOf (twin : Json) (answer : Option Json) : Except Thrown (Option AccessPolicy) := do
  let fields ← match o.accessPackageId with
    | some _ => twinFields o twin
    | none => pure (fieldsOf twin)
  chainPolicy o fields answer

/-- `publicAccess(id)`. -/
def chainAccess (twin : Json) (answer : Option Json) : Except Thrown (Option PublicAccess) := do
  let p ← chainPolicyOf o twin answer
  return p.map fun p => {
    twinPublic := p.mode == .public_, dataPublic := hasScope p.publicScopes 1
    liveLocationPublic := hasScope p.publicScopes 8 }

/-- `blocksPublic`, on the content of the policy file. -/
def blocksPublic (twin : Json) (answer content : Option Json) (kind : AccessKind) :
    Except Thrown Bool := do
  match ← chainAccess o twin answer with
  | some chain => return !chain.admits kind
  | none =>
    let p ← stored content
    return p.any fun p => p.pending || (kind == .data && p.mode != .public_)

def publicTwinNotFound : AppError :=
  { code := "PUBLIC_TWIN_NOT_FOUND", message := "Public Twin not found", status := 404
    category := .VALIDATION }

/-- `assertPublicTwinAccess`, given the access that is cached for the Twin, if it is recent. -/
def assertPublicTwinAccess (rawTwinId : Option Json) (kind : AccessKind) (twin : Json)
    (answer content : Option Json) (cached : Option PublicAccess) : Except Thrown String := do
  let text ← conversion (textOf? rawTwinId)
  let twinId := toLowerCase text
  throwIf (!isObjectId twinId) publicTwinNotFound
  match ← chainAccess o twin answer with
  | some chain =>
    throwIf (!chain.admits kind) publicTwinNotFound
    return twinId
  | none =>
    let blocked ← blocksPublic o twin answer content kind
    throwIf blocked publicTwinNotFound
    let access := cached.getD (objectIdTwinPublicAccess o twin)
    throwIf (!access.admits kind) publicTwinNotFound
    return twinId

/-! ## The owner's view -/

structure PolicyView where
  mode : String
  visibility : String
  liveLocationVisibility : String
  allowedDids : List Json
  storageDids : List String
  revision : Json
  pending : Bool

/-- `v === 'public' ? 'public' : 'private'`. -/
def publicOrPrivate (v : Option Json) : String := if isPublic v then "public" else "private"

/-- `policy` of a Twin without a policy on the chain. -/
def storedView (fields m : Json) (saved : Option StoredPolicy) : Except Thrown PolicyView := do
  let owner ← lowerField fields "owner_did"
  let nested := asRecord (m.get? "objectid")
  let own := saved.filter (·.ownerDid == owner)
  return {
    mode := match asString? (dataVisibility m) with
      | some mode => if mode = "public" ∨ mode = "restricted" then mode else "private"
      | none => "private"
    visibility := publicOrPrivate (nested.get? "visibility")
    liveLocationVisibility := publicOrPrivate (nested.get? "liveLocationVisibility")
    allowedDids := (own.map (·.allowedDids)).getD []
    storageDids := (own.map fun p => (p.storageDids.getD []).filter (includes p.allowedDids)).getD []
    revision := currentRevision saved
    pending := saved.any (·.pending) }

/-- What `policy` tells of a policy on the chain. -/
def chainView (p : AccessPolicy) : PolicyView where
  mode := p.mode.name
  visibility := p.mode.name
  liveLocationVisibility := if hasScope p.publicScopes 8 then "public" else "private"
  allowedDids := p.readers.map fun r => .string r.did
  storageDids := (p.readers.filter fun r => hasScope r.scopes 2).map Reader.did
  revision := .string p.revision
  pending := false

/-- `policy`, on the object of the Twin, the answer of the chain and the content of the file. -/
def policy (did : String) (twin : Json) (answer content : Option Json) : Except Thrown PolicyView := do
  let fields ← twinFields o twin
  manage o did fields
  match ← chainPolicy o fields answer with
  | some p => return chainView p
  | none =>
    let m ← metadata o (fields.get? "mutable_metadata")
    let saved ← stored content
    storedView fields m saved

end

end Sharing
