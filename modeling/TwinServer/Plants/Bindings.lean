-- SUMMARY: The bindings of Twins to nodes of plants: what a put of a plant checks, and where a Twin is found.
import TwinServer.Plants.Catalog
import TwinServer.Plants.Store

/-!
# Bindings

`src/plants/association.ts` and the put of `src/plants/routes.ts`: the field `twinIds` of a document
binds nodes to Twins. `locateTwinPlant` of `src/plants/twin-membership.ts` looks for the plant of a
Twin. A put checks and writes under the lock of the catalog, so it is one step of the store.
-/

open Js Js.Json ObjectId Sharing Thread

namespace Plants

/-! ## Documents -/

mutual

/-- `visit`: the ids of the nodes that stand under no document. -/
def visit : Json → Except Thrown (List String)
  | .object fields =>
    if (Record.get? fields "type").any (·.strictEq (.string "document")) then .ok []
    else do
      let below ← visitChildren fields
      return (asString? (Record.get? fields "id")).toList ++ below
  | _ => .ok []

def visitChildren : List (String × Json) → Except Thrown (List String)
  | [] => .ok []
  | (k, .array items) :: fields => if k = "children" then visitAll items else visitChildren fields
  | (k, v) :: fields =>
    if k = "children" then if v.truthy then .error .type else .ok [] else visitChildren fields

def visitAll : List Json → Except Thrown (List String)
  | [] => .ok []
  | v :: items => do
    let ids ← visit v
    let rest ← visitAll items
    return ids ++ rest

end

/-- `Object.entries(v || {})`. -/
@[local grind] def entriesOf : Option Json → List (String × Json)
  | some (.object fields) => Record.entries fields
  | some (.array items) => items.zipIdx.map fun e => (e.2.repr, e.1)
  | some (.string s) => s.toList.zipIdx.map fun e => (e.2.repr, .string (.singleton e.1))
  | _ => []

/-- The bindings of a document. -/
def twinEntries (document : Record Json) : List (String × Json) := entriesOf (document.get? "twinIds")

/-- The document binds the node to the Twin. -/
def Bound (document : Record Json) (node id : String) : Prop :=
  (node, Json.string id) ∈ twinEntries document

/-! ## The plants of an owner -/

def personalScope (ownerDid : String) : String := "personal:" ++ ownerDid

def isPersonal (scope : String) : Bool := startsWith scope "personal:"

/-- A plant with its owner; its tenant is missing when the scope is a personal one. -/
@[ext]
structure OwnedPlant where
  plant : Stored
  tenantId : Option String

def ownerMismatch (message : String) (status : Nat) : AppError :=
  { code := "PLANT_OWNER_MISMATCH", message, status, category := .AUTHORIZATION }

/-- The document names another owner. -/
def ownedByOther (document : Record Json) (ownerDid : String) : Bool :=
  truthy? (document.get? "ownerDid") && !(document.get? "ownerDid").any (·.strictEq (.string ownerDid))

/-- The scopes of an owner: the tenants that are pinned to him, and his own. -/
def ownerScopes (pins : Record String) (ownerDid : String) : List String :=
  ((pins.entries.filter (·.2 = ownerDid)).map Prod.fst) ++ [personalScope ownerDid]

def ownerPlants (pins : Record String) (store : Store) (ownerDid : String) :
    Except Thrown (List OwnedPlant) :=
  let plants := (ownerScopes pins ownerDid).flatMap store.list
  if plants.any fun p => ownedByOther p.document ownerDid then
    .error (.app (ownerMismatch "Stored plant ownership conflicts with its storage scope" 409))
  else .ok (plants.map fun p => ⟨p, if isPersonal p.scope then none else some p.scope⟩)

def bindingConflict (message : String) : AppError :=
  { code := "PLANT_TWIN_BINDING_CONFLICT", message, status := 409, category := .VALIDATION }

section
variable [Services] (parse : String → Option Json)

/-! ## The checks of a put -/

/-- `JSON.parse(v || '{}')`. -/
def parseText (v : Option Json) : Option Json :=
  if truthy? v then (v.bind toString?).bind parse else parse "\x7b\x7d"

/-- The checks of a binding that the previous document did not have. -/
def checkNew (plants : List OwnedPlant) (tenantId ownerDid plantId : String) (id : String)
    (twin : Except Thrown Json) : Except Thrown Unit := do
  let twin ← twin
  let fields := fieldsOf twin
  throwIf (!(fields.get? "owner_did").any (·.strictEq (.string ownerDid))) {
    code := "PLANT_TWIN_OWNER_MISMATCH", message := "Twin must belong to the plant supervisor"
    status := 403, category := .AUTHORIZATION }
  match parseText parse (fields.get? "immutable_metadata") with
  | none => .error (.app (bindingConflict "Invalid Twin origin metadata"))
  | some origin =>
    throwIf (truthy? (origin.get? "tenant_id") &&
        (!(origin.get? "tenant_id").any (·.strictEq (.string tenantId)) ||
          !(origin.get? "plant_id").any (·.strictEq (.string plantId)))) {
      code := "TWIN_ALREADY_ASSIGNED"
      message := "Industrial Twin requires an explicit relocation workflow", status := 409
      category := .VALIDATION }
    throwIf (plants.any fun p => p.tenantId.isSome &&
        !(p.plant.id == plantId && p.plant.scope == tenantId) &&
        (twinEntries p.plant.document).any (·.2.strictEq (.string id))) {
      code := "TWIN_ALREADY_ASSIGNED"
      message := "Twin is already associated with another plant", status := 409
      category := .VALIDATION }

/-- The loop over the bindings; `seen` are the Twins before. -/
def checkBindings (plants : List OwnedPlant) (getTwin : String → Except Thrown Json)
    (tenantId ownerDid plantId : String) (old : List (String × Json)) (nodes seen : List String) :
    List (String × Json) → Except Thrown Unit
  | [] => .ok ()
  | (node, v) :: entries =>
    match v with
    | .string id =>
      if !isObjectIdText id || !nodes.contains node || seen.contains id then
        .error (.app (bindingConflict "Invalid or duplicate Twin binding"))
      else do
        if !(old.lookup node).any (·.strictEq (.string id)) then
          checkNew parse plants tenantId ownerDid plantId id (getTwin id)
        checkBindings plants getTwin tenantId ownerDid plantId old nodes (id :: seen) entries
    | _ => .error (.app (bindingConflict "Invalid or duplicate Twin binding"))

def validatePlantBindings (pins : Record String) (store : Store)
    (getTwin : String → Except Thrown Json) (tenantId ownerDid plantId : String)
    (document : Record Json) : Except Thrown Unit := do
  let plants ← ownerPlants pins store ownerDid
  let previous := plants.find? fun p => p.plant.scope == tenantId && p.plant.id == plantId
  let old := (previous.map fun p => twinEntries p.plant.document).getD []
  let nodes ← (document.get? "tree").elim (.ok []) visit
  checkBindings parse plants getTwin tenantId ownerDid plantId old nodes [] (twinEntries document)

/-! ## The put of a plant -/

/-- A put by the supervisor of a tenant. -/
structure PutRequest where
  tenantId : String
  id : String
  input : Option Json
  getTwin : String → Except Thrown Json

/-- The body with the owner and the tenant in its document. -/
def claimDocument (tenantId ownerDid : String) (input : Option Json) : Except Thrown (Option Json) :=
  match input with
  | some (.object fields) =>
    match Record.get? fields "document" with
    | some (.object document) =>
      if ownedByOther document ownerDid then
        .error (.app (ownerMismatch "Plant ownership cannot be reassigned through a document edit" 403))
      else .ok (some (.object (Record.set fields "document" (.object
        (assign document [("ownerDid", .string ownerDid), ("tenantId", .string tenantId)])))))
    | _ => .ok input
  | _ => .ok input

/-- The put of a document, when the caller is the supervisor that is pinned for his tenant. -/
def putPlant (pins : Record String) (store : Store) (r : PutRequest) : Except Thrown Store :=
  match pins.get? r.tenantId with
  | none => refuse "PLANT_ACCESS_DENIED"
  | some ownerDid => do
    let input ← claimDocument r.tenantId ownerDid r.input
    let update ← checkUpdate r.id input
    let revision := store.revision (r.tenantId, r.id)
    throwIf (revision != update.revision) {
      code := "PLANT_REVISION_CONFLICT", message := "Plant revision does not match", status := 409
      category := .VALIDATION, details := [("revision", .number revision)] }
    validatePlantBindings parse pins store r.getTwin r.tenantId ownerDid r.id update.document
    return store.put {
      scope := r.tenantId, id := r.id, revision := update.revision + 1
      document := leftOf update.document, publication := update.publication }

structure Membership where
  plantId : String
  tenantId : Option String
  ownerDid : String
  nodeId : Json
  name : Json
  isPublic : Bool

/-- `immutable`. -/
def immutableOf (fields : Json) : Record Json :=
  asRecord (parseText parse (fields.get? "immutable_metadata"))

def assertTwinOwner (fields : Json) (accounting : AccountingContext) : Except Thrown Unit :=
  throwIf (!(fields.get? "owner_did").any (·.strictEq (.string accounting.ownerDid)) ||
      !(fields.get? "subscription_id").any (·.strictEq (.string accounting.subscriptionId))) {
    code := "PLANT_TWIN_OWNER_MISMATCH"
    message := "Plant membership requires the Twin's current owner and subscription", status := 403
    category := .AUTHORIZATION }

/-- The nodes that a document binds to the Twin. -/
def nodesOf (document : Record Json) (twinId : String) : List String :=
  ((twinEntries document).filter (·.2.strictEq (.string twinId))).map Prod.fst

/-- The Twin says that it comes from the plant. -/
def isOrigin (meta_ : Record Json) (p : OwnedPlant) : Bool :=
  (meta_.get? "plant_id").any (·.strictEq (.string p.plant.id)) &&
    match p.tenantId with
    | none => (coalesce (meta_.get? "tenant_id") none).isNone
    | some tenantId => (meta_.get? "tenant_id").any (·.strictEq (.string tenantId))

/-- The membership of a Twin in a plant, with the node that is bound to it, if one is. -/
def membership (meta_ : Record Json) (ownerDid : String) (p : OwnedPlant) (node : Option String) :
    Membership where
  plantId := p.plant.id
  tenantId := p.tenantId
  ownerDid
  nodeId := match node.filter (· != "") with
    | some node => .string node
    | none => if truthy? (meta_.get? "twinscope_node_id") then
        (meta_.get? "twinscope_node_id").getD .null else .null
  name := (((p.plant.document.get? "tree").bind (·.get? "name")).filter truthy).getD (.string p.plant.id)
  isPublic := p.plant.publication.isSome

/-- `locateTwinPlant`. -/
def locateTwinPlant (pins : Record String) (store : Store) (twinId : String) (raw : Json)
    (accounting : AccountingContext) : Except Thrown (Option Membership) := do
  let fields := fieldsOf raw
  assertTwinOwner fields accounting
  let meta_ := immutableOf parse fields
  let plants ← ownerPlants pins store accounting.ownerDid
  throwIf (plants.any fun p => 1 < (nodesOf p.plant.document twinId).length)
    (bindingConflict "Multiple nodes reference this Twin")
  let matching := plants.filterMap fun p =>
    (nodesOf p.plant.document twinId).head?.map fun node =>
      membership meta_ accounting.ownerDid p (some node)
  let origins := (plants.filter fun p =>
    (nodesOf p.plant.document twinId).isEmpty && isOrigin meta_ p).map fun p =>
      membership meta_ accounting.ownerDid p none
  let operational := matching.filter (·.tenantId.isSome)
  let current := if !operational.isEmpty then operational
    else if !matching.isEmpty then matching else origins
  throwIf (1 < current.length) (bindingConflict "Multiple plants reference this Twin")
  return current.head?

end

end Plants
