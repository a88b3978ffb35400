-- SUMMARY: Creation of Twins on the personal and on the delegated path: the checks before, and the input the Twin is created from.
import TwinServer.Base.Serial
import TwinServer.Objectid.Publisher
import TwinServer.Sharing.PublicAccess

/-!
# Creation of Twins

`src/plants/twin-creation.ts` without the assertion of the caller: the subscription is checked, the
plant and its node are looked up, and the caller's metadata is merged with what the context says.
-/

open Js Js.Json ObjectId Sharing

namespace Plants

structure Publication where
  name : String
  longitude : Number
  latitude : Number
  deriving DecidableEq

/-- A plant as `list` returns it. -/
structure Plant where
  id : String
  revision : Nat
  document : Record Json
  publication : Option Publication

inductive Source where
  | dt | twinscope
  deriving DecidableEq

def Source.name : Source → String
  | .dt => "dt"
  | .twinscope => "twinscope"

structure CreationContext where
  requesterDid : String
  ownerDid : String
  tenantId : Option String
  plantId : String
  nodeId : Option String := none
  source : Source

/-- `fail(code, status)`. -/
def refuse {α : Type} (code : String) (status : Nat := 403) : Except Thrown α :=
  .error (.app { code, message := code, status, category := .AUTHORIZATION })

def record : Option Json → Except Thrown (Record Json)
  | some (.object fields) => .ok fields
  | _ => refuse "TWIN_INPUT_INVALID" 400

/-- `metadata`, with a parser of JSON texts. -/
@[local grind] def metadata (parse : String → Option Json) (v : Option Json) : Except Thrown (Record Json) :=
  if truthy? v then
    match match v with
      | some (.string s) => parse s
      | v => v with
    | some (.object fields) => .ok fields
    | _ => refuse "TWIN_METADATA_INVALID" 400
  else .ok []

/-! ## Nodes of a plant -/

/-- `node.id === context.nodeId`. -/
def hasId (nodeId : Option String) (id : Option Json) : Bool :=
  match nodeId, id with
  | none, none => true
  | some nodeId, some (.string id) => id == nodeId
  | _, _ => false

mutual

/-- `contains`: the node or one below it has the id, and no document stands above it. -/
def contains (nodeId : Option String) : Json → Bool
  | .object fields =>
    !(Record.get? fields "type").any (·.strictEq (.string "document")) &&
      (hasId nodeId (Record.get? fields "id") || containsChildren nodeId fields)
  | v => v.truthy && nodeId.isNone

def containsChildren (nodeId : Option String) : List (String × Json) → Bool
  | [] => false
  | (k, .array items) :: fields =>
    if k = "children" then containsAny nodeId items else containsChildren nodeId fields
  | (k, _) :: fields => if k = "children" then false else containsChildren nodeId fields

def containsAny (nodeId : Option String) : List Json → Bool
  | [] => false
  | v :: items => contains nodeId v || containsAny nodeId items

end

/-- `bindings?.[nodeId]` as a truth value; an object also has what every object inherits. -/
def isBound (bindings : Option Json) (nodeId : Option String) : Bool :=
  let key := nodeId.getD "undefined"
  match bindings with
  | some (.object fields) =>
    if Record.hasOwn fields key then truthy? (Record.get? fields key)
    else inheritedProperties.contains key
  | some (.array items) => isDigits key && truthy? (items[digitsToNat key]?)
  | _ => false

section
variable [Runtime]

/-! ## The subscription -/

/-- `did.split(":").at(-1)`. -/
def lastSegment (did : String) : String :=
  .ofList ((did.toList.reverse.takeWhile (· != ':')).reverse)

/-- `subscription`, on the answer of the adapter, if it has the operation. -/
def subscription (accounting : AccountingContext)
    (answer : Option (Except Thrown SubscriptionStatus)) : Except Thrown Unit :=
  match answer with
  | none => refuse "SUBSCRIPTION_VERIFICATION_UNAVAILABLE" 503
  | some answer => do
    let subscription ← answer
    if toLowerCase subscription.objectId != toLowerCase accounting.subscriptionId ||
        subscription.customerId != accounting.customerId || subscription.ownerControllerId == "" ||
        toLowerCase (lastSegment accounting.ownerDid) !=
          toLowerCase subscription.ownerControllerId then
      refuse "SUBSCRIPTION_OWNER_MISMATCH"
    else if !subscription.current || subscription.remainingTwins < 1 ||
        subscription.remainingCredits < 1 then
      refuse "OBJECTID_SUBSCRIPTION_CAPACITY_EXHAUSTED" 402
    else return ()

/-! ## The input of the Twin -/

/-- `{ ...o, ...entries }`. -/
def assign (o : Record Json) (entries : List (String × Json)) : Record Json :=
  entries.foldl (fun o e => o.set e.1 e.2) o

omit [Runtime] in
theorem get?_assign_of_notMem {entries : List (String × Json)} {k : String}
    (hk : k ∉ entries.map Prod.fst) (o : Record Json) : (assign o entries).get? k = o.get? k := by
  induction entries generalizing o with
  | nil => rfl
  | cons e entries ih =>
      rw [List.map_cons, List.mem_cons, not_or] at hk
      exact (ih hk.2 (o.set e.1 e.2)).trans (by rw [Record.get?_set, if_neg hk.1])

omit [Runtime] in
theorem get?_assign_of_mem {entries : List (String × Json)} {k : String} {v : Json}
    (hnodup : (entries.map Prod.fst).Nodup) (hmem : (k, v) ∈ entries) (o : Record Json) :
    (assign o entries).get? k = some v := by
  induction entries generalizing o with
  | nil => cases hmem
  | cons e entries ih =>
      rw [List.map_cons, List.nodup_cons] at hnodup
      rcases List.mem_cons.mp hmem with rfl | hmem
      · exact (get?_assign_of_notMem hnodup.1 _).trans (by rw [Record.get?_set, if_pos rfl])
      · exact ih hnodup.2 hmem (o.set e.1 e.2)

/-- What the context says of a Twin's origin. -/
def CreationContext.origin (context : CreationContext) : List (String × Json) :=
  [("application_creator_did", .string context.requesterDid), ("owner_did", .string context.ownerDid),
    ("tenant_id", context.tenantId.elim .null .string), ("plant_id", .string context.plantId),
    ("creation_source", .string context.source.name)] ++
  match context.nodeId with
  | none | some "" => []
  | some nodeId => [("nodeId", .string nodeId), ("twinscope_node_id", .string nodeId)]

/-- What a Twin is created with: whether it, its data and its location are public. -/
structure Visibility where
  visibility : String
  dataVisibility : String
  liveLocationVisibility : String

/-- The visibility a caller gets: he may ask for a public one on the personal path. -/
def visibilityFor (context : CreationContext) (body : Record Json) : Visibility :=
  let visibility := if context.source == .dt && isPublic (body.get? "visibility") then "public"
    else "private"
  { visibility
    dataVisibility := if visibility == "public" && isPublic (body.get? "dataVisibility") then "public"
      else "private"
    liveLocationVisibility :=
      if visibility == "public" && isPublic (body.get? "liveLocationVisibility") then "public"
      else "private" }

def Visibility.entries (v : Visibility) : List (String × Json) :=
  [("visibility", .string v.visibility), ("dataVisibility", .string v.dataVisibility),
    ("liveLocationVisibility", .string v.liveLocationVisibility)]

/-- The two metadata objects of a Twin. -/
structure TwinMetadata where
  immutable : Record Json
  mutable_ : Record Json

/-- The metadata `create` makes of the caller's. -/
def twinMetadata (parse : String → Option Json) (body : Record Json) (context : CreationContext) :
    Except Thrown TwinMetadata := do
  let immutable ← metadata parse
    (coalesce (body.get? "immutableMetadata") (body.get? "immutable_metadata"))
  let mutable_ ← metadata parse
    (coalesce (body.get? "mutableMetadata") (body.get? "mutable_metadata"))
  let nested ← metadata parse (mutable_.get? "objectid")
  let objectid := assign nested (visibilityFor context body).entries
  return { immutable := assign immutable context.origin
           mutable_ := mutable_.set "objectid" (.object objectid) }

/-- The input of `createProfiledTwin`. -/
def create (parse : String → Option Json) (body : Record Json) (accounting : AccountingContext)
    (context : CreationContext) : Except Thrown (Record Json) := do
  let m ← twinMetadata parse body context
  let safe := assign body ([("ownerDid", .string context.ownerDid),
    ("requesterDid", .string context.requesterDid),
    ("subscriptionId", .string accounting.subscriptionId), ("plantId", .string context.plantId),
    ("tenantId", context.tenantId.elim .null .string),
    ("immutableMetadata", .string (stringify (.object m.immutable)))] ++
    (visibilityFor context body).entries ++
    [("mutableMetadata", .string (stringify (.object m.mutable_)))])
  return (safe.delete "immutable_metadata").delete "mutable_metadata"

/-! ## The two paths -/

/-- What the two paths find: the accounting of the owner, the answer about his subscription, and the
plants of the scope. -/
structure Surroundings where
  parse : String → Option Json
  accounting : Option AccountingContext
  subscription : Option (Except Thrown SubscriptionStatus)
  plants : Except Thrown (List Plant)

/-- The owner has an account, and a connection is his. -/
def checkAccounting (context : CreationContext) (connection found : Option AccountingContext) :
    Except Thrown AccountingContext :=
  match found with
  | none => refuse "PLANT_OWNER_SUBSCRIPTION_NOT_CONFIGURED" 402
  | some accounting =>
    if connection.any fun c => c.ownerDid != context.ownerDid ||
        c.subscriptionId != accounting.subscriptionId then
      refuse "PLANT_CONNECTION_OWNER_MISMATCH"
    else .ok accounting

/-- The plant is the owner's, and its node is free. -/
def checkPlant (context : CreationContext) (plants : List Plant) : Except Thrown Unit :=
  match plants.find? (·.id == context.plantId) with
  | none => refuse "PLANT_NOT_FOUND" 404
  | some plant =>
    let owner := plant.document.get? "ownerDid"
    if truthy? owner && !owner.any (·.strictEq (.string context.ownerDid)) then
      refuse "PLANT_OWNER_MISMATCH"
    else if !(plant.document.get? "tree").any (contains context.nodeId) then
      refuse "PLANT_NODE_NOT_FOUND" 404
    else if isBound (plant.document.get? "twinIds") context.nodeId then
      refuse "PLANT_NODE_ALREADY_HAS_TWIN" 409
    else .ok ()

/-- The checks of `delegated`. -/
def checkDelegated (w : Surroundings) (context : CreationContext)
    (connection : Option AccountingContext) : Except Thrown AccountingContext := do
  let accounting ← checkAccounting context connection w.accounting
  subscription accounting w.subscription
  let plants ← w.plants
  checkPlant context plants
  return accounting

/-- `delegated`, up to the creation of the Twin. -/
def delegated (w : Surroundings) (input : Option Json) (context : CreationContext)
    (connection : Option AccountingContext) : Except Thrown (Record Json) := do
  let accounting ← checkDelegated w context connection
  let body ← record input
  create w.parse body accounting context

/-- `personal`, up to the creation of the Twin; the default plant is there, or was put when it was
missing. -/
def personal (w : Surroundings) (defaultId : String) (input : Option Json) (subject : Option String)
    (accounting : Option AccountingContext) : Except Thrown (Record Json) :=
  match accounting with
  | none => refuse "PERSONAL_SUBSCRIPTION_OWNER_REQUIRED"
  | some accounting =>
    if subject != some accounting.ownerDid then refuse "PERSONAL_SUBSCRIPTION_OWNER_REQUIRED"
    else do
      subscription accounting w.subscription
      let body ← record input
      let plantId := if truthy? (body.get? "plantId") then body.get? "plantId"
        else some (.string defaultId)
      match plantId with
      | some (.string plantId) =>
        let plants ← w.plants
        match plants.find? (·.id == plantId) with
        | none => refuse "PLANT_OWNER_MISMATCH"
        | some plant =>
          if !(plant.document.get? "ownerDid").any (·.strictEq (.string accounting.ownerDid)) ||
              !(plant.document.get? "tenantId").any (·.strictEq .null) then
            refuse "PLANT_OWNER_MISMATCH"
          else
            create w.parse body accounting {
              requesterDid := accounting.ownerDid, ownerDid := accounting.ownerDid, tenantId := none
              plantId, source := .dt }
      | _ => refuse "PLANT_INPUT_INVALID" 400

end

/-! ## A sample -/

def sampleAccounting : AccountingContext where
  tenantId := "acme"
  customerId := "c1"
  ownerDid := "did:iota:testnet:" ++ objectId '1'
  subscriptionId := objectId '2'

def sampleContext : CreationContext where
  requesterDid := "did:iota:testnet:" ++ objectId '3'
  ownerDid := sampleAccounting.ownerDid
  tenantId := some "acme"
  plantId := "p1"
  nodeId := some "n1"
  source := .twinscope

/-- A plant with one node. -/
def samplePlant : Plant where
  id := "p1"
  revision := 1
  document := [("tree", .object [("id", .string "n1")])]
  publication := none

/-- The account of the sample has a Twin and a credit left. -/
def sampleSubscription : SubscriptionStatus := ⟨objectId '2', "c1", objectId '1', 1, 1, true⟩

theorem lastSegment_append {did id : String} (h : ':' ∉ id.toList) : lastSegment (did ++ ":" ++ id) = id := by
  have htake : ((did ++ ":" ++ id).toList.reverse.takeWhile (· != ':')) = id.toList.reverse := by
    rw [String.toList_append, String.toList_append, List.reverse_append, List.reverse_append]
    have hall : ∀ c ∈ id.toList.reverse, (c != ':') = true := by
      intro c hc
      have hne : c ≠ ':' := fun heq => h (heq ▸ List.mem_reverse.mp hc)
      simpa using hne
    rw [List.takeWhile_append_of_pos hall]
    simp
  rw [lastSegment, htake, List.reverse_reverse, String.ofList_toList]


/-- An active subscription of the account with something left is accepted. -/
theorem subscription_active [Runtime] {a : AccountingContext} {status : SubscriptionStatus}
    (hid : status.objectId = a.subscriptionId) (hcustomer : status.customerId = a.customerId)
    (howner : lastSegment a.ownerDid = status.ownerControllerId) (hne : status.ownerControllerId ≠ "")
    (hcurrent : status.current) (htwins : ¬ status.remainingTwins < 1) (hcredits : ¬ status.remainingCredits < 1) :
    subscription a (some (.ok status)) = .ok () := by
  simp [subscription, hid, hcustomer, howner, hne, hcurrent, htwins, hcredits, bind, Except.bind, pure, Except.pure]

/-- A request that passes all checks is created with what its body says. -/
theorem delegated_of_checks [Runtime] {w : Surroundings} {input : Option Json} {context : CreationContext}
    {connection : Option AccountingContext} {a : AccountingContext} {plants : List Plant} {body : Record Json}
    (haccounting : checkAccounting context connection w.accounting = .ok a)
    (hsubscription : subscription a w.subscription = .ok ()) (hplants : w.plants = .ok plants)
    (hplant : checkPlant context plants = .ok ()) (hbody : record input = .ok body) :
    delegated w input context connection = create w.parse body a context := by
  simp [delegated, checkDelegated, haccounting, hsubscription, hplants, hplant, hbody, bind, Except.bind, pure,
    Except.pure]

theorem subscription_sample [Runtime] : subscription sampleAccounting (some (.ok sampleSubscription)) = .ok () := by
  have hcolon : ':' ∉ (objectId '1').toList := by
    simp only [objectId, String.toList_append, String.toList_ofList, String.reduceToList]
    simp
  have howner : sampleAccounting.ownerDid = "did:iota:testnet" ++ ":" ++ objectId '1' := by
    apply String.toList_inj.mp
    simp [sampleAccounting]
  refine subscription_active rfl rfl ?_ (by simp [sampleSubscription, objectId]) rfl (by decide) (by decide)
  rw [howner, lastSegment_append hcolon]
  rfl

theorem checkPlant_sample : checkPlant sampleContext [samplePlant] = .ok () := rfl

end Plants
