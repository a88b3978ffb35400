-- SUMMARY: Runs of Twin credential rotations and revocations, and when every broker user belongs to one Twin.
import TwinServer.Security.Tenants
import TwinServer.Sharing.Policy

/-!
# Device credentials

The two requests of `/internal/twin-credentials` that change credentials, and their
runs. The broker user of a Twin is named after the tenant and the first digits of the
Twin id, and both broker files are keyed by that name alone. Where no two Twins of a
run share a name, each user stays with one Twin; a name that two Twins share gives
each of them the topics of the other.
-/

open Js

namespace Security

/-! ## Requests -/

inductive RequestKind where
  | rotate (password : String)
  | revoke
  deriving DecidableEq

/-- A request, with the time it is served, what the ledger says of the subscription
and of the Twin, and how many broker updates succeed before one fails. -/
structure Request where
  kind : RequestKind
  ownerDid : String
  twinId : String
  now : Int
  subscribed : Bool
  owned : Bool
  brokerUpdates : Nat

structure Api where
  network : String
  provisioning : Provisioning
  /-- the accounting of the static tenants -/
  static : List AccountingContext

structure CredentialState where
  file : List TenantDefinition
  broker : Broker
  deriving DecidableEq

/-- `tenantId.replace(/[^a-z0-9_-]/gi, "_")`, code unit by code unit. -/
def sanitize (tenantId : String) : String :=
  .ofList (tenantId.toList.flatMap fun c =>
    if c.isAlphanum || c == '_' || c == '-' then [c] else List.replicate (utf16Width c) '_')

/-- `twinId.slice(2, 10)`. -/
def twinDigits (twinId : String) : String := .ofList ((twinId.toList.drop 2).take 8)

def mqttUsername (network tenantId twinId : String) : String :=
  "oid_device_" ++ network ++ "_" ++ sanitize tenantId ++ "_" ++ twinDigits twinId

/-- The tenants by id, the dynamic ones over the static ones. -/
def definitions (static dynamic : List AccountingContext) : List AccountingContext :=
  ((static ++ dynamic).foldl (fun (o : Record AccountingContext) t => o.set t.tenantId t) []).map
    Prod.snd

def ownerDidInvalid (network : String) : AppError :=
  { code := "OBJECTID_OWNER_DID_INVALID", message := "A valid " ++ network ++ " owner DID is required",
    status := 422, category := .VALIDATION }

def twinIdInvalid : AppError :=
  { code := "OBJECTID_TWIN_ID_INVALID", message := "A valid 32-byte Twin object ID is required",
    status := 422, category := .VALIDATION }

def subscriptionUnknown : AppError :=
  { code := "AUTH_TENANT_UNKNOWN", message := "A registered on-chain subscription is required",
    status := 404, category := .AUTHORIZATION }

def subscriptionInactive : AppError :=
  { code := "OBJECTID_SUBSCRIPTION_INACTIVE", message := "The on-chain subscription is not active",
    status := 402, category := .AUTHORIZATION }

def twinMismatch (tenantId twinId : String) : AppError :=
  { code := "OBJECTID_TENANT_TWIN_MISMATCH",
    message := "The authenticated tenant cannot access this Twin", status := 403,
    category := .AUTHORIZATION, details := [("tenantId", .string tenantId), ("twinId", .string twinId)] }

section
variable [Runtime]

/-- The owner a request is for. -/
def Request.owner (r : Request) : String := toLowerCase r.ownerDid

/-- The Twin a request is for. -/
def Request.twin (r : Request) : String := toLowerCase r.twinId

def findByOwnerDid (static : List AccountingContext) (file : List TenantDefinition)
    (ownerDid : String) : Option AccountingContext :=
  (definitions static (file.map (·.toAccountingContext))).find? fun t =>
    toLowerCase t.ownerDid == toLowerCase ownerDid

/-- The checks of a request, and the operation it comes to. -/
@[local grind] def Api.plan (api : Api) (file : List TenantDefinition) (r : Request) :
    Except AppError Operation :=
  if !Sharing.isDid r.owner api.network then .error (ownerDidInvalid api.network)
  else if !Sharing.isObjectId r.twin then .error twinIdInvalid
  else
    match findByOwnerDid api.static file r.owner, file.any (·.ownedBy r.owner), r.kind with
    | some accounting, true, .rotate password =>
      if !r.subscribed then .error subscriptionInactive
      else if !r.owned then .error (twinMismatch accounting.tenantId r.twin)
      else .ok (.rotateTwin r.owner r.twin (mqttUsername api.network accounting.tenantId r.twin)
        password false)
    | some accounting, true, .revoke =>
      if !r.owned then .error (twinMismatch accounting.tenantId r.twin)
      else .ok (.revokeTwin r.owner r.twin)
    | _, _, _ => .error subscriptionUnknown

/-- A request served to its end. -/
@[local grind] def Api.serve (api : Api) (s : CredentialState) (r : Request) : CredentialState :=
  match api.plan s.file r with
  | .error _ => s
  | .ok op =>
    match op.edit id s.file r.now with
    | .error _ => s
    | .ok e =>
      { file := e.tenants
        broker := (e.actions.take r.brokerUpdates).foldl (·.apply api.provisioning) s.broker }

def Api.run (api : Api) (s : CredentialState) (requests : List Request) : CredentialState :=
  requests.foldl api.serve s

/-! ## The condition -/

/-- A broker user that is not a Twin's: the service, or the user of a whole tenant. -/
def Reserved (api : Api) (file : List TenantDefinition) (user : String) : Prop :=
  user = api.provisioning.serviceUsername ∨ ∃ t ∈ file, t.mqttUsername = some user

/-- No two rotations that share a user name are for different Twins or owners: their
tenant ids differ after the replacement of special characters, or their Twin ids differ
in the first eight digits. And no name of a Twin is reserved. -/
structure NamesApart (api : Api) (file : List TenantDefinition) (requests : List Request) :
    Prop where
  apart : ∀ r ∈ requests, ∀ r' ∈ requests, r.kind ≠ .revoke → r'.kind ≠ .revoke →
    ∀ a, findByOwnerDid api.static file r.owner = some a →
    ∀ a', findByOwnerDid api.static file r'.owner = some a' →
    sanitize a.tenantId = sanitize a'.tenantId → twinDigits r.twin = twinDigits r'.twin →
    toLowerCase r.owner = toLowerCase r'.owner ∧ r.twin = r'.twin
  unreserved : ∀ r ∈ requests, ∀ a, findByOwnerDid api.static file r.owner = some a →
    ¬ Reserved api file (mqttUsername api.network a.tenantId r.twin)

/-! ## Names -/

omit [Runtime] in
theorem length_twinDigits {twinId : String} (h : Sharing.isObjectId twinId) :
    (twinDigits twinId).toList.length = 8 := by
  simp only [Sharing.isObjectId] at h
  split at h
  case h_1 rest hlist =>
    simp only [Bool.and_eq_true, beq_iff_eq] at h
    rw [twinDigits, String.toList_ofList, hlist, List.length_take, List.drop_succ_cons, List.drop_succ_cons,
      List.drop_zero, h.1]
    rfl
  case h_2 => cases h

omit [Runtime] in
theorem toList_mqttUsername (network tenantId twinId : String) : (mqttUsername network tenantId twinId).toList =
    "oid_device_".toList ++ network.toList ++ "_".toList ++ (sanitize tenantId).toList ++ "_".toList ++
      (twinDigits twinId).toList := by
  have heq : mqttUsername network tenantId twinId =
      "oid_device_" ++ network ++ "_" ++ sanitize tenantId ++ "_" ++ twinDigits twinId := rfl
  rw [heq]
  simp only [String.toList_append]

omit [Runtime] in
/-- The name of a user determines the characters it was made from. -/
theorem mqttUsername_inj {network tenantId tenantId' twinId twinId' : String}
    (htwin : Sharing.isObjectId twinId) (htwin' : Sharing.isObjectId twinId')
    (h : mqttUsername network tenantId twinId = mqttUsername network tenantId' twinId') :
    sanitize tenantId = sanitize tenantId' ∧ twinDigits twinId = twinDigits twinId' := by
  have hlist := congrArg String.toList h
  rw [toList_mqttUsername, toList_mqttUsername] at hlist
  have hlength : (twinDigits twinId).toList.length = (twinDigits twinId').toList.length := by
    rw [length_twinDigits htwin, length_twinDigits htwin']
  obtain ⟨hfront, hdigits⟩ := List.append_inj' hlist hlength
  obtain ⟨hfront, -⟩ := List.append_inj' hfront rfl
  exact ⟨String.toList_inj.mp (List.append_cancel_left hfront), String.toList_inj.mp hdigits⟩

/-- An object id has no character that lower-casing changes. -/
theorem toLowerCase_objectId {s : String} (h : Sharing.isObjectId s) : toLowerCase s = s :=
  Sharing.toLowerCase_of_ascii (Sharing.ascii_of_isObjectId h)

omit [Runtime] in
/-- An object id is one level of a topic. -/
theorem slash_notMem_objectId {s : String} (h : Sharing.isObjectId s) : '/' ∉ s.toList := by
  simp only [Sharing.isObjectId] at h
  split at h
  case h_1 rest hlist =>
    simp only [Bool.and_eq_true, List.all_eq_true] at h
    rw [hlist]
    intro hmem
    rcases List.mem_cons.mp hmem with hc | hmem
    · exact absurd hc (by simp)
    rcases List.mem_cons.mp hmem with hc | hmem
    · exact absurd hc (by simp)
    exact absurd (h.2 _ hmem) (by decide)
  case h_2 => cases h

/-! ## Plans and edits -/

variable {api : Api} {file₀ : List TenantDefinition} {s : CredentialState} {r : Request}

theorem findByOwnerDid_congr {static : List AccountingContext} {file : List TenantDefinition}
    {a b : String} (h : toLowerCase a = toLowerCase b) :
    findByOwnerDid static file a = findByOwnerDid static file b := by
  simp only [findByOwnerDid, h]

/-- The operations requests come to. -/
theorem plan_cases {op : Operation} (h : api.plan s.file r = .ok op) :
    Sharing.isObjectId r.twin ∧ ∃ a, findByOwnerDid api.static s.file r.owner = some a ∧
      ((∃ password, r.kind = .rotate password ∧ op = .rotateTwin r.owner r.twin
          (mqttUsername api.network a.tenantId r.twin) password false) ∨
        (r.kind = .revoke ∧ op = .revokeTwin r.owner r.twin)) := by
  simp only [Api.plan] at h
  split at h
  · cases h
  split at h
  · cases h
  case isFalse htwin =>
    have htwin' : Sharing.isObjectId r.twin := by simpa using htwin
    refine ⟨htwin', ?_⟩
    split at h
    case h_1 a password ha howned hkind =>
      split at h
      · cases h
      split at h
      · cases h
      · exact ⟨a, ha, .inl ⟨password, hkind, (Except.ok.inj h).symm⟩⟩
    case h_2 a ha howned hkind =>
      split at h
      · cases h
      · exact ⟨a, ha, .inr ⟨hkind, (Except.ok.inj h).symm⟩⟩
    case h_3 => cases h

end

/-! ## The access list, user by user -/

/-- The lines between two `user` lines. -/
def AclLine.isUser : AclLine → Bool
  | .user _ => true
  | _ => false

theorem mem_topicsOf_append {user : String} {current : Bool} {body rest : List AclLine}
    (hbody : ∀ l ∈ body, l.isUser = false) {line : Access × String}
    (h : line ∈ topicsOf user current (body ++ rest)) :
    (current = true ∧ .topic line.1 line.2 ∈ body) ∨ line ∈ topicsOf user current rest := by
  induction body with
  | nil => exact .inr h
  | cons l body ih =>
      have hbody' : ∀ l ∈ body, l.isUser = false := fun l hl => hbody l (List.mem_cons_of_mem _ hl)
      cases l with
      | user name => cases hbody (.user name) List.mem_cons_self
      | blank =>
        have h' : line ∈ topicsOf user current (body ++ rest) := by cases current <;> exact h
        exact (ih hbody' h').imp (fun hb => ⟨hb.1, List.mem_cons_of_mem _ hb.2⟩) id
      | topic access filter =>
        cases current with
        | false => exact (ih hbody' h).imp (fun hb => ⟨hb.1, List.mem_cons_of_mem _ hb.2⟩) id
        | true =>
          rcases List.mem_cons.mp h with rfl | h
          · exact .inl ⟨rfl, List.mem_cons_self⟩
          · exact (ih hbody' h).imp (fun hb => ⟨hb.1, List.mem_cons_of_mem _ hb.2⟩) id

/-- A topic line stands under a user only in a block of that user. -/
theorem mem_topicsOf_flatten {user : String} {blocks : List (List AclLine)}
    (hblocks : ∀ b ∈ blocks, b = [] ∨ ∃ name body, b = .user name :: body ∧
      ∀ l ∈ body, l.isUser = false) {line : Access × String} :
    ∀ {current : Bool}, line ∈ topicsOf user current blocks.flatten →
      ∃ body, .user user :: body ∈ blocks ∧ .topic line.1 line.2 ∈ body := by
  induction blocks with
  | nil => intro current h; cases current <;> cases h
  | cons b blocks ih =>
      intro current h
      have hrest : ∀ {current : Bool}, line ∈ topicsOf user current blocks.flatten →
          ∃ body, .user user :: body ∈ b :: blocks ∧ .topic line.1 line.2 ∈ body := by
        intro current h
        obtain ⟨body, hbody, hline⟩ := ih (fun b hb => hblocks b (List.mem_cons_of_mem _ hb)) h
        exact ⟨body, List.mem_cons_of_mem _ hbody, hline⟩
      rw [List.flatten_cons] at h
      rcases hblocks b List.mem_cons_self with rfl | ⟨name, body, rfl, hbody⟩
      · exact hrest h
      · rw [List.cons_append, topicsOf] at h
        rcases mem_topicsOf_append hbody h with ⟨hname, hline⟩ | h
        · rw [beq_iff_eq] at hname
          subst hname
          exact ⟨body, List.mem_cons_self, hline⟩
        · exact hrest h

theorem twinTopics_isUser {p : Provisioning} {tenantId twinId : String} {l : AclLine}
    (h : l ∈ twinTopics p tenantId twinId) : l.isUser = false := by
  simp only [twinTopics, List.mem_cons, List.not_mem_nil, or_false] at h
  rcases h with rfl | rfl | rfl | rfl <;> rfl

/-- Where no device is a bootstrap device, a user other than the service and the users of
whole tenants has the topics of a Twin whose credential carries it. -/
theorem mem_topicsOf_aclLines {p : Provisioning} {tenants : List TenantDefinition}
    (hbootstrap : ∀ t ∈ tenants, ∀ c ∈ t.devices, c.bootstrap = false) {user : String}
    (huser : user ≠ p.serviceUsername) (hexternal : ∀ t ∈ tenants, t.mqttUsername ≠ some user)
    {line : Access × String} (h : line ∈ topicsOf user false (aclLines p tenants)) :
    ∃ t ∈ tenants, ∃ c ∈ t.devices, c.username = user ∧
      .topic line.1 line.2 ∈ twinTopics p t.tenantId c.twinId := by
  have hblank : ∀ {lines : List AclLine}, (∀ l ∈ lines, l.isUser = false) →
      ∀ l ∈ lines ++ [.blank], l.isUser = false := by
    intro lines hlines l hl
    rcases List.mem_append.mp hl with hl | hl
    · exact hlines l hl
    · obtain rfl := List.mem_singleton.mp hl
      rfl
  have htenant : ∀ t ∈ tenants, tenantLines p t = [] ∨ ∃ name body,
      tenantLines p t = .user name :: body ∧ t.mqttUsername = some name ∧
        ∀ l ∈ body, l.isUser = false := by
    intro t ht
    simp only [tenantLines]
    split
    case h_1 name hash hname hhash hrevoked =>
      refine .inr ⟨name, _, rfl, (Option.filter_eq_some_iff.mp hname).1, hblank ?_⟩
      intro l hl
      obtain ⟨twinId, -, hl⟩ := List.mem_flatMap.mp hl
      exact twinTopics_isUser hl
    case h_2 => exact .inl rfl
  have hdevice : ∀ t ∈ tenants, ∀ c ∈ t.devices, deviceLines p t.tenantId c = [] ∨
      deviceLines p t.tenantId c =
        .user c.username :: (twinTopics p t.tenantId c.twinId ++ [.blank]) := by
    intro t ht c hc
    simp only [deviceLines, hbootstrap t ht c hc, Bool.false_eq_true, if_false]
    split
    · exact .inl rfl
    · exact .inr rfl
  -- the service block, a block for each tenant, and one for each device
  let blocks : List (List AclLine) :=
    [.user p.serviceUsername, .topic .readwrite "#", .topic .read "$SYS/#", .blank] ::
      (tenants.map (tenantLines p) ++
        tenants.flatMap fun t => t.devices.map (deviceLines p t.tenantId))
  have hflat : aclLines p tenants = blocks.flatten := by
    simp only [blocks, aclLines, List.flatten_cons, List.flatten_append, List.flatMap,
      List.flatten_flatten, List.map_map, List.append_assoc]
    rfl
  have hblocks : ∀ b ∈ blocks,
      b = [] ∨ ∃ name body, b = AclLine.user name :: body ∧ ∀ l ∈ body, l.isUser = false := by
    intro b hb
    rcases List.mem_cons.mp hb with rfl | hb
    · exact .inr ⟨_, _, rfl, by simp [AclLine.isUser]⟩
    rcases List.mem_append.mp hb with hb | hb
    · obtain ⟨t, ht, rfl⟩ := List.mem_map.mp hb
      rcases htenant t ht with hnil | ⟨name, body, hlist, -, hbody⟩
      · exact .inl hnil
      · exact .inr ⟨name, body, hlist, hbody⟩
    · obtain ⟨t, ht, hb⟩ := List.mem_flatMap.mp hb
      obtain ⟨c, hc, rfl⟩ := List.mem_map.mp hb
      rcases hdevice t ht c hc with hnil | hlist
      · exact .inl hnil
      · exact .inr ⟨_, _, hlist, hblank fun l hl => twinTopics_isUser hl⟩
  rw [hflat] at h
  obtain ⟨body, hblock, hline⟩ := mem_topicsOf_flatten hblocks h
  rcases List.mem_cons.mp hblock with hservice | hblock
  · exact absurd (AclLine.user.inj (List.cons.inj hservice).1) huser
  rcases List.mem_append.mp hblock with hblock | hblock
  · obtain ⟨t, ht, hlines⟩ := List.mem_map.mp hblock
    rcases htenant t ht with hnil | ⟨name, body', hlist, hname, -⟩
    · rw [hnil] at hlines
      cases hlines
    · rw [hlist] at hlines
      obtain rfl := AclLine.user.inj (List.cons.inj hlines).1
      exact absurd hname (hexternal t ht)
  · obtain ⟨t, ht, hblock⟩ := List.mem_flatMap.mp hblock
    obtain ⟨c, hc, hlines⟩ := List.mem_map.mp hblock
    rcases hdevice t ht c hc with hnil | hlist
    · rw [hnil] at hlines
      cases hlines
    · rw [hlist] at hlines
      obtain ⟨hname, hbody⟩ := List.cons.inj hlines
      subst hbody
      refine ⟨t, ht, c, hc, AclLine.user.inj hname, ?_⟩
      rcases List.mem_append.mp hline with hline | hline
      · exact hline
      · cases List.mem_singleton.mp hline

/-- Every topic that matches a filter of a Twin has the Twin id as a level. -/
theorem level_of_twinTopics {p : Provisioning} {tenantId twinId filter topic : String}
    {access : Access} (htwin : Sharing.isObjectId twinId)
    (hline : .topic access filter ∈ twinTopics p tenantId twinId)
    (hmatch : Mqtt.filterMatches filter topic) : twinId ∈ Mqtt.levels topic := by
  have hplus : twinId ≠ "+" := by
    rintro rfl
    exact absurd htwin (by decide)
  have hlevels : ∀ a b : String, Mqtt.levels (a ++ "/" ++ twinId ++ "/" ++ b) =
      Mqtt.levels a ++ [twinId] ++ Mqtt.levels b := by
    intro a b
    rw [Mqtt.levels_append, Mqtt.levels_append,
      Mqtt.levels_of_not_mem (slash_notMem_objectId htwin)]
  have hfilter : ∃ a b, filter = a ++ "/" ++ twinId ++ "/" ++ b ∧
      (Mqtt.levels b).getLast? ≠ some "#" ∧ Mqtt.levels b ≠ [] := by
    simp only [twinTopics, List.mem_cons, List.not_mem_nil, or_false, AclLine.topic.injEq] at hline
    rcases hline with ⟨-, rfl⟩ | ⟨-, rfl⟩ | ⟨-, rfl⟩ | ⟨-, rfl⟩
    · exact ⟨p.telemetryPrefix ++ "/" ++ tenantId ++ "/twins", "telemetry/state", by
        simp [String.append_assoc], by decide, by decide⟩
    · exact ⟨p.telemetryPrefix ++ "/" ++ tenantId ++ "/twins", "telemetry/dataset", by
        simp [String.append_assoc], by decide, by decide⟩
    · exact ⟨p.commandPrefix ++ "/twins", "commands/request", by
        simp [String.append_assoc], by decide, by decide⟩
    · exact ⟨p.commandPrefix ++ "/twins", "commands/+/result", by
        simp [String.append_assoc], by decide, by decide⟩
  obtain ⟨a, b, rfl, hlast, hne⟩ := hfilter
  simp only [Mqtt.filterMatches, Bool.and_eq_true] at hmatch
  refine Mqtt.mem_of_filterLevels hmatch.1 ?_ ?_ hplus
  · rw [hlevels, List.getLast?_append_of_ne_nil _ hne]
    exact hlast
  · rw [hlevels]
    simp

/-! ## What a request changes -/

/-- The user whose password an action sets or deletes. -/
def BrokerAction.user? : BrokerAction → Option String
  | .delete username | .upsert username _ => some username
  | .rewriteAcl _ => none

theorem passwords_apply {p : Provisioning} {name : String} {action : BrokerAction}
    (h : action.user? ≠ some name) (b : Broker) :
    (b.apply p action).passwords.get? name = b.passwords.get? name := by
  cases action with
  | delete username =>
    have hne : ¬ name = username := fun heq => h (congrArg some heq.symm)
    simp only [Broker.apply]
    split
    · rw [Record.get?_delete, if_neg hne]
    · rfl
  | upsert username password =>
    have hne : ¬ name = username := fun heq => h (congrArg some heq.symm)
    simp only [Broker.apply]
    split
    · rw [Record.get?_set, if_neg hne]
    · rfl
  | rewriteAcl tenants =>
    simp only [Broker.apply]
    split <;> rfl

theorem passwords_foldl {p : Provisioning} {name : String} {actions : List BrokerAction}
    (h : ∀ action ∈ actions, action.user? ≠ some name) (b : Broker) :
    (actions.foldl (·.apply p) b).passwords.get? name = b.passwords.get? name := by
  induction actions generalizing b with
  | nil => rfl
  | cons action actions ih =>
      rw [List.foldl_cons, ih (fun a ha => h a (List.mem_cons_of_mem _ ha)),
        passwords_apply (h action List.mem_cons_self)]

/-- The access list is the old one, or the one generated by an action. -/
theorem acl_foldl (p : Provisioning) (actions : List BrokerAction) (b : Broker) :
    (actions.foldl (·.apply p) b).acl = b.acl ∨
      ∃ tenants, BrokerAction.rewriteAcl tenants ∈ actions ∧
        (actions.foldl (·.apply p) b).acl = aclLines p tenants := by
  induction actions generalizing b with
  | nil => exact .inl rfl
  | cons action actions ih =>
      rw [List.foldl_cons]
      rcases ih (b.apply p action) with hacl | ⟨tenants, hmem, hacl⟩
      · rw [hacl]
        cases action with
        | delete username => left; simp only [Broker.apply]; split <;> rfl
        | upsert username password => left; simp only [Broker.apply]; split <;> rfl
        | rewriteAcl tenants =>
          simp only [Broker.apply]
          split
          · exact .inr ⟨tenants, List.mem_cons_self, rfl⟩
          · exact .inl rfl
      · exact .inr ⟨tenants, List.mem_cons_of_mem _ hmem, hacl⟩

section
variable [Runtime] {api : Api} {file₀ : List TenantDefinition} {s : CredentialState}
  {r : Request} {requests : List Request}

/-- A request that takes effect replaces the devices of one entry of its owner. The
name is the one the request gives its Twin. -/
structure Change (api : Api) (s : CredentialState) (r : Request) (index : Nat)
    (t : TenantDefinition) (next : TenantDefinition → TenantDefinition)
    (actions : List BrokerAction) (name : String) : Prop where
  entry : s.file[index]? = some t
  owned : t.ownedBy r.owner
  twin : Sharing.isObjectId r.twin
  named : ∃ a, findByOwnerDid api.static s.file r.owner = some a ∧
    name = mqttUsername api.network a.tenantId r.twin
  file : (api.serve s r).file = s.file.modify index next
  broker : (api.serve s r).broker =
    ((actions ++ [BrokerAction.rewriteAcl (api.serve s r).file]).take r.brokerUpdates).foldl
      (·.apply api.provisioning) s.broker
  accounting : ∀ t, (next t).toAccountingContext = t.toAccountingContext
  external : ∀ t, (next t).mqttUsername = t.mqttUsername
  devices : ∀ c ∈ (next t).devices, (∃ c₀ ∈ t.devices, c.twinId = c₀.twinId ∧
    c.username = c₀.username ∧ c.bootstrap = c₀.bootstrap) ∨
      (r.kind ≠ .revoke ∧ c.twinId = r.twin ∧ c.username = name ∧ c.bootstrap = false)
  kept : ∀ c ∈ t.devices, ∃ c' ∈ (next t).devices, (c'.twinId = c.twinId ∧
    c'.username = c.username) ∨
      (r.kind ≠ .revoke ∧ c.ofTwin r.twin ∧ c'.twinId = r.twin ∧ c'.username = name)
  touched : ∀ action ∈ actions, ∃ user, action.user? = some user ∧
    ((∃ c ∈ t.devices, c.ofTwin r.twin ∧ c.username = user) ∨ (r.kind ≠ .revoke ∧ user = name))

theorem user?_of_deleteUser {t : TenantDefinition} {twin : String} {p : String → Bool}
    {action : BrokerAction} (h : action ∈ t.deleteUser twin p) :
    ∃ user, action.user? = some user ∧ ∃ c ∈ t.devices, c.ofTwin twin ∧ c.username = user := by
  simp only [TenantDefinition.deleteUser, Option.mem_toList, Option.map_eq_some_iff,
    Option.filter_eq_some_iff] at h
  obtain ⟨name, ⟨⟨c, hc, rfl⟩, -⟩, rfl⟩ := h
  have hof := List.find?_some hc
  exact ⟨c.username, rfl, c, List.mem_of_find?_eq_some hc, hof, rfl⟩

theorem serve_cases (api : Api) (s : CredentialState) (r : Request) :
    api.serve s r = s ∨ ∃ index t next actions name, Change api s r index t next actions name := by
  cases hplan : api.plan s.file r with
  | error e => left; simp only [Api.serve, hplan]
  | ok op =>
    cases hedit : op.edit id s.file r.now with
    | error e => left; simp only [Api.serve, hplan, hedit]
    | ok e =>
      right
      have hserve : api.serve s r = { file := e.tenants, broker :=
          (e.actions.take r.brokerUpdates).foldl (·.apply api.provisioning) s.broker } := by
        simp only [Api.serve, hplan, hedit]
      obtain ⟨htwin, a, ha, hop⟩ := plan_cases hplan
      have hlower : toLowerCase r.twin = r.twin := toLowerCase_objectId htwin
      rcases hop with ⟨password, hkind, rfl⟩ | ⟨hkind, rfl⟩
      · obtain ⟨index, t, ht, howned, htenants, hactions⟩ := editOwner_eq_ok hedit
        have hrotate : r.kind ≠ .revoke := by
          rw [hkind]
          intro h
          cases h
        let name := mqttUsername api.network a.tenantId r.twin
        refine ⟨index, t, (·.rotateDevice r.twin name false r.now),
          t.deleteUser r.twin (fun old => old != "" && old != name) ++ [.upsert name password], name,
          ht, howned, htwin, ⟨a, ha, rfl⟩, by rw [hserve]; exact htenants,
          by rw [hserve, hactions], fun _ => rfl, fun _ => rfl, ?_, ?_, ?_⟩
        · intro c hc
          rcases List.mem_append.mp hc with hc | hc
          · exact .inl ⟨c, List.mem_of_mem_filter hc, rfl, rfl, rfl⟩
          · obtain rfl := List.mem_singleton.mp hc
            exact .inr ⟨hrotate, hlower, rfl, rfl⟩
        · intro c hc
          cases hof : c.ofTwin r.twin with
          | false =>
            refine ⟨c, List.mem_append_left _ (List.mem_filter.mpr ⟨hc, ?_⟩), .inl ⟨rfl, rfl⟩⟩
            rw [hof, Bool.not_false]
          | true =>
            exact ⟨_, List.mem_append_right _ (List.mem_singleton_self _),
              .inr ⟨hrotate, rfl, hlower, rfl⟩⟩
        · intro action haction
          rcases List.mem_append.mp haction with haction | haction
          · obtain ⟨user, huser, hof⟩ := user?_of_deleteUser haction
            exact ⟨user, huser, .inl hof⟩
          · obtain rfl := List.mem_singleton.mp haction
            exact ⟨name, rfl, .inr ⟨hrotate, rfl⟩⟩
      · obtain ⟨index, t, ht, howned, htenants, hactions⟩ := editOwner_eq_ok hedit
        refine ⟨index, t, (·.revokeDevice r.twin r.now), t.deleteUser r.twin (· != ""),
          mqttUsername api.network a.tenantId r.twin, ht, howned, htwin, ⟨a, ha, rfl⟩,
          by rw [hserve]; exact htenants, by rw [hserve, hactions], fun _ => rfl, fun _ => rfl,
          ?_, ?_, ?_⟩
        · intro c hc
          obtain ⟨c₀, hc₀, rfl⟩ := List.mem_map.mp hc
          refine .inl ⟨c₀, hc₀, ?_⟩
          split <;> exact ⟨rfl, rfl, rfl⟩
        · intro c hc
          refine ⟨_, List.mem_map_of_mem hc, .inl ?_⟩
          split <;> exact ⟨rfl, rfl⟩
        · intro action haction
          obtain ⟨user, huser, hof⟩ := user?_of_deleteUser haction
          exact ⟨user, huser, .inl hof⟩

/-! ## The invariant of a run -/

/-- A rotation of the run has issued the credential of an entry. -/
def Issued (api : Api) (file₀ : List TenantDefinition) (requests : List Request)
    (t : TenantDefinition) (c : TwinDeviceCredential) : Prop :=
  c.bootstrap = false ∧ ∃ r ∈ requests, r.kind ≠ .revoke ∧ Sharing.isObjectId r.twin ∧
    t.ownedBy r.owner ∧ c.twinId = r.twin ∧
    ∃ a, findByOwnerDid api.static file₀ r.owner = some a ∧
      c.username = mqttUsername api.network a.tenantId r.twin

/-- The broker lets a user that is not reserved do what it lets a Twin do whose
credential carries the user. -/
structure Isolated (api : Api) (file₀ : List TenantDefinition) (requests : List Request)
    (s : CredentialState) : Prop where
  accounting : s.file.map (·.toAccountingContext) = file₀.map (·.toAccountingContext)
  external : s.file.map (·.mqttUsername) = file₀.map (·.mqttUsername)
  issued : ∀ t ∈ s.file, ∀ c ∈ t.devices, Issued api file₀ requests t c
  acl : ∀ user, ¬ Reserved api file₀ user →
    ∀ line ∈ topicsOf user false s.broker.acl, ∃ t ∈ s.file, ∃ c ∈ t.devices, c.username = user ∧
      .topic line.1 line.2 ∈ twinTopics api.provisioning t.tenantId c.twinId

theorem Issued.mono {requests' : List Request} {t : TenantDefinition} {c : TwinDeviceCredential}
    (h : Issued api file₀ requests t c) (hsub : requests ⊆ requests') :
    Issued api file₀ requests' t c := by
  obtain ⟨hbootstrap, r, hr, hrest⟩ := h
  exact ⟨hbootstrap, r, hsub hr, hrest⟩

/-- The credentials of one entry for one Twin carry the same name. -/
theorem Issued.username_eq {t : TenantDefinition} {c : TwinDeviceCredential}
    (h : Issued api file₀ requests t c) {a : AccountingContext} (howned : t.ownedBy r.owner)
    (ha : findByOwnerDid api.static file₀ r.owner = some a) (htwin : c.twinId = r.twin) :
    c.username = mqttUsername api.network a.tenantId r.twin := by
  obtain ⟨-, r', -, -, -, howned', htwin', a', ha', hname⟩ := h
  have howner : toLowerCase r'.owner = toLowerCase r.owner := by
    simp only [TenantDefinition.ownedBy, beq_iff_eq] at howned howned'
    exact howned'.symm.trans howned
  rw [findByOwnerDid_congr howner, ha] at ha'
  obtain rfl := Option.some.inj ha'
  rw [hname, ← htwin', htwin]

theorem Issued.eq_of_ofTwin {t : TenantDefinition} {c : TwinDeviceCredential}
    (h : Issued api file₀ requests t c) {twin : String} (hof : c.ofTwin twin)
    (htwin : Sharing.isObjectId twin) : c.twinId = twin := by
  obtain ⟨-, r', -, -, hid, -, htwin', -⟩ := h
  simp only [TwinDeviceCredential.ofTwin, beq_iff_eq, htwin', toLowerCase_objectId hid,
    toLowerCase_objectId htwin] at hof
  rw [htwin', hof]

/-- Where names stand apart, credentials that carry one name belong to one Twin of one
owner. -/
theorem Issued.twin_eq (hnames : NamesApart api file₀ requests) {t t' : TenantDefinition}
    {c c' : TwinDeviceCredential} (h : Issued api file₀ requests t c)
    (h' : Issued api file₀ requests t' c') (hname : c.username = c'.username) :
    c.twinId = c'.twinId ∧ toLowerCase t.ownerDid = toLowerCase t'.ownerDid := by
  obtain ⟨-, r, hr, hkind, hid, howned, htwin, a, ha, husername⟩ := h
  obtain ⟨-, r', hr', hkind', hid', howned', htwin', a', ha', husername'⟩ := h'
  rw [husername, husername'] at hname
  obtain ⟨htenant, hdigits⟩ := mqttUsername_inj hid hid' hname
  obtain ⟨howner, heq⟩ := hnames.apart r hr r' hr' hkind hkind' a ha a' ha' htenant hdigits
  simp only [TenantDefinition.ownedBy, beq_iff_eq] at howned howned'
  exact ⟨by rw [htwin, htwin', heq], howned.trans (howner.trans howned'.symm)⟩

theorem findByOwnerDid_of_accounting {static : List AccountingContext}
    {file file' : List TenantDefinition}
    (h : file.map (·.toAccountingContext) = file'.map (·.toAccountingContext)) (owner : String) :
    findByOwnerDid static file owner = findByOwnerDid static file' owner := by
  simp only [findByOwnerDid, h]

omit [Runtime] in
/-- What holds of a list of users holds of the entries they are the users of. -/
theorem exists_of_map_eq {file file' : List TenantDefinition}
    (h : file.map (·.mqttUsername) = file'.map (·.mqttUsername)) {t : TenantDefinition}
    (ht : t ∈ file) {user : String} (huser : t.mqttUsername = some user) :
    ∃ t' ∈ file', t'.mqttUsername = some user := by
  have hmem : some user ∈ file.map (·.mqttUsername) := huser ▸ List.mem_map_of_mem ht
  rw [h] at hmem
  exact List.mem_map.mp hmem

omit [Runtime] in
theorem map_modify_of_eq {α β : Type} {f : α → β} {next : α → α} (h : ∀ x, f (next x) = f x)
    (l : List α) (index : Nat) : (l.modify index next).map f = l.map f := by
  refine List.ext_getElem? fun n => ?_
  rw [List.getElem?_map, List.getElem?_map, List.getElem?_modify]
  cases l[n]? with
  | none => rfl
  | some x =>
    simp only [Option.map_eq_map, Option.map_some]
    split <;> simp [h]

theorem Isolated.serve (h : Isolated api file₀ requests s) (r : Request) :
    Isolated api file₀ (requests ++ [r]) (api.serve s r) := by
  have hsub : requests ⊆ requests ++ [r] := List.subset_append_left _ _
  rcases serve_cases api s r with hsame | ⟨index, t, next, actions, name, hchange⟩
  · rw [hsame]
    exact ⟨h.accounting, h.external, fun t ht c hc => (h.issued t ht c hc).mono hsub, h.acl⟩
  have ht : t ∈ s.file := List.mem_of_getElem? hchange.entry
  obtain ⟨a, ha, hname⟩ := hchange.named
  rw [findByOwnerDid_of_accounting h.accounting] at ha
  have hmem : ∀ t' ∈ (api.serve s r).file, t' ∈ s.file ∨ t' = next t := by
    intro t' ht'
    rw [hchange.file] at ht'
    exact mem_modify hchange.entry ht'
  have hexternal : (api.serve s r).file.map (·.mqttUsername) = file₀.map (·.mqttUsername) := by
    rw [hchange.file, map_modify_of_eq hchange.external, h.external]
  have hissued : ∀ t' ∈ (api.serve s r).file, ∀ c ∈ t'.devices,
      Issued api file₀ (requests ++ [r]) t' c := by
    intro t' ht' c hc
    rcases hmem t' ht' with hold | rfl
    · exact (h.issued t' hold c hc).mono hsub
    have howner : (next t).ownerDid = t.ownerDid := by
      rw [hchange.accounting]
    rcases hchange.devices c hc with ⟨c₀, hc₀, htwin, husername, hbootstrap⟩ |
      ⟨hkind, htwin, husername, hbootstrap⟩
    · obtain ⟨hb, r', hr', hk, hid, howned, htwin', hacct⟩ := (h.issued t ht c₀ hc₀).mono hsub
      refine ⟨hbootstrap.trans hb, r', hr', hk, hid, ?_, htwin.trans htwin', ?_⟩
      · simpa only [TenantDefinition.ownedBy, howner] using howned
      · rwa [husername]
    · refine ⟨hbootstrap, r, by simp, hkind, hchange.twin, ?_, htwin, a, ha, ?_⟩
      · simpa only [TenantDefinition.ownedBy, howner] using hchange.owned
      · rw [husername, hname]
  -- a credential of the old file has a successor for the same Twin under the same name
  have hkept : ∀ t' ∈ s.file, ∀ c ∈ t'.devices, ∃ t'' ∈ (api.serve s r).file,
      t''.tenantId = t'.tenantId ∧ ∃ c' ∈ t''.devices, c'.twinId = c.twinId ∧
        c'.username = c.username := by
    intro t' ht' c hc
    obtain ⟨n, hn⟩ := List.mem_iff_getElem?.mp ht'
    have hat : (api.serve s r).file[n]? = some (if index = n then next t' else t') := by
      rw [hchange.file, List.getElem?_modify, hn]
      split <;> rfl
    refine ⟨_, List.mem_of_getElem? hat, ?_⟩
    split
    case isFalse => exact ⟨rfl, c, hc, rfl, rfl⟩
    case isTrue heq =>
      obtain rfl : t = t' := Option.some.inj ((heq ▸ hchange.entry).symm.trans hn)
      refine ⟨by rw [hchange.accounting], ?_⟩
      obtain ⟨c', hc', hsame⟩ := hchange.kept c hc
      rcases hsame with ⟨htwin, husername⟩ | ⟨-, hof, htwin, husername⟩
      · exact ⟨c', hc', htwin, husername⟩
      · have hold := h.issued t ht c hc
        have heq : c.twinId = r.twin := hold.eq_of_ofTwin hof hchange.twin
        refine ⟨c', hc', htwin.trans heq.symm, ?_⟩
        rw [husername, hname, hold.username_eq hchange.owned ha heq]
  refine ⟨?_, hexternal, hissued, ?_⟩
  · rw [hchange.file, map_modify_of_eq hchange.accounting, h.accounting]
  · intro user huser line hline
    rw [hchange.broker] at hline
    rcases acl_foldl api.provisioning
      ((actions ++ [BrokerAction.rewriteAcl (api.serve s r).file]).take r.brokerUpdates) s.broker with
      hacl | ⟨tenants, htenants, hacl⟩
    · rw [hacl] at hline
      obtain ⟨t', ht', c, hc, husername, htopic⟩ := h.acl user huser line hline
      obtain ⟨t'', ht'', htenant, c', hc', htwin, hname'⟩ := hkept t' ht' c hc
      refine ⟨t'', ht'', c', hc', hname'.trans husername, ?_⟩
      rwa [htenant, htwin]
    · rw [hacl] at hline
      have hfile : tenants = (api.serve s r).file := by
        rcases List.mem_append.mp (List.mem_of_mem_take htenants) with hmem' | hmem'
        · obtain ⟨user, huser, -⟩ := hchange.touched _ hmem'
          cases huser
        · exact BrokerAction.rewriteAcl.inj (List.mem_singleton.mp hmem')
      rw [hfile] at hline
      refine mem_topicsOf_aclLines (fun t ht c hc => (hissued t ht c hc).1)
        (fun hservice => huser (.inl hservice)) ?_ hline
      intro t ht hsome
      exact huser (.inr (exists_of_map_eq hexternal ht hsome))

theorem Isolated.run (h : Isolated api file₀ requests s) (later : List Request) :
    Isolated api file₀ (requests ++ later) (api.run s later) := by
  induction later generalizing requests s with
  | nil => rwa [List.append_nil]
  | cons r later ih =>
      rw [List.append_cons]
      exact ih (h.serve r)

/-- A state before the first rotation. -/
structure CredentialState.Fresh (api : Api) (s : CredentialState) : Prop where
  devices : ∀ t ∈ s.file, t.devices = []
  acl : s.broker.acl = [] ∨ s.broker.acl = aclLines api.provisioning s.file

theorem CredentialState.Fresh.isolated (h : s.Fresh api) : Isolated api s.file [] s := by
  have hnone : ∀ t ∈ s.file, ∀ c, c ∉ t.devices := by
    intro t ht c hc
    rw [h.devices t ht] at hc
    cases hc
  refine ⟨rfl, rfl, fun t ht c hc => absurd hc (hnone t ht c), ?_⟩
  intro user huser line hline
  rcases h.acl with hacl | hacl
  · rw [hacl] at hline
    cases hline
  · rw [hacl] at hline
    exact mem_topicsOf_aclLines (fun t ht c hc => absurd hc (hnone t ht c))
      (fun hservice => huser (.inl hservice)) (fun t ht hsome => huser (.inr ⟨t, ht, hsome⟩)) hline

/-! ## Isolation -/

/-- The request leaves the password of every active credential of another Twin, and of
every reserved user. -/
def PasswordsKept (api : Api) (s : CredentialState) (r : Request) : Prop :=
  ∀ user, (Reserved api s.file user ∨ ∃ t ∈ s.file, ∃ c ∈ t.devices, c.revokedAt = none ∧
      c.username = user ∧ ¬ (t.ownedBy r.owner ∧ c.ofTwin r.twin)) →
    (api.serve s r).broker.passwords.get? user = s.broker.passwords.get? user

/-- What the broker lets a user do that is not reserved is on the topics of one Twin, the
only one whose credential carries the user. -/
def TopicsOwn (api : Api) (s : CredentialState) : Prop :=
  ∀ user topic, ¬ Reserved api s.file user →
    mayPublish s.broker.acl user topic ∨ mayRead s.broker.acl user topic →
    ∃ t ∈ s.file, ∃ c ∈ t.devices, c.username = user ∧
      (∃ access filter, .topic access filter ∈ twinTopics api.provisioning t.tenantId c.twinId ∧
        Mqtt.filterMatches filter topic) ∧ c.twinId ∈ Mqtt.levels topic ∧
      ∀ t' ∈ s.file, ∀ c' ∈ t'.devices, c'.username = user →
        c'.twinId = c.twinId ∧ toLowerCase t'.ownerDid = toLowerCase t.ownerDid

omit [Runtime] in
theorem reserved_congr {file file' : List TenantDefinition} {user : String}
    (h : file.map (·.mqttUsername) = file'.map (·.mqttUsername)) :
    Reserved api file user → Reserved api file' user := by
  rintro (hservice | ⟨t, ht, hsome⟩)
  · exact .inl hservice
  · exact .inr (exists_of_map_eq h ht hsome)

theorem Issued.unreserved (hnames : NamesApart api file₀ requests) {t : TenantDefinition}
    {c : TwinDeviceCredential} (h : Issued api file₀ requests t c) :
    ¬ Reserved api file₀ c.username := by
  obtain ⟨-, r, hr, -, -, -, -, a, ha, husername⟩ := h
  rw [husername]
  exact hnames.unreserved r hr a ha

theorem Isolated.topicsOwn (h : Isolated api file₀ requests s)
    (hnames : NamesApart api file₀ requests) : TopicsOwn api s := by
  intro user topic huser hmay
  have hline : ∃ line ∈ topicsOf user false s.broker.acl, Mqtt.filterMatches line.2 topic := by
    simp only [mayPublish, mayRead, List.any_eq_true, Bool.and_eq_true] at hmay
    rcases hmay with ⟨line, hline, -, hmatch⟩ | ⟨line, hline, -, hmatch⟩
    · exact ⟨line, hline, hmatch⟩
    · exact ⟨line, hline, hmatch⟩
  obtain ⟨line, hline, hmatch⟩ := hline
  have huser' : ¬ Reserved api file₀ user := fun hres => huser (reserved_congr h.external.symm hres)
  obtain ⟨t, ht, c, hc, husername, htopic⟩ := h.acl user huser' line hline
  have hissued := h.issued t ht c hc
  have htwin : Sharing.isObjectId c.twinId := by
    obtain ⟨-, r, -, -, hid, -, heq, -⟩ := hissued
    rwa [heq]
  refine ⟨t, ht, c, hc, husername, ⟨line.1, line.2, htopic, hmatch⟩,
    level_of_twinTopics htwin htopic hmatch, ?_⟩
  intro t' ht' c' hc' husername'
  exact (h.issued t' ht' c' hc').twin_eq hnames hissued (husername'.trans husername.symm)

theorem Isolated.passwordsKept (h : Isolated api file₀ requests s)
    (hnames : NamesApart api file₀ (requests ++ [r])) : PasswordsKept api s r := by
  have hsub : requests ⊆ requests ++ [r] := List.subset_append_left _ _
  intro user huser
  rcases serve_cases api s r with hsame | ⟨index, t, next, actions, name, hchange⟩
  · rw [hsame]
  obtain ⟨a, ha, hname⟩ := hchange.named
  rw [findByOwnerDid_of_accounting h.accounting] at ha
  have ht : t ∈ s.file := List.mem_of_getElem? hchange.entry
  rw [hchange.broker]
  refine passwords_foldl ?_ _
  intro action haction hset
  rcases List.mem_append.mp (List.mem_of_mem_take haction) with hmem | hmem
  case inr =>
    obtain rfl := List.mem_singleton.mp hmem
    cases hset
  -- the user is the one of the Twin's old credential, or of its new one
  obtain ⟨user', huser', htouched⟩ := hchange.touched action hmem
  obtain rfl : user' = user := Option.some.inj (huser'.symm.trans hset)
  rcases huser with hreserved | ⟨t', ht', c', hc', -, husername', hother⟩
  · have hreserved' := reserved_congr h.external hreserved
    rcases htouched with ⟨c, hc, -, rfl⟩ | ⟨-, rfl⟩
    · exact ((h.issued t ht c hc).mono hsub).unreserved hnames hreserved'
    · rw [hname] at hreserved'
      exact hnames.unreserved r (by simp) a ha hreserved'
  · have hissued' := (h.issued t' ht' c' hc').mono hsub
    rcases htouched with ⟨c, hc, hof, husername⟩ | ⟨hkind, rfl⟩
    · obtain ⟨htwin, howner⟩ := hissued'.twin_eq hnames ((h.issued t ht c hc).mono hsub)
        (husername'.trans husername.symm)
      refine hother ⟨?_, ?_⟩
      · simpa only [TenantDefinition.ownedBy, howner] using hchange.owned
      · simpa only [TwinDeviceCredential.ofTwin, htwin] using hof
    · obtain ⟨-, r', hr', hkind', hid', howned', htwin', a', ha', hname'⟩ := hissued'
      rw [hname', hname] at husername'
      obtain ⟨htenant, hdigits⟩ := mqttUsername_inj hid' hchange.twin husername'
      obtain ⟨howner, heq⟩ :=
        hnames.apart r' hr' r (by simp) hkind' hkind a' ha' a ha htenant hdigits
      refine hother ⟨?_, ?_⟩
      · simpa only [TenantDefinition.ownedBy, howner] using howned'
      · simp only [TwinDeviceCredential.ofTwin, htwin', heq, beq_self_eq_true]

theorem NamesApart.mono {requests' : List Request} (h : NamesApart api file₀ requests')
    (hsub : requests ⊆ requests') : NamesApart api file₀ requests where
  apart r hr r' hr' := h.apart r (hsub hr) r' (hsub hr')
  unreserved r hr := h.unreserved r (hsub hr)

/-- In a run whose user names stand apart, every Twin keeps its password and its topics
to itself. -/
theorem twins_isolated (hfresh : s.Fresh api) (hnames : NamesApart api s.file requests)
    {served rest : List Request} (hrun : requests = served ++ rest) :
    TopicsOwn api (api.run s served) ∧
      ∀ r, rest.head? = some r → PasswordsKept api (api.run s served) r := by
  subst hrun
  have hisolated : Isolated api s.file served (api.run s served) := hfresh.isolated.run served
  refine ⟨hisolated.topicsOwn (hnames.mono (List.subset_append_left _ _)), ?_⟩
  intro r hr
  refine hisolated.passwordsKept (hnames.mono ?_)
  obtain ⟨rest', rfl⟩ : ∃ rest', rest = r :: rest' := List.head?_eq_some_iff.mp hr
  rw [List.append_cons served r rest']
  exact List.subset_append_left _ _

end

/-! ## Two Twins of one plant -/

def plantApi : Api where
  network := "mainnet"
  provisioning := plantProvisioning
  static := []

/-- A plant without devices. -/
def plantStart : CredentialState where
  file := [plantTenant "mainnet-plant" 'a' []]
  broker := { passwords := [], acl := [] }

/-- A Twin id of eight equal digits and the rest of another. -/
def plantTwin (first rest : Char) : String :=
  .ofList (['0', 'x'] ++ List.replicate 8 first ++ List.replicate 56 rest)

/-- The plant's owner asks for a new password for a Twin. -/
def plantRotation (twinId password : String) : Request where
  kind := .rotate password
  ownerDid := (plantAccounting "mainnet-plant" 'a').ownerDid
  twinId := twinId
  now := 0
  subscribed := true
  owned := true
  brokerUpdates := 3

theorem plantStart_fresh : plantStart.Fresh plantApi where
  devices := by
    intro t ht
    obtain rfl := List.mem_singleton.mp ht
    rfl
  acl := .inl rfl

/-- The characters of the plant's owner. -/
theorem plantOwner_eq : (plantAccounting "mainnet-plant" 'a').ownerDid =
    .ofList (['d', 'i', 'd', ':', 'i', 'o', 't', 'a', ':', '0', 'x'] ++ .replicate 64 'a') := by
  apply String.toList_inj.mp
  simp only [plantAccounting, objectId, String.toList_append, String.toList_ofList, String.reduceToList]
  rfl

theorem lower_plantOwner : asciiLower (plantAccounting "mainnet-plant" 'a').ownerDid =
    (plantAccounting "mainnet-plant" 'a').ownerDid := by
  rw [plantOwner_eq, asciiLower, String.toList_ofList, List.map_append, List.map_replicate]
  rfl

theorem isDid_plantOwner : Sharing.isDid (plantAccounting "mainnet-plant" 'a').ownerDid "mainnet" := by
  have hmainnet : Sharing.didPrefix "mainnet" = "did:iota:" := if_pos rfl
  have hdid := @Sharing.isDid_append "mainnet" _ (@Sharing.isObjectId_objectId 'a' rfl)
  rwa [hmainnet] at hdid

theorem findByOwnerDid_plant (devices : List TwinDeviceCredential) :
    @findByOwnerDid Runtime.ascii [] [plantTenant "mainnet-plant" 'a' devices]
      (plantAccounting "mainnet-plant" 'a').ownerDid = some (plantAccounting "mainnet-plant" 'a') := by
  simp [findByOwnerDid, definitions, plantTenant, Record.set]

theorem isObjectId_plantTwin {first rest : Char} (hfirst : isLowerHex first) (hrest : isLowerHex rest) :
    Sharing.isObjectId (plantTwin first rest) := by
  simp [Sharing.isObjectId, plantTwin, hfirst, hrest]

theorem twinDigits_plantTwin (first rest : Char) :
    twinDigits (plantTwin first rest) = .ofList (.replicate 8 first) := by
  simp [twinDigits, plantTwin]

theorem twin_plantRotation {first rest : Char} {password : String} (hfirst : isLowerHex first)
    (hrest : isLowerHex rest) :
    @Request.twin Runtime.ascii (plantRotation (plantTwin first rest) password) = plantTwin first rest :=
  @toLowerCase_objectId Runtime.ascii _ (isObjectId_plantTwin hfirst hrest)

theorem twinDigits_plantRotation {first rest : Char} {password : String} (hfirst : isLowerHex first)
    (hrest : isLowerHex rest) :
    twinDigits (@Request.twin Runtime.ascii (plantRotation (plantTwin first rest) password)) =
      .ofList (.replicate 8 first) := by
  rw [twin_plantRotation hfirst hrest, twinDigits_plantTwin]

theorem twins_isolated_rotations :
    @PasswordsKept Runtime.ascii plantApi
      (@Api.run Runtime.ascii plantApi plantStart [plantRotation (plantTwin 'a' '1') "first"])
      (plantRotation (plantTwin 'b' '2') "second") := by
  have hfound : @findByOwnerDid Runtime.ascii plantApi.static plantStart.file
      (@Request.owner Runtime.ascii (plantRotation "" "")) =
        some (plantAccounting "mainnet-plant" 'a') :=
    (congrArg _ lower_plantOwner).trans (findByOwnerDid_plant [])
  have hnames : @NamesApart Runtime.ascii plantApi plantStart.file
      ([plantRotation (plantTwin 'a' '1') "first"] ++
        [plantRotation (plantTwin 'b' '2') "second"]) := by
    refine @NamesApart.mk Runtime.ascii _ _ _ ?_ ?_
    · intro r hr r' hr' hkind hkind' a ha a' ha' htenant hdigits
      simp only [List.cons_append, List.nil_append, List.mem_cons, List.not_mem_nil, or_false]
        at hr hr'
      rcases hr with rfl | rfl <;> rcases hr' with rfl | rfl
      · exact ⟨rfl, rfl⟩
      · rw [twinDigits_plantRotation rfl rfl, twinDigits_plantRotation rfl rfl] at hdigits
        exact absurd (String.ofList_injective hdigits) (by decide)
      · rw [twinDigits_plantRotation rfl rfl, twinDigits_plantRotation rfl rfl] at hdigits
        exact absurd (String.ofList_injective hdigits) (by decide)
      · exact ⟨rfl, rfl⟩
    · intro r hr a ha
      simp only [List.cons_append, List.nil_append, List.mem_cons, List.not_mem_nil, or_false]
        at hr
      have ha' : a = plantAccounting "mainnet-plant" 'a' := by
        rcases hr with rfl | rfl
        · exact Option.some.inj (ha.symm.trans hfound)
        · exact Option.some.inj (ha.symm.trans hfound)
      subst ha'
      rintro (hservice | ⟨t, ht, hsome⟩)
      · rcases hr with rfl | rfl
        · exact absurd hservice (by decide)
        · exact absurd hservice (by decide)
      · obtain rfl := List.mem_singleton.mp ht
        cases hsome
  exact (@twins_isolated Runtime.ascii plantApi plantStart _ plantStart_fresh hnames _
    [plantRotation (plantTwin 'b' '2') "second"] rfl).2 _ rfl

/-! ## One user for two Twins -/

def sharedUser : String := "oid_device_mainnet_mainnet-plant_aaaaaaaa"

def sharedCredential (rest : Char) : TwinDeviceCredential where
  bootstrap := false
  twinId := plantTwin 'a' rest
  username := sharedUser
  version := 1
  rotatedAt := 0

/-- The plant with credentials of the shared user. -/
def plantShared (rests : List Char) (password : String) : CredentialState :=
  let file := [plantTenant "mainnet-plant" 'a' (rests.map sharedCredential)]
  { file, broker := { passwords := [(sharedUser, password)], acl := aclLines plantProvisioning file } }

theorem plantTwin_inj {first first' rest rest' : Char} (h : plantTwin first rest = plantTwin first' rest') :
    rest = rest' := by
  have hlist := String.ofList_injective h
  simp only [List.cons_append, List.nil_append, List.cons.injEq, true_and] at hlist
  exact (List.replicate_inj.mp (List.append_inj_right hlist (by simp))).2.resolve_left (by simp)

theorem ofTwin_plantTwin {rest rest' : Char} (hrest : isLowerHex rest) (hrest' : isLowerHex rest') :
    @TwinDeviceCredential.ofTwin Runtime.ascii (sharedCredential rest) (plantTwin 'a' rest') ↔ rest = rest' := by
  let runtime : Runtime := Runtime.ascii
  rw [TwinDeviceCredential.ofTwin, beq_iff_eq, sharedCredential,
    toLowerCase_objectId (isObjectId_plantTwin rfl hrest), toLowerCase_objectId (isObjectId_plantTwin rfl hrest')]
  exact ⟨plantTwin_inj, fun h => h ▸ rfl⟩

theorem mqttUsername_plantTwin (rest : Char) :
    mqttUsername "mainnet" "mainnet-plant" (plantTwin 'a' rest) = sharedUser := by
  apply String.toList_inj.mp
  rw [toList_mqttUsername]
  simp only [sanitize, twinDigits_plantTwin, String.toList_ofList, sharedUser]
  simp [Char.isAlphanum]

theorem ownedBy_plantTenant (devices : List TwinDeviceCredential) :
    @TenantDefinition.ownedBy Runtime.ascii (plantTenant "mainnet-plant" 'a' devices)
      (plantAccounting "mainnet-plant" 'a').ownerDid := by
  simp only [TenantDefinition.ownedBy, plantTenant, beq_self_eq_true]

section
variable [Runtime] (api : Api) (s : CredentialState) (r : Request)

theorem plan_rotate {accounting : AccountingContext} {password : String} (hdid : Sharing.isDid r.owner api.network)
    (hid : Sharing.isObjectId r.twin) (hfound : findByOwnerDid api.static s.file r.owner = some accounting)
    (howned : s.file.any (·.ownedBy r.owner) = true) (hkind : r.kind = .rotate password) (hsubscribed : r.subscribed)
    (hmatches : r.owned) :
    api.plan s.file r = .ok (.rotateTwin r.owner r.twin (mqttUsername api.network accounting.tenantId r.twin) password
      false) := by
  simp [Api.plan, hdid, hid, hfound, howned, hkind, hsubscribed, hmatches]

theorem serve_of_edit {op : Operation} {e : Edit} (hplan : api.plan s.file r = .ok op)
    (hedit : op.edit id s.file r.now = .ok e) :
    api.serve s r = { file := e.tenants
                      broker := (e.actions.take r.brokerUpdates).foldl (·.apply api.provisioning) s.broker } := by
  simp only [Api.serve, hplan, hedit]

/-- The rotation of a Twin without a credential deletes no user. -/
theorem edit_rotateTwin {t : TenantDefinition} {ownerDid twinId username password : String} (howned : t.ownedBy ownerDid)
    (hnone : t.devices.find? (·.ofTwin twinId) = none) (now : Int) :
    (Operation.rotateTwin ownerDid twinId username password false).edit id [t] now =
      .ok ⟨[t.rotateDevice twinId username false now],
        [.upsert username password, .rewriteAcl [t.rotateDevice twinId username false now]]⟩ := by
  simp [Operation.edit, rotateTwinEdit, editOwner, List.findIdx?_cons, howned, TenantDefinition.deleteUser, hnone]

end

theorem plan_plantRotation {rest : Char} (devices : List TwinDeviceCredential) (password : String)
    (hrest : isLowerHex rest) :
    @Api.plan Runtime.ascii plantApi [plantTenant "mainnet-plant" 'a' devices]
        (plantRotation (plantTwin 'a' rest) password) =
      .ok (.rotateTwin (plantAccounting "mainnet-plant" 'a').ownerDid (plantTwin 'a' rest) sharedUser password false) := by
  let runtime : Runtime := Runtime.ascii
  have howner : (plantRotation (plantTwin 'a' rest) password).owner = (plantAccounting "mainnet-plant" 'a').ownerDid := by
    simp only [Request.owner, plantRotation]
    exact lower_plantOwner
  have htwin : (plantRotation (plantTwin 'a' rest) password).twin = plantTwin 'a' rest :=
    twin_plantRotation (by decide) hrest
  have hid : Sharing.isObjectId (plantTwin 'a' rest) := isObjectId_plantTwin (by decide) hrest
  have hname : mqttUsername "mainnet" (plantAccounting "mainnet-plant" 'a').tenantId (plantTwin 'a' rest) = sharedUser := by
    simp only [plantAccounting]
    exact mqttUsername_plantTwin rest
  have hplan := plan_rotate plantApi ⟨[plantTenant "mainnet-plant" 'a' devices], ⟨[], []⟩⟩
    (plantRotation (plantTwin 'a' rest) password) (by rw [howner]; exact isDid_plantOwner) (by rw [htwin]; exact hid)
    (by rw [howner]; exact findByOwnerDid_plant devices) (by rw [howner]; simp [ownedBy_plantTenant]) rfl rfl rfl
  rw [howner, htwin] at hplan
  exact hname ▸ hplan

/-- A rotation for a further Twin of the plant adds its credential and replaces the password. -/
theorem serve_plantRotation {rest : Char} {rests : List Char} {password : String} {broker : Broker}
    (hrest : isLowerHex rest) (hrests : ∀ r ∈ rests, isLowerHex r) (hnew : rest ∉ rests)
    (hbroker : broker.passwords.set sharedUser password = [(sharedUser, password)]) :
    @Api.serve Runtime.ascii plantApi
        { file := [plantTenant "mainnet-plant" 'a' (rests.map sharedCredential)], broker }
        (plantRotation (plantTwin 'a' rest) password) = plantShared (rests ++ [rest]) password := by
  let runtime : Runtime := Runtime.ascii
  have hid := @isObjectId_plantTwin 'a' rest rfl hrest
  have hother : ∀ c ∈ rests.map sharedCredential, ¬ c.ofTwin (plantTwin 'a' rest) := by
    intro c hc
    obtain ⟨r, hr, rfl⟩ := List.mem_map.mp hc
    rw [ofTwin_plantTwin (hrests r hr) hrest]
    rintro rfl
    exact hnew hr
  have hnone : (rests.map sharedCredential).find? (·.ofTwin (plantTwin 'a' rest)) = none :=
    List.find?_eq_none.mpr hother
  have hall : (rests.map sharedCredential).filter (fun c => !c.ofTwin (plantTwin 'a' rest)) =
      rests.map sharedCredential :=
    List.filter_eq_self.mpr fun c hc => by simp [hother c hc]
  have hdevices : (plantTenant "mainnet-plant" 'a' (rests.map sharedCredential)).rotateDevice (plantTwin 'a' rest)
      sharedUser false 0 = plantTenant "mainnet-plant" 'a' ((rests ++ [rest]).map sharedCredential) := by
    simp [TenantDefinition.rotateDevice, rotatedCredential, plantTenant, TenantDefinition.devices, hnone, hall,
      sharedCredential, toLowerCase_objectId hid]
  have hedit : (Operation.rotateTwin _ _ sharedUser password false).edit id [_] 0 = _ :=
    edit_rotateTwin (ownedBy_plantTenant (rests.map sharedCredential)) hnone 0
  rw [hdevices] at hedit
  have hserve := serve_of_edit plantApi
    { file := [plantTenant "mainnet-plant" 'a' (rests.map sharedCredential)], broker }
    (plantRotation (plantTwin 'a' rest) password) (plan_plantRotation _ _ hrest) hedit
  rw [hserve]
  simp only [plantShared, plantRotation, List.take, List.foldl_cons, List.foldl_nil, Broker.apply, plantApi]
  rw [hbroker]
  rfl

theorem serve_first : @Api.serve Runtime.ascii plantApi plantStart
    (plantRotation (plantTwin 'a' '1') "first") = plantShared ['1'] "first" :=
  @serve_plantRotation '1' [] "first" _ rfl (by simp) (by simp) rfl

theorem serve_second : @Api.serve Runtime.ascii plantApi (plantShared ['1'] "first")
    (plantRotation (plantTwin 'a' '2') "second") = plantShared ['1', '2'] "second" :=
  @serve_plantRotation '2' ['1'] "second" _ rfl (by simp; rfl) (by simp) (by simp [Record.set])

theorem filterLevels_self (ls : List String) : Mqtt.filterLevels ls ls = true := by
  induction ls with
  | nil => rfl
  | cons l ls ih =>
    unfold Mqtt.filterLevels
    split
    case h_1 heq => cases heq
    case h_2 => rfl
    case h_3 heq => cases heq
    case h_4 heq heq' =>
      obtain ⟨rfl, rfl⟩ := List.cons.inj heq
      obtain ⟨rfl, rfl⟩ := List.cons.inj heq'
      simp [ih]

/-- A topic of the server is a filter that matches itself. -/
theorem filterMatches_self (topic : String) :
    Mqtt.filterMatches ("objectid/twins/" ++ topic) ("objectid/twins/" ++ topic) = true := by
  have hdollar : startsWith ("objectid/twins/" ++ topic) "$" = false := by
    rw [startsWith, String.toList_append]
    simp only [String.reduceToList]
    rfl
  rw [Mqtt.filterMatches, filterLevels_self, hdollar]
  rfl

theorem shared_read : mayRead (plantShared ['1', '2'] "second").broker.acl sharedUser
    ("objectid/twins/" ++ plantTwin 'a' '1' ++ "/commands/request") := by
  have hservice : (plantProvisioning.serviceUsername == sharedUser) = false := by decide +kernel
  have hacl : (plantShared ['1', '2'] "second").broker.acl =
      [.user plantProvisioning.serviceUsername, .topic .readwrite "#", .topic .read "$SYS/#", .blank] ++
        ((.user sharedUser :: twinTopics plantProvisioning "mainnet-plant" (plantTwin 'a' '1') ++ [.blank]) ++
          (.user sharedUser :: twinTopics plantProvisioning "mainnet-plant" (plantTwin 'a' '2') ++ [.blank])) := rfl
  have hroot : plantProvisioning.commandPrefix ++ "/twins/" = "objectid/twins/" := by decide +kernel
  rw [mayRead, List.any_eq_true]
  refine ⟨(.read, "objectid/twins/" ++ plantTwin 'a' '1' ++ "/commands/request"), ?_, ?_⟩
  · rw [hacl]
    simp only [twinTopics, List.cons_append, List.nil_append, topicsOf, hservice, beq_self_eq_true, hroot]
    simp
  · rw [String.append_assoc, filterMatches_self]
    rfl

/-- The second of two Twins with the same first digits takes the password of the first,
and both get the topics of both. -/
theorem twins_share_user :
    plantStart.Fresh plantApi ∧
      ¬ @PasswordsKept Runtime.ascii plantApi
        (@Api.run Runtime.ascii plantApi plantStart [plantRotation (plantTwin 'a' '1') "first"])
        (plantRotation (plantTwin 'a' '2') "second") ∧
      ¬ @TopicsOwn Runtime.ascii plantApi
        (@Api.run Runtime.ascii plantApi plantStart [plantRotation (plantTwin 'a' '1') "first",
          plantRotation (plantTwin 'a' '2') "second"]) := by
  refine ⟨plantStart_fresh, ?_, ?_⟩
  · simp only [Api.run, List.foldl_cons, List.foldl_nil, serve_first]
    intro hkept
    have hother : ∃ t ∈ (plantShared ['1'] "first").file,
        ∃ c ∈ t.devices, c.revokedAt = none ∧ c.username = sharedUser ∧
          ¬ (@TenantDefinition.ownedBy Runtime.ascii t
              (@Request.owner Runtime.ascii (plantRotation (plantTwin 'a' '2') "second")) ∧
            @TwinDeviceCredential.ofTwin Runtime.ascii c
              (@Request.twin Runtime.ascii (plantRotation (plantTwin 'a' '2') "second"))) := by
      refine ⟨_, .head _, sharedCredential '1', .head _, rfl, rfl, ?_⟩
      rintro ⟨-, hsame⟩
      rw [twin_plantRotation rfl rfl, ofTwin_plantTwin rfl rfl] at hsame
      revert hsame
      decide
    have h := hkept sharedUser (.inr hother)
    rw [serve_second] at h
    simp [plantShared, Record.get?] at h
  · simp only [Api.run, List.foldl_cons, List.foldl_nil, serve_first, serve_second]
    intro hown
    have hreserved : ¬ Reserved plantApi (plantShared ['1', '2'] "second").file sharedUser := by
      rintro (hservice | ⟨t, ht, hsome⟩)
      · exact absurd hservice (by decide)
      · obtain rfl := List.mem_singleton.mp ht
        cases hsome
    obtain ⟨t, -, c, -, -, -, -, honly⟩ := hown sharedUser _ hreserved (.inr shared_read)
    have hfirst := (honly _ (.head _) (sharedCredential '1') (.head _) rfl).1
    have hsecond := (honly _ (.head _) (sharedCredential '2') (.tail _ (.head _)) rfl).1
    have hchars : '1' = '2' := plantTwin_inj (hfirst.trans hsecond.symm)
    revert hchars
    decide

end Security
