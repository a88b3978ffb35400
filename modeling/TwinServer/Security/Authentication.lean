-- SUMMARY: The check of a tenant entry, the tenants that count, and the keys the server accepts.
import TwinServer.Base.Map
import TwinServer.Security.Tenants
import TwinServer.Sharing.Policy
import TwinServer.Storage.Paths
import TwinServer.Thread.Events

/-!
# Authentication

`validateTenant`, `definitions` and `authenticateApiKey` of `src/security/tenants.ts`, and
`requiredCredential` of `src/security/credentials.ts`. An entry, of the registry or of the dynamic file, is
read with the types it is written with.
-/

open Js

namespace Security

/-! ## The check of an entry -/

/-- The expression `/^did:iota(?::[a-z0-9-]+)?:0x[0-9a-f]{64}$/i`. -/
@[local grind] def isOwnerDid (s : String) : Bool :=
  match Mqtt.splitChars ':' (s.toList.map Char.toLower) with
  | [did, iota, id] => did == "did".toList && iota == "iota".toList && Sharing.isObjectId (.ofList id)
  | [did, iota, network, id] =>
    did == "did".toList && iota == "iota".toList && !network.isEmpty &&
      network.all (fun c => c.isDigit || ('a' ≤ c && c ≤ 'z') || c == '-') && Sharing.isObjectId (.ofList id)
  | _ => false

def tenantInvalid (index : Nat) : AppError :=
  { code := "CONFIG_TENANT_INVALID", message := "Tenant registry entry " ++ index.repr ++ " is invalid",
    status := 500, category := .VALIDATION }

/-- A text that is there and not empty. -/
def truthy (s : Option String) : Option String := s.filter (· ≠ "")

/-- A device credential that the check keeps. -/
def TwinDeviceCredential.isValid (c : TwinDeviceCredential) : Bool :=
  (if c.bootstrap then isDeviceId c.twinId else Sharing.isObjectId c.twinId) && c.username != "" &&
    c.version > 0

section
variable [Runtime]

/-- The entry as the check reads it. -/
def TenantDefinition.read (value : TenantDefinition) : TenantDefinition where
  tenantId := value.tenantId
  customerId := value.customerId
  ownerDid := value.ownerDid
  subscriptionId := toLowerCase value.subscriptionId
  apiKeyCredential := truthy value.apiKeyCredential
  apiKeyHash := truthy value.apiKeyHash
  externalApiKeyHash := truthy value.externalApiKeyHash
  mqttUsername := truthy value.mqttUsername
  mqttTwinIds := some (value.mqttTwinIds.getD [])
  credentialsVersion := some (value.credentialsVersion.getD 0)
  credentialsRotatedAt := value.credentialsRotatedAt
  credentialsRevokedAt := value.credentialsRevokedAt
  deviceCredentials :=
    some ((value.devices.map fun c => { c with twinId := toLowerCase c.twinId }).filter (·.isValid))

def validateTenant (value : TenantDefinition) (index : Nat) : Except AppError TenantDefinition :=
  let tenant := value.read
  if tenant.tenantId = "" ∨ tenant.customerId = "" ∨ isOwnerDid tenant.ownerDid = false ∨
      (tenant.apiKeyCredential.isNone ∧ Thread.isHex64 (tenant.apiKeyHash.getD "").toList = false) ∨
      Sharing.isObjectId tenant.subscriptionId = false then
    .error (tenantInvalid index)
  else .ok tenant

/-- The checks of the entries of a list, from an index on. -/
def validateTenants : List TenantDefinition → Nat → Except AppError (List TenantDefinition)
  | [], _ => .ok []
  | value :: values, index => do
    let tenant ← validateTenant value index
    return tenant :: (← validateTenants values (index + 1))

/-! ## The tenants -/

/-- What the credential of the tenant registry holds. -/
inductive StaticRegistry where
  | missing
  | malformed
  | withoutTenants
  | tenants (values : List TenantDefinition)

def StaticRegistry.values : StaticRegistry → List TenantDefinition
  | .tenants values => values
  | _ => []

def registryInvalid (message : String) : AppError :=
  { code := "CONFIG_TENANT_REGISTRY_INVALID", message, status := 500, category := .VALIDATION }

def tenantDuplicate (tenantId : String) : AppError :=
  { code := "CONFIG_TENANT_DUPLICATE", message := "Duplicate tenant '" ++ tenantId ++ "'", status := 500,
    category := .VALIDATION }

/-- The first id that comes again after the ids seen. -/
def duplicate? : List String → List String → Option String
  | _, [] => none
  | seen, id :: ids => if id ∈ seen then some id else duplicate? (id :: seen) ids

/-- `new Map(tenants.map((tenant) => [tenant.tenantId, tenant]))`. -/
def byTenantId (tenants : List TenantDefinition) : Map TenantDefinition :=
  tenants.foldl (fun m t => m.set t.tenantId t) .empty

/-- `definitions`. Without the registry the dynamic tenants do not count either. -/
@[local grind] def tenantDefinitions (static : StaticRegistry) (dynamic : List TenantDefinition) :
    Except AppError (List TenantDefinition) :=
  match static with
  | .missing => .ok []
  | .malformed => .error (registryInvalid "The tenant registry is not valid JSON")
  | .withoutTenants => .error (registryInvalid "The tenant registry must contain a tenants array")
  | .tenants values => do
    let staticTenants ← validateTenants values 0
    let dynamicTenants ← validateTenants dynamic staticTenants.length
    let tenants := (byTenantId (staticTenants ++ dynamicTenants)).entries.map Prod.snd
    match duplicate? [] (tenants.map (·.tenantId)) with
    | some id => .error (tenantDuplicate id)
    | none => return tenants

/-! ## Keys -/

/-- `Buffer.from(hash, "hex")`, byte by byte as far as there are digits. -/
def hexBytes : List Char → List Nat
  | h :: l :: rest =>
    match Storage.hexValue? h, Storage.hexValue? l with
    | some high, some low => (16 * high + low) :: hexBytes rest
    | _, _ => []
  | _ => []

def invalidApiKey : AppError :=
  { code := "AUTH_INVALID_API_KEY", message := "Invalid or missing API key", status := 401,
    category := .AUTHORIZATION }

def credentialMissing (name : String) : AppError :=
  { code := "CREDENTIAL_MISSING", message := "Credential '" ++ name ++ "' is not configured",
    status := 503, category := .AUTHORIZATION }

variable (sha256 : String → String) (credentials : String → Option String)

def digest (value : String) : List Nat := hexBytes (sha256 value).toList

def requiredCredential (name : String) : Except Thrown String :=
  match truthy (credentials name) with
  | some value => .ok value
  | none => .error (.app (credentialMissing name))

/-- The digest of the tenant's own API key. -/
def TenantDefinition.apiKeyDigest (t : TenantDefinition) : Except Thrown (List Nat) :=
  match truthy t.apiKeyHash with
  | some hash => .ok (hexBytes hash.toList)
  | none => do return digest sha256 (← requiredCredential credentials (t.apiKeyCredential.getD "undefined"))

def TenantDefinition.externalDigest (t : TenantDefinition) : Option (List Nat) :=
  (truthy t.externalApiKeyHash).map fun hash => hexBytes hash.toList

/-- `expected.some((value) => timingSafeEqual(actual, value))`, which throws on a different length. -/
def someEqual (actual : List Nat) : List (List Nat) → Except Thrown Bool
  | [] => .ok false
  | value :: values =>
    if actual.length ≠ value.length then .error .rejection
    else if actual = value then .ok true
    else someEqual actual values

/-- The loop over the tenants. -/
def accountingOf (actual : List Nat) : List TenantDefinition → Except Thrown AccountingContext
  | [] => .error (.app invalidApiKey)
  | tenant :: tenants => do
    let own ← tenant.apiKeyDigest sha256 credentials
    if ← someEqual actual (own :: tenant.externalDigest.toList) then return tenant.toAccountingContext
    else accountingOf actual tenants

@[local grind] def authenticateApiKey (static : StaticRegistry) (dynamic : List TenantDefinition)
    (candidate : Option String) : Except Thrown (Option AccountingContext) :=
  match tenantDefinitions static dynamic, truthy candidate with
  | .error e, _ => .error (.app e)
  | .ok [], _ => .ok none
  | .ok _, none => .error (.app invalidApiKey)
  | .ok tenants, some key => (accountingOf sha256 credentials (digest sha256 key) tenants).map some

end

/-! ## What is accepted -/

section
variable [Runtime] {sha256 : String → String} {credentials : String → Option String}
variable {t value : TenantDefinition} {actual : List Nat}

theorem validateTenant_eq_ok {index : Nat} (h : validateTenant value index = .ok t) :
    t = value.read ∧ t.tenantId ≠ "" := by
  simp only [validateTenant] at h
  split at h
  case isTrue => cases h
  case isFalse hvalid =>
    obtain rfl := Except.ok.inj h
    exact ⟨rfl, fun hid => hvalid (.inl hid)⟩

theorem validateTenant_of_valid (index : Nat) (hid : value.tenantId ≠ "") (hcustomer : value.customerId ≠ "")
    (howner : isOwnerDid value.ownerDid) {hash : String} (hhash : value.apiKeyHash = some hash)
    (hhex : Thread.isHex64 hash.toList) (hsubscription : Sharing.isObjectId value.subscriptionId) :
    validateTenant value index = .ok value.read := by
  have hne : hash ≠ "" := by
    rintro rfl
    cases hhex
  have hread : value.read.apiKeyHash = some hash := by
    simp only [TenantDefinition.read, hhash]
    exact Option.filter_some_pos (by simp [hne])
  have hlower : value.read.subscriptionId = value.subscriptionId :=
    Sharing.toLowerCase_of_ascii (Sharing.ascii_of_isObjectId hsubscription)
  refine if_neg ?_
  rw [hread, hlower, hsubscription, Option.getD_some, hhex, show value.read.ownerDid = value.ownerDid from rfl, howner]
  simp [TenantDefinition.read, hid, hcustomer]

omit [Runtime] in
theorem isOwnerDid_objectId {digit : Char} (h : isLowerHex digit) : isOwnerDid ("did:iota:" ++ objectId digit) := by
  obtain ⟨-, hlower⟩ := isLowerHex_ascii h
  have hcolon : digit ≠ ':' := by
    rintro rfl
    cases h
  have hlist : ("did:iota:" ++ objectId digit : String).toList.map Char.toLower =
      ['d', 'i', 'd'] ++ ':' :: (['i', 'o', 't', 'a'] ++ ':' :: ('0' :: 'x' :: .replicate 64 digit)) := by
    simp only [objectId, String.toList_append, String.toList_ofList, String.reduceToList, List.map_append,
      List.map_replicate, hlower]
    rfl
  have hsplit : Mqtt.splitChars ':' ('0' :: 'x' :: .replicate 64 digit) = ['0' :: 'x' :: .replicate 64 digit] :=
    Mqtt.splitChars_of_not_mem (by simp [hcolon.symm])
  have hid : Sharing.isObjectId (.ofList ('0' :: 'x' :: .replicate 64 digit)) := by
    simp [Sharing.isObjectId, h]
  rw [isOwnerDid, hlist, Mqtt.splitChars_append, Mqtt.splitChars_append, hsplit]
  exact hid

theorem mem_of_validateTenants {values tenants : List TenantDefinition} {index : Nat}
    (h : validateTenants values index = .ok tenants) (ht : t ∈ tenants) : ∃ value ∈ values, t = value.read := by
  induction values generalizing index tenants with
  | nil =>
      obtain rfl := Except.ok.inj h
      cases ht
  | cons value values ih =>
      simp only [validateTenants, bind, Except.bind] at h
      split at h
      · cases h
      case h_2 tenant htenant =>
        split at h
        · cases h
        case h_2 rest hrest =>
          obtain rfl := Except.ok.inj h
          rcases List.mem_cons.mp ht with rfl | ht
          · exact ⟨value, List.mem_cons_self, (validateTenant_eq_ok htenant).1⟩
          · obtain ⟨value', hmem, heq⟩ := ih hrest ht
            exact ⟨value', List.mem_cons_of_mem _ hmem, heq⟩

omit [Runtime] in
theorem mem_of_byTenantId {tenants : List TenantDefinition} {e : String × TenantDefinition}
    (h : e ∈ (byTenantId tenants).entries) : e.2 ∈ tenants := by
  induction tenants using List.reverseRecOn with
  | nil => cases h
  | append_singleton tenants t ih =>
      rw [byTenantId, List.foldl_append] at h
      rcases Record.mem_of_mem_set h with rfl | h
      · simp
      · exact List.mem_append_left _ (ih h)

/-- A tenant that counts is an entry of the registry or of the dynamic file. -/
theorem mem_of_tenantDefinitions {static : StaticRegistry} {dynamic tenants : List TenantDefinition}
    (h : tenantDefinitions static dynamic = .ok tenants) (ht : t ∈ tenants) :
    ∃ value, (value ∈ static.values ∨ value ∈ dynamic) ∧ t = value.read := by
  unfold tenantDefinitions at h
  split at h
  case h_1 =>
    obtain rfl := Except.ok.inj h
    cases ht
  case h_2 => cases h
  case h_3 => cases h
  case h_4 values =>
    simp only [bind, Except.bind] at h
    split at h
    · cases h
    case h_2 staticTenants hstatic =>
      split at h
      · cases h
      case h_2 dynamicTenants hdynamic =>
        split at h
        · cases h
        · obtain rfl := Except.ok.inj h
          obtain ⟨e, he, rfl⟩ := List.mem_map.mp ht
          rcases List.mem_append.mp (mem_of_byTenantId he) with he | he
          · obtain ⟨value, hvalue, heq⟩ := mem_of_validateTenants hstatic he
            exact ⟨value, .inl hvalue, heq⟩
          · obtain ⟨value, hvalue, heq⟩ := mem_of_validateTenants hdynamic he
            exact ⟨value, .inr hvalue, heq⟩

omit [Runtime] in
theorem mem_of_someEqual {values : List (List Nat)} (h : someEqual actual values = .ok true) :
    actual ∈ values := by
  induction values with
  | nil => cases h
  | cons value values ih =>
      unfold someEqual at h
      split at h
      · cases h
      split at h
      case isTrue heq => exact heq ▸ List.mem_cons_self
      case isFalse => exact List.mem_cons_of_mem _ (ih h)

/-- The digest is that of a key of the tenant. -/
def TenantDefinition.hasApiKey (sha256 : String → String) (credentials : String → Option String)
    (t : TenantDefinition) (actual : List Nat) : Prop :=
  t.apiKeyDigest sha256 credentials = .ok actual

def TenantDefinition.hasExternalKey (t : TenantDefinition) (actual : List Nat) : Prop :=
  t.externalDigest = some actual

omit [Runtime] in
theorem accountingOf_eq_ok {tenants : List TenantDefinition} {a : AccountingContext}
    (h : accountingOf sha256 credentials actual tenants = .ok a) :
    ∃ t ∈ tenants, t.toAccountingContext = a ∧
      (t.hasApiKey sha256 credentials actual ∨ t.hasExternalKey actual) := by
  induction tenants with
  | nil => cases h
  | cons t tenants ih =>
      simp only [accountingOf, bind, Except.bind] at h
      split at h
      · cases h
      case h_2 own hown =>
        split at h
        · cases h
        case h_2 b hb =>
          cases b with
          | false =>
            obtain ⟨t', ht', hrest⟩ := ih h
            exact ⟨t', List.mem_cons_of_mem _ ht', hrest⟩
          | true =>
            refine ⟨t, List.mem_cons_self, Except.ok.inj h, ?_⟩
            rcases List.mem_cons.mp (mem_of_someEqual hb) with rfl | hmem
            · exact .inl hown
            · exact .inr (Option.mem_toList.mp hmem)

/-- A key that is accepted is a key of an entry of the registry or of the dynamic file. -/
theorem authenticateApiKey_eq_ok {static : StaticRegistry} {dynamic : List TenantDefinition} {key : String}
    {a : AccountingContext}
    (h : authenticateApiKey sha256 credentials static dynamic (some key) = .ok (some a)) :
    ∃ value, (value ∈ static.values ∨ value ∈ dynamic) ∧
      (value.read.hasApiKey sha256 credentials (digest sha256 key) ∨
        value.read.hasExternalKey (digest sha256 key)) := by
  unfold authenticateApiKey at h
  split at h
  case h_1 => cases h
  case h_2 => cases h
  case h_3 => cases h
  case h_4 tenants key' _ hdefinitions hkey =>
    obtain rfl : key = key' := by
      simp only [truthy, Option.filter_some] at hkey
      split at hkey
      · exact Option.some.inj hkey
      · cases hkey
    cases haccounting : accountingOf sha256 credentials (digest sha256 key) tenants with
    | error e =>
      rw [haccounting] at h
      cases h
    | ok b =>
      obtain ⟨t, ht, -, hkeys⟩ := accountingOf_eq_ok haccounting
      obtain ⟨value, hvalue, rfl⟩ := mem_of_tenantDefinitions hdefinitions ht
      exact ⟨value, hvalue, hkeys⟩

end

end Security
