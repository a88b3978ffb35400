-- SUMMARY: The telemetry topics that tenants are issued, and when the MQTT connector understands them.
import TwinServer.Objectid.Publisher
import TwinServer.Security.Authentication
import TwinServer.Security.Blocks
import TwinServer.Security.DeviceCredentials

/-!
# The topics of tenants

A telemetry topic is built by the access list (`src/security/tenants.ts`), by the provisioning endpoints
(`src/api/app.ts`) and, with wildcards, by the loader (`src/config/loader.ts`), each from the prefix of the
configuration; `dynamicTenantMapping` of `src/connectors/mqtt.ts` takes it apart again.
-/

open Js Security

namespace Mqtt

/-! ## The connector -/

structure MqttMapping where
  topic : String
  twinId : String
  mode : Option String := none
  aspect : Option String := none
  sampleType : Option String := none
  datasetType : Option String := none
  windowSeconds : Option Number := none
  schemaUri : Option String := none
  profile : Option String := none
  qos : Option Nat := none
  tenantId : Option String := none
  dynamicTenantTopic : Bool := false
  deriving DecidableEq

/-- The expression `/^[a-z0-9_-]{1,96}$/i`. -/
def isTenantLevel (s : String) : Bool :=
  1 ≤ s.length && s.length ≤ 96 && s.toList.all fun c => c.isAlphanum || c == '_' || c == '-'

section
variable [Runtime]

/-- `dynamicTenantMapping`. A topic without the level `tenants` has no index, where the source has `-1`. -/
def dynamicTenantMapping (mapping : MqttMapping) (topic : String) : Option MqttMapping :=
  let parts := levels topic
  (parts.idxOf? "tenants").bind fun tenantIndex =>
    if parts[0]? ≠ some "objectid" ∨ tenantIndex < 1 ∨ parts.length ≠ tenantIndex + 6 ∨
        parts[tenantIndex + 2]? ≠ some "twins" ∨ parts[tenantIndex + 4]? ≠ some "telemetry" then none
    else
      let tenantId := parts[tenantIndex + 1]?.getD ""
      let twinId := parts[tenantIndex + 3]?.getD ""
      let mode := parts[tenantIndex + 5]?.getD ""
      if isTenantLevel tenantId = false ∨ ObjectId.isObjectIdText twinId = false ∨ mode ∉ ["state", "dataset"] then
        none
      else
        some { mapping with tenantId := some tenantId, twinId := toLowerCase twinId, mode := some mode }

/-! ## The loader -/

/-- A mapping under the topic prefix of the environment, as `applyEnvironment` rewrites it. -/
def loadedMapping (topicPrefix : String) (mapping : MqttMapping) : MqttMapping :=
  if mapping.dynamicTenantTopic then
    { mapping with
      topic := trimSlashes topicPrefix ++ "/+/twins/+/telemetry/" ++ mapping.mode.getD "dataset" }
  else mapping

/-! ## The endpoints -/

/-- The settings that the provisioning endpoints answer from. -/
structure Endpoints extends Provisioning where
  publicApiUrl : Option String
  mqttPublicUrl : Option String

structure TenantCredentialStatus where
  tenantId : String
  subscriptionId : String
  active : Bool
  version : Nat
  rotatedAt : Option Int
  revokedAt : Option Int
  mqttUsername : Option String
  twinIds : List String

def statusOf (tenant : TenantDefinition) : TenantCredentialStatus where
  tenantId := tenant.tenantId
  subscriptionId := tenant.subscriptionId
  active := tenant.active
  version := tenant.credentialsVersion.getD 0
  rotatedAt := tenant.credentialsRotatedAt
  revokedAt := tenant.credentialsRevokedAt
  mqttUsername := tenant.mqttUsername
  twinIds := tenant.mqttTwinIds.getD []

structure TwinDeviceCredentialStatus where
  tenantId : String
  subscriptionId : String
  twinId : String
  active : Bool
  version : Nat
  rotatedAt : Option Int
  revokedAt : Option Int
  mqttUsername : Option String

def twinStatusOf (tenant : TenantDefinition) (twinId : String) (credential : Option TwinDeviceCredential) :
    TwinDeviceCredentialStatus where
  tenantId := tenant.tenantId
  subscriptionId := tenant.subscriptionId
  twinId := toLowerCase twinId
  active := credential.any fun c => c.username != "" && c.revokedAt.isNone
  version := credential.elim 0 (·.version)
  rotatedAt := credential.map (·.rotatedAt)
  revokedAt := credential.bind (·.revokedAt)
  mqttUsername := credential.map (·.username)

/-- The topics of a Twin in an answer. -/
structure Topics where
  state : String
  dataset : String
  commandRequests : String
  commandResults : String

def topics (p : Provisioning) (tenantId twinId : String) : Topics :=
  let root := p.telemetryPrefix ++ "/" ++ tenantId ++ "/twins/" ++ twinId
  { state := root ++ "/telemetry/state"
    dataset := root ++ "/telemetry/dataset"
    commandRequests := p.commandPrefix ++ "/twins/" ++ twinId ++ "/commands/request"
    commandResults := p.commandPrefix ++ "/twins/" ++ twinId ++ "/commands/+/result" }

/-- `s.replace(/\/$/, "")`. -/
def dropLastSlash (s : String) : String :=
  if s.toList.getLast? = some '/' then .ofList s.toList.dropLast else s

structure CredentialStatusResponse extends TenantCredentialStatus where
  network : String
  endpoint : String
  mqttEndpoint : String
  topics : List (String × Topics)

def credentialStatusResponse (status : TenantCredentialStatus) (p : Endpoints) (network : String) :
    CredentialStatusResponse :=
  { status with
    network
    endpoint := dropLastSlash (p.publicApiUrl.getD "https://dtis.objectid.io/api/v1")
    mqttEndpoint := p.mqttPublicUrl.getD "wss://dtis.objectid.io/mqtt"
    topics := status.twinIds.map fun twinId => (twinId, Mqtt.topics p.toProvisioning status.tenantId twinId) }

structure DeviceCredentialResponse extends TwinDeviceCredentialStatus where
  specVersion : String
  network : String
  mqttEndpoint : String
  topics : Topics

def deviceCredentialResponse (status : TwinDeviceCredentialStatus) (p : Endpoints) (network : String) :
    DeviceCredentialResponse :=
  { status with
    specVersion := "objectid.device-provisioning.v1"
    network
    mqttEndpoint := p.mqttPublicUrl.getD "wss://dtis.objectid.io/mqtt"
    topics := Mqtt.topics p.toProvisioning status.tenantId status.twinId }

/-! ## What the parties agree on -/

inductive Mode where
  | state | dataset
  deriving DecidableEq

def Mode.text : Mode → String
  | .state => "state"
  | .dataset => "dataset"

/-- The telemetry topic of a mode. -/
def Topics.telemetry (t : Topics) : Mode → String
  | .state => t.state
  | .dataset => t.dataset

/-- What is issued to a tenant for a Twin and a mode is one topic, which the mapping of the loader matches and
the connector reads back. -/
structure Understood (p : Endpoints) (topicPrefix network : String) (tenants : List TenantDefinition)
    (tenant : TenantDefinition) (twinId : String) (mode : Mode) (mapping : MqttMapping) : Prop where
  granted : ∀ k ∈ inUse tenants, k.tenantId = tenant.tenantId → k.isBootstrap = false →
    toLowerCase twinId ∈ k.ids → ∃ b ∈ blocks (aclLines p.toProvisioning tenants), b.user = k.username ∧
      (.write, (topics p.toProvisioning tenant.tenantId (toLowerCase twinId)).telemetry mode) ∈ b.topics
  returned_twin : ∀ credential,
    (deviceCredentialResponse (twinStatusOf tenant twinId credential) p network).topics =
      topics p.toProvisioning tenant.tenantId (toLowerCase twinId)
  returned_tenant : ∀ answer ∈ (credentialStatusResponse (statusOf tenant) p network).topics,
    answer.1 = toLowerCase twinId → answer.2 = topics p.toProvisioning tenant.tenantId (toLowerCase twinId)
  matched : mqttMatch (loadedMapping topicPrefix mapping).topic
    ((topics p.toProvisioning tenant.tenantId (toLowerCase twinId)).telemetry mode)
  parsed : dynamicTenantMapping (loadedMapping topicPrefix mapping)
      ((topics p.toProvisioning tenant.tenantId (toLowerCase twinId)).telemetry mode) =
    some { loadedMapping topicPrefix mapping with
      tenantId := some tenant.tenantId, twinId := toLowerCase twinId, mode := some mode.text }

/-- The prefix starts with the level `objectid`, and `tenants` is its last level and only there; the tenant id
fits one level. -/
structure Fits (topicPrefix tenantId : String) : Prop where
  first : (levels (trimSlashes topicPrefix))[0]? = some "objectid"
  last : (levels (trimSlashes topicPrefix)).idxOf? "tenants" =
    some ((levels (trimSlashes topicPrefix)).length - 1)
  tenant : isTenantLevel tenantId

/-! ## Levels of the topics -/

omit [Runtime] in
theorem sep_notMem_splitChars {sep : Char} {cs level : List Char} (h : level ∈ splitChars sep cs) : sep ∉ level := by
  induction cs generalizing level with
  | nil =>
      obtain rfl := List.mem_singleton.mp h
      exact List.not_mem_nil
  | cons c cs ih =>
      simp only [splitChars] at h
      split at h
      case isTrue =>
        rcases List.mem_cons.mp h with rfl | h
        · exact List.not_mem_nil
        · exact ih h
      case isFalse hne =>
        split at h
        case h_1 first rest hsplit =>
          rcases List.mem_cons.mp h with rfl | h
          · intro hmem
            rcases List.mem_cons.mp hmem with rfl | hmem
            · exact hne rfl
            · exact ih (hsplit ▸ List.mem_cons_self) hmem
          · exact ih (hsplit ▸ List.mem_cons_of_mem _ h)
        case h_2 hsplit => exact absurd hsplit (splitChars_ne_nil sep cs)

omit [Runtime] in
/-- A level has levels of its own only if it is one. -/
theorem levels_of_mem {s level : String} (h : level ∈ levels s) : levels level = [level] := by
  obtain ⟨cs, hcs, rfl⟩ := List.mem_map.mp h
  apply levels_of_not_mem
  rw [String.toList_ofList]
  exact sep_notMem_splitChars hcs

omit [Runtime] in
theorem levels_isTenantLevel {s : String} (h : isTenantLevel s) : levels s = [s] := by
  apply levels_of_not_mem
  simp only [isTenantLevel, Bool.and_eq_true, List.all_eq_true] at h
  intro hslash
  exact absurd (h.2 '/' hslash) (by decide)

omit [Runtime] in
theorem levels_telemetry {p : Provisioning} {topicPrefix id : String} (tenantId : String) (mode : Mode)
    ( hprefix : p.topicPrefix = some topicPrefix) (hid : Sharing.isObjectId id) :
    levels ((topics p tenantId id).telemetry mode) =
      levels (trimSlashes topicPrefix) ++ (levels tenantId ++ ["twins", id, "telemetry", mode.text]) := by
  have htopic : (topics p tenantId id).telemetry mode =
      trimSlashes topicPrefix ++ "/" ++ (tenantId ++ "/" ++ ("twins" ++ "/" ++ (id ++ "/" ++
        ("telemetry" ++ "/" ++ mode.text)))) := by
    apply String.toList_injective
    cases mode <;> simp [topics, Topics.telemetry, Provisioning.telemetryPrefix, hprefix, Mode.text]
  have hmode : levels mode.text = [mode.text] := by cases mode <;> decide
  have htwins : levels "twins" = ["twins"] := by decide
  have htelemetry : levels "telemetry" = ["telemetry"] := by decide
  rw [htopic, levels_append, levels_append, levels_append, levels_append, levels_append, htwins, htelemetry, hmode,
    levels_of_not_mem (slash_notMem_objectId hid)]
  rfl

omit [Runtime] in
theorem matchLevels_append {ps ts : List String} (h : matchLevels ps ts) (ls : List String) :
    matchLevels (ls ++ ps) (ls ++ ts) := by
  induction ls with
  | nil => exact h
  | cons l ls ih => simp [matchLevels, ih]

omit [Runtime] in
theorem isObjectIdText_of_isObjectId {id : String} (h : Sharing.isObjectId id) : ObjectId.isObjectIdText id := by
  unfold Sharing.isObjectId at h
  split at h
  case h_1 rest hchars =>
    simp only [Bool.and_eq_true, List.all_eq_true] at h
    simp only [ObjectId.isObjectIdText, hchars, Bool.and_eq_true, List.all_eq_true]
    refine ⟨⟨by decide, h.1⟩, fun c hc => ?_⟩
    rw [(isLowerHex_ascii (h.2 c hc)).2]
    exact h.2 c hc
  case h_2 => cases h

variable {p : Endpoints} {topicPrefix network : String} {tenants : List TenantDefinition} {tenant : TenantDefinition}
variable {twinId : String} {mode : Mode} {mapping : MqttMapping}

/-- What the reader finds in a telemetry topic, by its levels. -/
theorem dynamicTenantMapping_eq {topic tenantId id : String} {ls : List String}
    (hlevels : levels topic = ls ++ [tenantId, "twins", id, "telemetry", mode.text])
    (hfirst : ls[0]? = some "objectid") (hlast : ls.idxOf? "tenants" = some (ls.length - 1))
    (htenant : isTenantLevel tenantId) (hid : Sharing.isObjectId id) :
    dynamicTenantMapping mapping topic =
      some { mapping with tenantId := some tenantId, twinId := id, mode := some mode.text } := by
  obtain ⟨hlt, htenants, -⟩ := List.idxOf?_eq_some_iff.mp hlast
  have hindex : (levels topic).idxOf? "tenants" = some (ls.length - 1) := by
    rw [hlevels, List.idxOf?, List.findIdx?_append]
    exact (congrArg (Option.or · _) hlast).trans rfl
  have hpos : ¬ ls.length - 1 < 1 := by
    intro hzero
    have hhead : ls[0]? = some "tenants" := by
      rw [← htenants, List.getElem?_eq_getElem (by omega)]
      congr 2
      omega
    exact absurd (hfirst.symm.trans hhead) (by decide)
  have hat (k : Nat) : (levels topic)[ls.length - 1 + (k + 1)]? =
      [tenantId, "twins", id, "telemetry", mode.text][k]? := by
    rw [hlevels, List.getElem?_append_right (by omega)]
    congr 1
    omega
  have hzero : (levels topic)[0]? = some "objectid" := by
    rw [hlevels, List.getElem?_append_left (by omega), hfirst]
  have hlength : (levels topic).length = ls.length - 1 + 6 := by
    rw [hlevels, List.length_append]
    simp only [List.length_cons, List.length_nil]
    omega
  have hmode : mode.text ∈ ["state", "dataset"] := by cases mode <;> decide
  have htenantId : (levels topic)[ls.length - 1 + 1]? = some tenantId := hat 0
  have htwins : (levels topic)[ls.length - 1 + 2]? = some "twins" := hat 1
  have htwinId : (levels topic)[ls.length - 1 + 3]? = some id := hat 2
  have htelemetry : (levels topic)[ls.length - 1 + 4]? = some "telemetry" := hat 3
  have hmodeAt : (levels topic)[ls.length - 1 + 5]? = some mode.text := hat 4
  rw [dynamicTenantMapping, hindex, Option.bind_some]
  simp only [hzero, hlength, htenantId, htwins, htwinId, htelemetry, hmodeAt, Option.getD_some,
    toLowerCase_objectId hid, htenant, isObjectIdText_of_isObjectId hid, hmode, hpos, ne_eq, not_true_eq_false,
    or_self, if_false, Bool.true_eq_false]

/-- What the reader accepts with the tenant id that was issued. -/
theorem fits_of_dynamicTenantMapping {m : MqttMapping} {topic tenantId id : String} {ls : List String}
    (hlevels : levels topic = ls ++ (levels tenantId ++ ["twins", id, "telemetry", mode.text]))
    (h : dynamicTenantMapping mapping topic = some m) (htenant : m.tenantId = some tenantId) :
    ls[0]? = some "objectid" ∧ ls.idxOf? "tenants" = some (ls.length - 1) ∧ isTenantLevel tenantId := by
  obtain ⟨index, hindex, h⟩ := Option.bind_eq_some_iff.mp h
  split at h
  · cases h
  case isFalse hshape =>
    dsimp only at h
    split at h
    · cases h
    case isFalse hvalid =>
      obtain rfl := Option.some.inj h
      simp only [ne_eq, not_or, Decidable.not_not, Option.some.injEq, Bool.not_eq_false] at hshape hvalid htenant
      obtain ⟨hzero, hpos, hlength, -, -⟩ := hshape
      rw [htenant] at hvalid
      -- the tenant id that was read is one level, so it was issued as one
      have hone : levels tenantId = [tenantId] := levels_isTenantLevel hvalid.1
      rw [hone] at hlevels
      rw [hlevels] at hlength hzero hindex
      simp only [List.length_append, List.length_cons, List.length_nil] at hlength
      have hlast : index = ls.length - 1 := by omega
      subst hlast
      refine ⟨?_, ?_, hvalid.1⟩
      · rwa [List.getElem?_append_left (by omega)] at hzero
      · obtain ⟨hlt, hat, hbefore⟩ := List.idxOf?_eq_some_iff.mp hindex
        refine List.idxOf?_eq_some_iff.mpr ⟨by omega, ?_, fun j hj => ?_⟩
        · rwa [List.getElem_append_left (by omega)] at hat
        · have hne := hbefore j hj
          rwa [List.getElem_append_left (by omega)] at hne

/-! ## When the parties agree -/

omit [Runtime] in
/-- A credential in use for a Twin has its telemetry topics in the access list. -/
theorem granted_of_inUse {p : Provisioning} {k : Credential} {id : String} (hk : k ∈ inUse tenants)
    (htwin : k.isBootstrap = false) (hid : id ∈ k.ids) :
    ∃ b ∈ blocks (aclLines p tenants), b.user = k.username ∧
      (.write, (topics p k.tenantId id).telemetry mode) ∈ b.topics := by
  refine ⟨k.block p, ?_, rfl, ?_⟩
  · rw [blocks_aclLines]
    exact List.mem_cons_of_mem _ (List.mem_map_of_mem hk)
  · have htopics : k.topicsOf p id = twinTopics p k.tenantId id := by
      cases k with
      | external t => rfl
      | device t c => exact if_neg (Bool.eq_false_iff.mp htwin)
    refine List.mem_filterMap.mpr ⟨.topic .write ((topics p k.tenantId id).telemetry mode), ?_, rfl⟩
    refine List.mem_flatMap.mpr ⟨id, hid, ?_⟩
    rw [htopics]
    cases mode
    · exact List.mem_cons_self
    · exact List.mem_cons_of_mem _ List.mem_cons_self

/-- What is issued for a Twin is understood exactly when the prefix and the tenant id fit. -/
theorem understood_iff_fits ( hprefix : p.topicPrefix = some topicPrefix)
    (htwin : Sharing.isObjectId (toLowerCase twinId)) (hdynamic : mapping.dynamicTenantTopic = true)
    (hmode : mapping.mode.getD "dataset" = mode.text) :
    Understood p topicPrefix network tenants tenant twinId mode mapping ↔ Fits topicPrefix tenant.tenantId := by
  have hlevels := levels_telemetry tenant.tenantId mode hprefix htwin
  constructor
  · intro h
    obtain ⟨hfirst, hlast, htenant⟩ := fits_of_dynamicTenantMapping hlevels h.parsed rfl
    exact ⟨hfirst, hlast, htenant⟩
  · rintro ⟨hfirst, hlast, htenant⟩
    rw [levels_isTenantLevel htenant] at hlevels
    refine ⟨?_, fun _ => rfl, ?_, ?_, dynamicTenantMapping_eq hlevels hfirst hlast htenant htwin⟩
    · intro k hk htenantId hbootstrap hid
      rw [← htenantId]
      exact granted_of_inUse hk hbootstrap hid
    · intro answer hanswer hid
      obtain ⟨id, -, rfl⟩ := List.mem_map.mp hanswer
      exact congrArg (topics p.toProvisioning tenant.tenantId) hid
    · have hfilter : levels (loadedMapping topicPrefix mapping).topic =
          levels (trimSlashes topicPrefix) ++ ["+", "twins", "+", "telemetry", mode.text] := by
        have htopic : (loadedMapping topicPrefix mapping).topic = trimSlashes topicPrefix ++ "/" ++
            ("+" ++ "/" ++ ("twins" ++ "/" ++ ("+" ++ "/" ++ ("telemetry" ++ "/" ++ mode.text)))) := by
          apply String.toList_injective
          simp [loadedMapping, hdynamic, hmode]
        have hlast : levels mode.text = [mode.text] := by cases mode <;> decide
        have hplus : levels "+" = ["+"] := by decide
        have htwins : levels "twins" = ["twins"] := by decide
        have htelemetry : levels "telemetry" = ["telemetry"] := by decide
        rw [htopic, levels_append, levels_append, levels_append, levels_append, levels_append, hplus, htwins,
          htelemetry, hlast]
        rfl
      rw [mqttMatch, hfilter, hlevels]
      exact matchLevels_append (by simp [matchLevels]) _

end

/-! ## A prefix of another name -/

/-- A server with the prefix. -/
def prefixEndpoints (topicPrefix : String) : Endpoints :=
  { plantProvisioning with topicPrefix := some topicPrefix, publicApiUrl := none, mqttPublicUrl := none }

def stateMapping : MqttMapping :=
  { topic := "objectid/tenants/+/twins/+/telemetry/state", twinId := "dynamic", mode := some "state",
    dynamicTenantTopic := true }

/-- An entry of the dynamic file. -/
def registeredTenant : TenantDefinition :=
  { plantAccounting "mainnet-plant" 'a' with apiKeyHash := some (.ofList (.replicate 64 'b')) }

theorem isObjectId_lower [Runtime] {digit : Char} (h : isLowerHex digit) :
    Sharing.isObjectId (toLowerCase (objectId digit)) := by
  have hid : Sharing.isObjectId (objectId digit) := Sharing.isObjectId_objectId h
  rwa [Sharing.toLowerCase_of_ascii (Sharing.ascii_of_isObjectId hid)]

theorem validateTenant_registered [Runtime] : validateTenant registeredTenant 0 = .ok registeredTenant.read := by
  refine validateTenant_of_valid 0 (by decide) (by decide) (isOwnerDid_objectId rfl) rfl ?_
    (Sharing.isObjectId_objectId rfl)
  rw [String.toList_ofList]
  decide

theorem understood_iff_fits_mainnet :
    @Understood .ascii (prefixEndpoints "objectid/mainnet/tenants") "objectid/mainnet/tenants" "mainnet"
      [registeredTenant] registeredTenant (objectId '1') .state stateMapping := by
  let _ : Runtime := .ascii
  refine (understood_iff_fits rfl (isObjectId_lower rfl) rfl rfl).mpr ⟨?_, ?_, ?_⟩
  · decide +kernel
  · decide +kernel
  · decide +kernel

/-- Topics under the prefix `acme/tenants` are issued and matched, and not understood. -/
theorem topics_not_understood : ¬ ∀ (topicPrefix : String) (value tenant : TenantDefinition) (index : Nat)
    (twinId : String) (mode : Mode) (mapping : MqttMapping), topicPrefix ≠ "" →
    @validateTenant .ascii value index = .ok tenant → Sharing.isObjectId (@toLowerCase .ascii twinId) →
    mapping.dynamicTenantTopic = true → mapping.mode.getD "dataset" = mode.text →
    @Understood .ascii (prefixEndpoints topicPrefix) topicPrefix "mainnet" [value] tenant twinId mode mapping := by
  intro h
  have hparsed := @Understood.parsed .ascii _ _ _ _ _ _ _ _ (h "acme/tenants" registeredTenant
    (@TenantDefinition.read .ascii registeredTenant) 0 (objectId '1') .state stateMapping (by decide)
    (@validateTenant_registered .ascii) (@isObjectId_lower .ascii '1' rfl) rfl rfl)
  exact absurd hparsed (by decide +kernel)

end Mqtt
