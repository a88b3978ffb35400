-- SUMMARY: The access list read block by block: one block for each credential that is in use.
import TwinServer.Security.TenantRegistry

/-!
# The blocks of the access list

A block is a `user` line with the topic lines under it. The list that `rewriteMqttAcl` writes has the block
of the service and one for each credential of the tenants that is in use, in their order, and a block names
the topics of the credential's Twins or of its device alone.
-/

open Js

namespace Security

/-! ## Reading the list -/

/-- A user, and the topics that stand under it. -/
structure Block where
  user : String
  topics : List (Access × String)
  deriving DecidableEq

/-- The topic lines up to the next user. -/
def topicsHead : List AclLine → List (Access × String)
  | .topic access filter :: lines => (access, filter) :: topicsHead lines
  | .blank :: lines => topicsHead lines
  | _ => []

@[local grind] def blocks : List AclLine → List Block
  | [] => []
  | .user name :: lines => ⟨name, topicsHead lines⟩ :: blocks lines
  | _ :: lines => blocks lines

/-- The lines are empty or begin with a user. -/
def StartsBlock : List AclLine → Prop
  | [] => True
  | line :: _ => ∃ name, line = .user name

/-- The lines of one block, as the writer puts them. -/
def Block.lines (b : Block) : List AclLine :=
  .user b.user :: (b.topics.map fun line => .topic line.1 line.2) ++ [.blank]

theorem topicsHead_topics (topics : List (Access × String)) {rest : List AclLine} (h : StartsBlock rest) :
    topicsHead ((topics.map fun line => .topic line.1 line.2) ++ .blank :: rest) = topics := by
  induction topics with
  | nil =>
      cases rest with
      | nil => rfl
      | cons line rest =>
          obtain ⟨name, rfl⟩ := h
          rfl
  | cons line topics ih => exact congrArg (line :: ·) ih

theorem blocks_topics (topics : List (Access × String)) (rest : List AclLine) :
    blocks ((topics.map fun line => .topic line.1 line.2) ++ .blank :: rest) = blocks rest := by
  induction topics with
  | nil => rfl
  | cons line topics ih => exact ih

/-- What is written block by block is read block by block. -/
theorem blocks_lines (bs : List Block) :
    blocks (bs.flatMap Block.lines) = bs ∧ StartsBlock (bs.flatMap Block.lines) := by
  induction bs with
  | nil => exact ⟨rfl, trivial⟩
  | cons b bs ih =>
      refine ⟨?_, b.user, rfl⟩
      rw [List.flatMap_cons, Block.lines, List.append_assoc, List.cons_append, List.singleton_append, blocks,
        topicsHead_topics b.topics ih.2, blocks_topics, ih.1]

/-! ## Credentials in use -/

/-- A credential of a tenant: that of the tenant itself, or of one of its devices. -/
inductive Credential where
  | external (t : TenantDefinition)
  | device (t : TenantDefinition) (c : TwinDeviceCredential)

/-- `active` of `statusOf`. -/
def TenantDefinition.active (t : TenantDefinition) : Bool :=
  (t.mqttUsername.filter (· != "")).isSome && (t.externalApiKeyHash.filter (· != "")).isSome &&
    t.credentialsRevokedAt.isNone

/-- The device credentials that are not revoked. -/
def TenantDefinition.activeDevices (t : TenantDefinition) : List Credential :=
  (t.devices.filter (·.revokedAt.isNone)).map (.device t)

/-- The credentials in use, those of the tenants before those of the devices. -/
def inUse (tenants : List TenantDefinition) : List Credential :=
  (tenants.filter (·.active)).map .external ++ tenants.flatMap TenantDefinition.activeDevices

def Credential.username : Credential → String
  | .external t => t.mqttUsername.getD ""
  | .device _ c => c.username

def Credential.tenantId : Credential → String
  | .external t => t.tenantId
  | .device t _ => t.tenantId

/-- The credential is that of a device which is not a Twin yet. -/
def Credential.isBootstrap : Credential → Bool
  | .external _ => false
  | .device _ c => c.bootstrap

/-- The Twins of the credential, or its device. -/
def Credential.ids : Credential → List String
  | .external t => t.mqttTwinIds.getD []
  | .device _ c => [c.twinId]

/-- The topic of a device that is not a Twin yet. -/
def deviceTopics (p : Provisioning) (tenantId deviceId : String) : List AclLine :=
  [.topic .write (p.telemetryPrefix ++ "/" ++ tenantId ++ "/devices/" ++ deviceId ++ "/telemetry")]

/-- The topic lines of one of the credential's Twins, or of its device. -/
def Credential.topicsOf (k : Credential) (p : Provisioning) (id : String) : List AclLine :=
  match k with
  | .external t => twinTopics p t.tenantId id
  | .device t c => if c.bootstrap then deviceTopics p t.tenantId id else twinTopics p t.tenantId id

def AclLine.topic? : AclLine → Option (Access × String)
  | .topic access filter => some (access, filter)
  | _ => none

/-- The block of a credential: the topics of its Twins or of its device, and no others. -/
def Credential.block (p : Provisioning) (k : Credential) : Block :=
  ⟨k.username, (k.ids.flatMap (k.topicsOf p)).filterMap AclLine.topic?⟩

/-- The block of the service. -/
def serviceBlock (p : Provisioning) : Block :=
  ⟨p.serviceUsername, [(.readwrite, "#"), (.read, "$SYS/#")]⟩

/-! ## The list of the credentials -/

variable {p : Provisioning} {t : TenantDefinition} {c : TwinDeviceCredential}

theorem topics_of_filterMap {lines : List AclLine} (h : ∀ l ∈ lines, ∃ access filter, l = .topic access filter) :
    ((lines.filterMap AclLine.topic?).map fun line => AclLine.topic line.1 line.2) = lines := by
  induction lines with
  | nil => rfl
  | cons l lines ih =>
      obtain ⟨access, filter, rfl⟩ := h l List.mem_cons_self
      exact congrArg (AclLine.topic access filter :: ·) (ih fun l hl => h l (List.mem_cons_of_mem _ hl))

theorem topic_of_twinTopics {tenantId id : String} {l : AclLine} (h : l ∈ twinTopics p tenantId id) :
    ∃ access filter, l = .topic access filter := by
  simp only [twinTopics, List.mem_cons, List.not_mem_nil, or_false] at h
  rcases h with rfl | rfl | rfl | rfl <;> exact ⟨_, _, rfl⟩

theorem topic_of_topicsOf {k : Credential} {id : String} {l : AclLine} (h : l ∈ k.topicsOf p id) :
    ∃ access filter, l = .topic access filter := by
  cases k with
  | external t => exact topic_of_twinTopics h
  | device t c =>
    simp only [Credential.topicsOf] at h
    split at h
    · obtain rfl := List.mem_singleton.mp h
      exact ⟨_, _, rfl⟩
    · exact topic_of_twinTopics h

theorem lines_block (p : Provisioning) (k : Credential) :
    (k.block p).lines = .user k.username :: k.ids.flatMap (k.topicsOf p) ++ [.blank] := by
  rw [Block.lines, Credential.block, topics_of_filterMap]
  intro l hl
  obtain ⟨id, -, hl⟩ := List.mem_flatMap.mp hl
  exact topic_of_topicsOf hl

theorem tenantLines_eq (p : Provisioning) (t : TenantDefinition) :
    tenantLines p t = if t.active then ((Credential.external t).block p).lines else [] := by
  rw [lines_block]
  unfold tenantLines TenantDefinition.active
  cases husername : t.mqttUsername.filter (· != "") with
  | none => rfl
  | some username =>
    cases t.externalApiKeyHash.filter (· != "") with
    | none => rfl
    | some hash =>
      cases t.credentialsRevokedAt with
      | some at_ => rfl
      | none =>
        have hname : t.mqttUsername = some username := (Option.filter_eq_some_iff.mp husername).1
        simp only [Credential.username, Credential.ids, hname]
        rfl

theorem deviceLines_eq (p : Provisioning) (t : TenantDefinition) (c : TwinDeviceCredential) :
    deviceLines p t.tenantId c =
      if c.revokedAt.isNone then ((Credential.device t c).block p).lines else [] := by
  rw [lines_block]
  unfold deviceLines
  cases c.revokedAt with
  | some at_ => rfl
  | none =>
    simp only [Option.isSome_none, Option.isNone_none, Bool.false_eq_true, if_false, if_true,
      Credential.username, Credential.ids, Credential.topicsOf, List.flatMap_singleton]
    split <;> rfl

theorem flatMap_ite {α β : Type} (q : α → Bool) (f : α → List β) (l : List α) :
    (l.flatMap fun x => if q x then f x else []) = (l.filter q).flatMap f := by
  induction l with
  | nil => rfl
  | cons x l ih =>
      rw [List.flatMap_cons, ih, List.filter_cons]
      split
      · rw [List.flatMap_cons]
      · rfl

/-- A block grants only topics of the credential's Twins, or of its device. -/
theorem mem_block {k : Credential} {line : Access × String} (h : line ∈ (k.block p).topics) :
    ∃ id ∈ k.ids, .topic line.1 line.2 ∈ k.topicsOf p id := by
  obtain ⟨l, hl, htopic⟩ := List.mem_filterMap.mp h
  obtain ⟨id, hid, hl⟩ := List.mem_flatMap.mp hl
  obtain ⟨access, filter, rfl⟩ := topic_of_topicsOf hl
  obtain rfl := Option.some.inj htopic
  exact ⟨id, hid, hl⟩

/-- The access list has the service's block and one for each credential in use. -/
theorem blocks_aclLines (p : Provisioning) (tenants : List TenantDefinition) :
    blocks (aclLines p tenants) = serviceBlock p :: (inUse tenants).map (Credential.block p) := by
  have hlines : aclLines p tenants =
      (serviceBlock p :: (inUse tenants).map (Credential.block p)).flatMap Block.lines := by
    have htenants : tenants.flatMap (tenantLines p) =
        ((tenants.filter (·.active)).map .external).flatMap fun k => (Credential.block p k).lines := by
      rw [List.flatMap_map, ← flatMap_ite]
      exact List.flatMap_congr fun t _ => tenantLines_eq p t
    have hdevices : (tenants.flatMap fun t => t.devices.flatMap (deviceLines p t.tenantId)) =
        (tenants.flatMap TenantDefinition.activeDevices).flatMap fun k => (Credential.block p k).lines := by
      rw [List.flatMap_assoc]
      refine List.flatMap_congr fun t _ => ?_
      rw [TenantDefinition.activeDevices, List.flatMap_map, ← flatMap_ite]
      exact List.flatMap_congr fun c _ => deviceLines_eq p t c
    rw [aclLines, htenants, hdevices, List.append_assoc, ← List.flatMap_append, List.flatMap_cons,
      List.flatMap_map]
    rfl
  rw [hlines]
  exact (blocks_lines _).1

end Security
