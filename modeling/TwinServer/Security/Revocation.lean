-- SUMMARY: Sequential runs of the tenant operations: the access list, revocations and the versions of the credentials.
import TwinServer.Security.Authentication
import TwinServer.Security.Blocks
import TwinServer.Security.DeviceCredentials

/-!
# Revocation

The operations of `src/security/tenants.ts` one after the other, each of them resolved. Every rotation and
every revocation leaves the access list with the blocks of the credentials in use, a revoked credential is not
among them until it is rotated, its external key is not accepted for its sake, and versions only grow.
-/

open Js

namespace Security

section
variable [Runtime]

/-! ## Runs -/

/-- An operation that resolves: its edit is written, and the broker has done what it was asked. -/
def perform (sha256 : String → String) (p : Provisioning) (s : CredentialState) (op : Operation × Int) :
    Option CredentialState :=
  if op.1.invalid then none
  else
    match op.1.edit sha256 s.file op.2 with
    | .error _ => none
    | .ok e => some { file := e.tenants, broker := e.actions.foldl (·.apply p) s.broker }

def performAll (sha256 : String → String) (p : Provisioning) (s : CredentialState)
    (ops : List (Operation × Int)) : Option CredentialState :=
  ops.foldlM (perform sha256 p) s

/-- A rotation or a revocation, which rewrites the access list. -/
def Operation.rewrites : Operation → Bool
  | .saveDynamic _ _ => false
  | _ => true

def CredentialKey.owner : CredentialKey → String
  | .external ownerDid | .device ownerDid _ => ownerDid

/-- The operation revokes the credential. -/
def Operation.revokes : Operation → CredentialKey → Prop
  | .revokeTwin ownerDid twinId, .device owner twin =>
    toLowerCase ownerDid = toLowerCase owner ∧ toLowerCase twinId = toLowerCase twin
  | .revokeExternal ownerDid _, .external owner => toLowerCase ownerDid = toLowerCase owner
  | .revokeExternal ownerDid true, .device owner _ => toLowerCase ownerDid = toLowerCase owner
  | _, _ => False

/-- The credential is the one of the key. -/
def Credential.isOf : Credential → CredentialKey → Prop
  | .external t, .external owner => t.ownedBy owner
  | .device t c, .device owner twin => t.ownedBy owner ∧ c.ofTwin twin
  | _, _ => False

/-- The version of a credential in an entry; zero before its first rotation. -/
def TenantDefinition.version (t : TenantDefinition) : CredentialKey → Nat
  | .external _ => t.credentialsVersion.getD 0
  | .device _ twin => (t.devices.find? (·.ofTwin twin)).elim 0 TwinDeviceCredential.version

def version (tenants : List TenantDefinition) (key : CredentialKey) : Nat :=
  (tenants.find? (·.ownedBy key.owner)).elim 0 (·.version key)

/-- No two entries have one owner. -/
def OwnersApart (tenants : List TenantDefinition) : Prop :=
  (tenants.map fun t => toLowerCase t.ownerDid).Nodup

variable {sha256 : String → String} {p : Provisioning} {s s' : CredentialState}
variable {tenants : List TenantDefinition} {op : Operation} {now : Int} {e : Edit} {key : CredentialKey}

theorem perform_eq_some {o : Operation × Int} (h : perform sha256 p s o = some s') :
    ∃ e, o.1.edit sha256 s.file o.2 = .ok e ∧ s'.file = e.tenants ∧
      s'.broker = e.actions.foldl (·.apply p) s.broker := by
  unfold perform at h
  split at h
  · cases h
  · split at h
    · cases h
    case h_2 e hedit =>
      obtain rfl := Option.some.inj h
      exact ⟨e, hedit, rfl, rfl⟩

/-! ## One edit -/

/-- What an operation asks of the broker: at the end of a rotation or revocation the access list of the
tenants it has written, and for a registration nothing. -/
theorem actions_of_edit (h : op.edit sha256 tenants now = .ok e) :
    if op.rewrites then ∃ actions, e.actions = actions ++ [.rewriteAcl e.tenants] else e.actions = [] := by
  cases op with
  | saveDynamic accounting apiKey =>
    obtain rfl := Except.ok.inj h
    rfl
  | rotateExternal | rotateTwin | rotateBootstrap | revokeTwin | revokeExternal =>
    obtain ⟨_, _, _, _, _, hactions⟩ := editOwner_eq_ok h
    exact ⟨_, hactions⟩

/-- The file that the access list of a state was written from, after an operation. -/
theorem acl_of_perform {o : Operation × Int} (hacl : p.aclFile = true) (h : perform sha256 p s o = some s') :
    s'.broker.acl = if o.1.rewrites then aclLines p s'.file else s.broker.acl := by
  obtain ⟨e, hedit, hfile, hbroker⟩ := perform_eq_some h
  have hactions := actions_of_edit hedit
  rw [hfile, hbroker]
  split
  case isTrue hrewrites =>
    rw [if_pos hrewrites] at hactions
    obtain ⟨actions, hactions⟩ := hactions
    rw [hactions, List.foldl_append, List.foldl_cons, List.foldl_nil, Broker.apply, if_pos hacl]
  case isFalse hrewrites =>
    rw [if_neg hrewrites] at hactions
    rw [hactions, List.foldl_nil]

theorem OwnersApart.edit (h : OwnersApart tenants) (hedit : op.edit sha256 tenants now = .ok e) :
    OwnersApart e.tenants := by
  have hmodify {ownerDid : String} {next : TenantDefinition → TenantDefinition}
      {actions : TenantDefinition → List BrokerAction} (hedit : editOwner tenants ownerDid next actions = .ok e)
      (hnext : ∀ t, (next t).ownerDid = t.ownerDid) : OwnersApart e.tenants := by
    obtain ⟨index, t, -, -, htenants, -⟩ := editOwner_eq_ok hedit
    rw [OwnersApart, htenants, map_modify_of_eq fun t => by rw [hnext]]
    exact h
  cases op with
  | saveDynamic accounting apiKey =>
    obtain rfl := Except.ok.inj hedit
    rw [OwnersApart, List.map_append, List.nodup_append]
    refine ⟨h.sublist (List.filter_sublist.map _), List.nodup_singleton _, ?_⟩
    intro a ha b hb hab
    obtain ⟨t, ht, rfl⟩ := List.mem_map.mp ha
    have hne := (List.mem_filter.mp ht).2
    have hb : b = toLowerCase accounting.ownerDid := by
      simp only [List.map_cons, List.map_nil, List.mem_singleton] at hb
      rw [hb]
      cases tenants.find? (·.ownedBy accounting.ownerDid) <;> rfl
    simp [TenantDefinition.ownedBy, hab, hb] at hne
  | rotateExternal => exact hmodify hedit fun t => rfl
  | rotateTwin => exact hmodify hedit fun t => rfl
  | rotateBootstrap => exact hmodify hedit fun t => rfl
  | revokeTwin => exact hmodify hedit fun t => rfl
  | revokeExternal => exact hmodify hedit fun t => rfl

/-- After an edit of its owner's entry a credential is in use through the new entry alone. -/
theorem OwnersApart.active_editOwner {ownerDid owner : String} {next : TenantDefinition → TenantDefinition}
    {actions : TenantDefinition → List BrokerAction} (h : OwnersApart tenants)
    (hedit : editOwner tenants ownerDid next actions = .ok e) (howner : toLowerCase ownerDid = toLowerCase owner)
    {t' : TenantDefinition} (ht' : t' ∈ e.tenants)
    (hown : t'.ownedBy owner) : ∃ t ∈ tenants, t' = next t := by
  obtain ⟨index, t, ht, hown₀, htenants, -⟩ := editOwner_eq_ok hedit
  rw [htenants] at ht'
  obtain ⟨n, hn, rfl⟩ := List.mem_iff_getElem.mp ht'
  rw [List.length_modify] at hn
  rw [List.getElem_modify] at hown ⊢
  split
  case isTrue => exact ⟨_, List.getElem_mem hn, rfl⟩
  case isFalse hne =>
    -- another entry of the owner
    rw [if_neg hne] at hown
    obtain ⟨hindex, rfl⟩ := List.getElem?_eq_some_iff.mp ht
    refine absurd ((@List.Nodup.getElem_inj_iff _ _ h _ (by simpa using hindex) _ (by simpa using hn)).mp ?_) hne
    simp only [TenantDefinition.ownedBy, beq_iff_eq] at hown hown₀
    simp only [List.getElem_map]
    rw [hown₀, howner, hown]

/-- A revocation leaves no entry that lets the credential be used. -/
theorem not_active_of_revokes (h : OwnersApart tenants) (hedit : op.edit sha256 tenants now = .ok e)
    (hrevokes : op.revokes key) : ¬ Active e.tenants key := by
  intro hactive
  cases op with
  | saveDynamic | rotateExternal | rotateTwin | rotateBootstrap => cases key <;> exact hrevokes
  | revokeTwin ownerDid twinId =>
    cases key with
    | external owner => exact hrevokes
    | device owner twin =>
      obtain ⟨howner, htwin⟩ := hrevokes
      obtain ⟨t', ht', hown, c, hc, hof, hnone⟩ := hactive
      obtain ⟨t, -, rfl⟩ := h.active_editOwner hedit howner ht' hown
      obtain ⟨c₀, -, rfl⟩ := List.mem_map.mp hc
      split at hnone
      · cases hnone
      case isFalse hne =>
        rw [if_neg hne] at hof
        simp only [TwinDeviceCredential.ofTwin, htwin] at hne hof
        exact hne hof
  | revokeExternal ownerDid revokeDevices =>
    cases key with
    | external owner =>
      obtain ⟨t', ht', hown, hhash⟩ := hactive
      obtain ⟨t, -, rfl⟩ := h.active_editOwner hedit hrevokes ht' hown
      cases hhash
    | device owner twin =>
      cases revokeDevices with
      | false => exact hrevokes
      | true =>
        obtain ⟨t', ht', hown, c, hc, -, hnone⟩ := hactive
        obtain ⟨t, -, rfl⟩ := h.active_editOwner hedit hrevokes ht' hown
        obtain ⟨c₀, -, rfl⟩ := List.mem_map.mp hc
        cases hnone

end

/-! ## Versions -/

section
variable {α : Type} {q r : α → Bool} {next : α → α} {l : List α} {index : Nat}

/-- The first element with a property, after an edit of it that keeps the property. -/
theorem find?_modify_same (h : l.findIdx? q = some index) (hq : ∀ x, q (next x) = q x) :
    (l.modify index next).find? q = (l.find? q).map next := by
  induction l generalizing index with
  | nil => cases h
  | cons x l ih =>
      rw [List.findIdx?_cons] at h
      split at h
      case isTrue hx =>
        obtain rfl := Option.some.inj h
        rw [List.modify_zero_cons, List.find?_cons_of_pos (hq x ▸ hx), List.find?_cons_of_pos hx, Option.map_some]
      case isFalse hx =>
        obtain ⟨n, hn, rfl⟩ := Option.map_eq_some_iff.mp h
        rw [List.modify_succ_cons, List.find?_cons_of_neg hx, List.find?_cons_of_neg hx, ih hn]

/-- The first element with a property, after an edit of another element. -/
theorem find?_modify_other (h : l.findIdx? q = some index) (hr : ∀ x, r (next x) = r x)
    (hapart : ∀ x, q x → r x = false) : (l.modify index next).find? r = l.find? r := by
  induction l generalizing index with
  | nil => cases h
  | cons x l ih =>
      rw [List.findIdx?_cons] at h
      split at h
      case isTrue hx =>
        obtain rfl := Option.some.inj h
        have hx' := hapart x hx
        rw [List.modify_zero_cons, List.find?_cons_of_neg (by simp [hr, hx']),
          List.find?_cons_of_neg (by simp [hx'])]
      case isFalse hx =>
        obtain ⟨n, hn, rfl⟩ := Option.map_eq_some_iff.mp h
        rw [List.modify_succ_cons, List.find?_cons, List.find?_cons, ih hn]

end

section
variable [Runtime] {sha256 : String → String} {tenants : List TenantDefinition} {op : Operation} {now : Int}
variable {e : Edit} {key : CredentialKey}

/-- An edit of one entry changes the versions of its owner's credentials alone. -/
theorem version_editOwner (key : CredentialKey) {ownerDid : String} {next : TenantDefinition → TenantDefinition}
    {actions : TenantDefinition → List BrokerAction} (h : editOwner tenants ownerDid next actions = .ok e)
    (hnext : ∀ t, (next t).ownerDid = t.ownerDid) :
    (toLowerCase ownerDid ≠ toLowerCase key.owner ∧ version e.tenants key = version tenants key) ∨
      ∃ t, version tenants key = t.version key ∧ version e.tenants key = (next t).version key := by
  have howned (o : String) (t : TenantDefinition) : (next t).ownedBy o = t.ownedBy o := by
    rw [TenantDefinition.ownedBy, hnext, TenantDefinition.ownedBy]
  simp only [editOwner] at h
  split at h
  case h_1 => cases h
  case h_2 index hindex =>
    obtain rfl := Except.ok.inj h
    by_cases howner : toLowerCase ownerDid = toLowerCase key.owner
    · have hsame : (fun t : TenantDefinition => t.ownedBy ownerDid) = (·.ownedBy key.owner) := by
        funext t
        rw [TenantDefinition.ownedBy, howner, TenantDefinition.ownedBy]
      rw [hsame] at hindex
      obtain ⟨t, ht⟩ : ∃ t, tenants.find? (·.ownedBy key.owner) = some t := by
        rw [← Option.isSome_iff_exists, List.find?_isSome]
        obtain ⟨hlt, hown, -⟩ := List.findIdx?_eq_some_iff_getElem.mp hindex
        exact ⟨_, List.getElem_mem hlt, hown⟩
      refine .inr ⟨t, ?_, ?_⟩
      · rw [version, ht, Option.elim_some]
      · rw [version, find?_modify_same hindex (howned key.owner), ht, Option.map_some, Option.elim_some]
    · refine .inl ⟨howner, ?_⟩
      rw [version, find?_modify_other hindex (howned key.owner), version]
      intro t ht
      simp only [TenantDefinition.ownedBy, beq_iff_eq, beq_eq_false_iff_ne] at ht ⊢
      rwa [ht]

/-- A rotation of a device credential gives it a greater version and leaves the others theirs. -/
theorem version_rotateDevice (key : CredentialKey) (now : Int)
    (hlower : ∀ s, toLowerCase (toLowerCase s) = toLowerCase s) (t : TenantDefinition)
    (twinId username : String) (bootstrap : Bool) :
    t.version key ≤ (t.rotateDevice twinId username bootstrap now).version key ∧
      (∀ owner twin, key = .device owner twin → toLowerCase (toLowerCase twinId) = toLowerCase twin →
        t.version key < (t.rotateDevice twinId username bootstrap now).version key) := by
  cases key with
  | external owner => exact ⟨Nat.le_refl _, fun _ _ h => (nomatch h)⟩
  | device owner twin =>
    have hdevices : (t.rotateDevice twinId username bootstrap now).devices =
        t.devices.filter (fun c => !c.ofTwin twinId) ++ [rotatedCredential t twinId username bootstrap now] := rfl
    have hnew : (rotatedCredential t twinId username bootstrap now).ofTwin twin =
        (toLowerCase twinId == toLowerCase twin) := by
      rw [TwinDeviceCredential.ofTwin, rotatedCredential, hlower]
    by_cases hsame : toLowerCase twinId = toLowerCase twin
    · have hof : (fun c : TwinDeviceCredential => c.ofTwin twinId) = (·.ofTwin twin) := by
        funext c
        rw [TwinDeviceCredential.ofTwin, hsame, TwinDeviceCredential.ofTwin]
      have hgone : (t.devices.filter fun c => !c.ofTwin twinId).find? (·.ofTwin twin) = none := by
        rw [List.find?_eq_none]
        intro c hc
        have hne := (List.mem_filter.mp hc).2
        simpa [congrFun hof c] using hne
      have hlt : t.version (.device owner twin) <
          (t.rotateDevice twinId username bootstrap now).version (.device owner twin) := by
        simp only [TenantDefinition.version, hdevices]
        rw [List.find?_append, hgone, Option.none_or, List.find?_cons_of_pos (by rw [hnew, hsame, beq_self_eq_true]),
          Option.elim_some]
        simp only [rotatedCredential, hof]
        exact Nat.lt_succ_self _
      exact ⟨hlt.le, fun _ _ _ _ => hlt⟩
    · have hkept : (t.devices.filter fun c => !c.ofTwin twinId).find? (·.ofTwin twin) =
          t.devices.find? (·.ofTwin twin) := by
        rw [List.find?_filter]
        congr 1
        funext c
        by_cases hc : c.ofTwin twin
        · have hne : c.ofTwin twinId = false := by
            simp only [TwinDeviceCredential.ofTwin, beq_iff_eq, beq_eq_false_iff_ne] at hc ⊢
            rw [hc]
            exact Ne.symm hsame
          simp [hc, hne]
        · simp [hc]
      have heq : (t.rotateDevice twinId username bootstrap now).version (.device owner twin) =
          t.version (.device owner twin) := by
        have hother : [rotatedCredential t twinId username bootstrap now].find? (·.ofTwin twin) = none := by
          rw [List.find?_eq_none]
          intro c hc
          obtain rfl := List.mem_singleton.mp hc
          rw [hnew, beq_iff_eq]
          exact hsame
        simp only [TenantDefinition.version, hdevices]
        rw [List.find?_append, hkept, hother, Option.or_none]
      refine ⟨heq.ge, fun owner' twin' hkey htwin => absurd ?_ hsame⟩
      obtain ⟨-, rfl⟩ := CredentialKey.device.inj hkey
      rw [← htwin, hlower]

/-- An edit of the devices that leaves their Twins and versions. -/
theorem version_mapDevices {f : TwinDeviceCredential → TwinDeviceCredential} {t t' : TenantDefinition}
    (hf : ∀ c, (f c).twinId = c.twinId ∧ (f c).version = c.version) (hdevices : t'.devices = t.devices.map f)
    (hversion : t'.credentialsVersion = t.credentialsVersion) : t'.version key = t.version key := by
  cases key with
  | external owner => rw [TenantDefinition.version, hversion, TenantDefinition.version]
  | device owner twin =>
    have hof : ((fun c : TwinDeviceCredential => c.ofTwin twin) ∘ f) = (·.ofTwin twin) := by
      funext c
      rw [Function.comp_apply, TwinDeviceCredential.ofTwin, (hf c).1, TwinDeviceCredential.ofTwin]
    simp only [TenantDefinition.version]
    rw [hdevices, List.find?_map, hof]
    cases t.devices.find? (·.ofTwin twin) with
    | none => rfl
    | some c => exact (hf c).2

/-- A registration leaves the versions of all credentials. -/
theorem version_saveDynamic {accounting : AccountingContext} {hash : String} :
    version tenants key ≤ version (tenants.filter (fun t => !t.ownedBy accounting.ownerDid) ++
      [withAccounting (tenants.find? (·.ownedBy accounting.ownerDid)) accounting hash]) key := by
  rw [version, version, List.find?_append]
  by_cases howner : toLowerCase accounting.ownerDid = toLowerCase key.owner
  · -- the entry of the owner moves to the end, with its credentials
    have hgone : (tenants.filter fun t => !t.ownedBy accounting.ownerDid).find? (·.ownedBy key.owner) = none := by
      rw [List.find?_eq_none]
      intro t ht
      have hne := (List.mem_filter.mp ht).2
      simpa [TenantDefinition.ownedBy, howner] using hne
    have hsame : (fun t : TenantDefinition => t.ownedBy accounting.ownerDid) = (·.ownedBy key.owner) := by
      funext t
      rw [TenantDefinition.ownedBy, howner, TenantDefinition.ownedBy]
    rw [hgone, Option.none_or, hsame]
    cases tenants.find? (·.ownedBy key.owner) with
    | none => exact Nat.zero_le _
    | some t =>
      have hown : (withAccounting (some t) accounting hash).ownedBy key.owner := by
        simp [TenantDefinition.ownedBy, withAccounting, howner]
      rw [List.find?_singleton, if_pos hown, Option.elim_some, Option.elim_some]
      cases key <;> exact Nat.le_refl _
  · have hkept : (tenants.filter fun t => !t.ownedBy accounting.ownerDid).find? (·.ownedBy key.owner) =
        tenants.find? (·.ownedBy key.owner) := by
      rw [List.find?_filter]
      congr 1
      funext t
      by_cases ht : t.ownedBy key.owner
      · have hne : t.ownedBy accounting.ownerDid = false := by
          simp only [TenantDefinition.ownedBy, beq_iff_eq, beq_eq_false_iff_ne] at ht ⊢
          rw [ht]
          exact Ne.symm howner
        simp [ht, hne]
      · simp [ht]
    rw [hkept]
    cases tenants.find? (·.ownedBy key.owner) with
    | none => exact Nat.zero_le _
    | some t => exact Nat.le_refl _

/-- No operation lowers a version, and the rotation of a credential raises its own. -/
theorem version_edit (key : CredentialKey) (hlower : ∀ s, toLowerCase (toLowerCase s) = toLowerCase s)
    (h : op.edit sha256 tenants now = .ok e) :
    version tenants key ≤ version e.tenants key ∧
      (op.renews key → version tenants key < version e.tenants key) := by
  have hrotate {ownerDid twinId username : String} {bootstrap : Bool}
      {actions : TenantDefinition → List BrokerAction}
      (h : editOwner tenants ownerDid (·.rotateDevice twinId username bootstrap now) actions = .ok e) :
      version tenants key ≤ version e.tenants key ∧ (∀ owner twin, key = .device owner twin →
        toLowerCase ownerDid = toLowerCase owner → toLowerCase (toLowerCase twinId) = toLowerCase twin →
          version tenants key < version e.tenants key) := by
    rcases version_editOwner key h (fun _ => rfl) with ⟨hne, heq⟩ | ⟨t, hbefore, hafter⟩
    · refine ⟨heq.ge, fun owner twin hkey howner => absurd ?_ hne⟩
      rw [hkey]
      exact howner
    · rw [hbefore, hafter]
      obtain ⟨hle, hlt⟩ := version_rotateDevice key now hlower t twinId username bootstrap
      exact ⟨hle, fun owner twin hkey _ => hlt owner twin hkey⟩
  cases op with
  | saveDynamic accounting apiKey =>
    obtain rfl := Except.ok.inj h
    exact ⟨version_saveDynamic, fun hrenews => by cases key <;> exact hrenews.elim⟩
  | rotateExternal ownerDid apiKey mqttUsername mqttPassword twinIds =>
    rcases version_editOwner key h (fun _ => rfl) with ⟨hne, heq⟩ | ⟨t, hbefore, hafter⟩
    · refine ⟨heq.ge, fun hrenews => ?_⟩
      cases key with
      | external owner => exact absurd hrenews hne
      | device owner twin => exact hrenews.elim
    · rw [hbefore, hafter]
      cases key with
      | external owner => exact ⟨Nat.le_succ _, fun _ => Nat.lt_succ_self _⟩
      | device owner twin => exact ⟨Nat.le_refl _, fun hrenews => hrenews.elim⟩
  | rotateTwin ownerDid twinId mqttUsername mqttPassword bootstrap =>
    obtain ⟨hle, hlt⟩ := hrotate h
    refine ⟨hle, fun hrenews => ?_⟩
    cases key with
    | external owner => exact hrenews.elim
    | device owner twin => exact hlt owner twin rfl hrenews.1 hrenews.2
  | rotateBootstrap ownerDid deviceId username password =>
    obtain ⟨hle, hlt⟩ := hrotate h
    refine ⟨hle, fun hrenews => ?_⟩
    cases key with
    | external owner => exact hrenews.elim
    | device owner twin => exact hlt owner twin rfl hrenews.1 hrenews.2
  | revokeTwin ownerDid twinId =>
    refine ⟨?_, fun hrenews => by cases key <;> exact hrenews.elim⟩
    rcases version_editOwner key h (fun _ => rfl) with ⟨-, heq⟩ | ⟨t, hbefore, hafter⟩
    · exact heq.ge
    · rw [hbefore, hafter]
      have hkept (c : TwinDeviceCredential) :
          (if c.ofTwin twinId then { c with revokedAt := some now } else c).twinId = c.twinId ∧
            (if c.ofTwin twinId then { c with revokedAt := some now } else c).version = c.version := by
        split <;> exact ⟨rfl, rfl⟩
      refine Eq.ge ?_
      exact version_mapDevices hkept rfl rfl
  | revokeExternal ownerDid revokeDevices =>
    refine ⟨?_, fun hrenews => by cases key <;> exact hrenews.elim⟩
    rcases version_editOwner key h (fun _ => rfl) with ⟨-, heq⟩ | ⟨t, hbefore, hafter⟩
    · exact heq.ge
    · rw [hbefore, hafter]
      cases revokeDevices with
      | false => cases key <;> exact Nat.le_refl _
      | true =>
        refine Eq.ge ?_
        exact version_mapDevices (f := fun c => { c with revokedAt := some now }) (fun c => ⟨rfl, rfl⟩) rfl rfl

/-! ## Whole runs -/

variable {p : Provisioning} {s s' : CredentialState} {ops : List (Operation × Int)}

theorem performAll_cons {o : Operation × Int} (h : performAll sha256 p s (o :: ops) = some s') :
    ∃ d, perform sha256 p s o = some d ∧ performAll sha256 p d ops = some s' := by
  rw [performAll, List.foldlM_cons] at h
  exact Option.bind_eq_some_iff.mp h

theorem performAll_append {more : List (Operation × Int)}
    (h : performAll sha256 p s (ops ++ more) = some s') :
    ∃ d, performAll sha256 p s ops = some d ∧ performAll sha256 p d more = some s' := by
  rw [performAll, List.foldlM_append] at h
  exact Option.bind_eq_some_iff.mp h

theorem OwnersApart.performAll (h : OwnersApart s.file) (hrun : performAll sha256 p s ops = some s') :
    OwnersApart s'.file := by
  induction ops generalizing s with
  | nil =>
      obtain rfl := Option.some.inj hrun
      exact h
  | cons o ops ih =>
      obtain ⟨d, hstep, hrun⟩ := performAll_cons hrun
      obtain ⟨e, hedit, hfile, -⟩ := perform_eq_some hstep
      exact ih (hfile ▸ h.edit hedit) hrun

/-- The access list is that of a file in which the credential is not in use, and so is the file. -/
def Withdrawn (p : Provisioning) (key : CredentialKey) (s : CredentialState) : Prop :=
  ¬ Active s.file key ∧ ∃ tenants, s.broker.acl = aclLines p tenants ∧ ¬ Active tenants key

theorem Withdrawn.perform {o : Operation × Int} (h : Withdrawn p key s) (hacl : p.aclFile = true)
    (hstep : perform sha256 p s o = some s') (hrenews : ¬ o.1.renews key) : Withdrawn p key s' := by
  obtain ⟨hfile, tenants, hlist, hunused⟩ := h
  obtain ⟨e, hedit, hfile', -⟩ := perform_eq_some hstep
  have hnow : ¬ Active s'.file key := by
    rw [hfile']
    intro hactive
    exact (active_of_edit hedit hactive).elim hfile hrenews
  have hlist' := acl_of_perform hacl hstep
  refine ⟨hnow, ?_⟩
  split at hlist'
  · exact ⟨s'.file, hlist', hnow⟩
  · exact ⟨tenants, hlist'.trans hlist, hunused⟩

theorem Withdrawn.performAll (h : Withdrawn p key s) (hacl : p.aclFile = true)
    (hrun : performAll sha256 p s ops = some s') (hrenews : ∀ o ∈ ops, ¬ o.1.renews key) :
    Withdrawn p key s' := by
  induction ops generalizing s with
  | nil =>
      obtain rfl := Option.some.inj hrun
      exact h
  | cons o ops ih =>
      obtain ⟨d, hstep, hrun⟩ := performAll_cons hrun
      exact ih (h.perform hacl hstep (hrenews o List.mem_cons_self)) hrun
        fun o ho => hrenews o (List.mem_cons_of_mem _ ho)

/-- A revocation withdraws the credential. -/
theorem withdrawn_of_revokes {o : Operation × Int} (h : OwnersApart s.file) (hacl : p.aclFile = true)
    (hstep : perform sha256 p s o = some s') (hrevokes : o.1.revokes key) : Withdrawn p key s' := by
  obtain ⟨e, hedit, hfile, -⟩ := perform_eq_some hstep
  have hnow : ¬ Active s'.file key := hfile ▸ not_active_of_revokes h hedit hrevokes
  have hlist := acl_of_perform hacl hstep
  have hrewrites : o.1.rewrites = true := by
    cases hop : o.1 with
    | saveDynamic accounting apiKey =>
      rw [hop] at hrevokes
      cases key <;> exact hrevokes.elim
    | rotateExternal | rotateTwin | rotateBootstrap | revokeTwin | revokeExternal => rfl
  rw [if_pos hrewrites] at hlist
  exact ⟨hnow, s'.file, hlist, hnow⟩

/-- A credential with a block in the access list can be used. -/
theorem active_of_inUse {k : Credential} (h : k ∈ inUse tenants) (hkey : k.isOf key) :
    Active tenants key := by
  rcases List.mem_append.mp h with h | h
  · obtain ⟨t, ht, rfl⟩ := List.mem_map.mp h
    obtain ⟨ht, hactive⟩ := List.mem_filter.mp ht
    cases key with
    | device => exact hkey.elim
    | external owner =>
      simp only [TenantDefinition.active, Bool.and_eq_true, Option.isSome_filter] at hactive
      exact ⟨t, ht, hkey, Option.isSome_of_any hactive.1.2⟩
  · obtain ⟨t, ht, h⟩ := List.mem_flatMap.mp h
    obtain ⟨c, hc, rfl⟩ := List.mem_map.mp h
    obtain ⟨hc, hnone⟩ := List.mem_filter.mp hc
    cases key with
    | external => exact hkey.elim
    | device owner twin => exact ⟨t, ht, hkey.1, c, hc, hkey.2, Option.isNone_iff_eq_none.mp hnone⟩

theorem version_performAll (hlower : ∀ s, toLowerCase (toLowerCase s) = toLowerCase s)
    (hrun : performAll sha256 p s ops = some s') :
    version s.file key ≤ version s'.file key ∧
      ((∃ o ∈ ops, o.1.renews key) → version s.file key < version s'.file key) := by
  induction ops generalizing s with
  | nil =>
      obtain rfl := Option.some.inj hrun
      exact ⟨Nat.le_refl _, fun ⟨_, ho, _⟩ => nomatch ho⟩
  | cons o ops ih =>
      obtain ⟨d, hstep, hrun⟩ := performAll_cons hrun
      obtain ⟨e, hedit, hfile, -⟩ := perform_eq_some hstep
      obtain ⟨hle, hlt⟩ := version_edit key hlower hedit
      obtain ⟨hle', hlt'⟩ := ih hrun
      rw [← hfile] at hle hlt
      refine ⟨hle.trans hle', ?_⟩
      rintro ⟨o', ho', hrenews⟩
      rcases List.mem_cons.mp ho' with rfl | ho'
      · exact (hlt hrenews).trans_le hle'
      · exact hle.trans_lt (hlt' ⟨o', ho', hrenews⟩)

/-- The digest is that of a tenant's API key, or of an external key of another owner or of the registry. -/
def OtherKey (sha256 : String → String) (secrets : String → Option String) (static : StaticRegistry)
    (file : List TenantDefinition) (owner : String) (actual : List Nat) : Prop :=
  ∃ t, (t ∈ static.values ∨ t ∈ file) ∧
    (t.read.hasApiKey sha256 secrets actual ∨
      t.read.hasExternalKey actual ∧ (t ∈ static.values ∨ ¬ t.ownedBy owner))

/-- Without a usable external credential of the owner, a key is accepted for another's sake. -/
theorem otherKey_of_accepted {secrets : String → Option String} {static : StaticRegistry}
    {file : List TenantDefinition} {owner key : String} {a : AccountingContext}
    (h : authenticateApiKey sha256 secrets static file (some key) = .ok (some a))
    (hunused : ¬ Active file (.external owner)) :
    OtherKey sha256 secrets static file owner (digest sha256 key) := by
  obtain ⟨t, hmem, hkey⟩ := authenticateApiKey_eq_ok h
  refine ⟨t, hmem, hkey.imp_right fun hexternal => ⟨hexternal, ?_⟩⟩
  refine hmem.imp_right fun hfile hown => hunused ⟨t, hfile, hown, ?_⟩
  obtain ⟨hash, hhash, -⟩ := Option.map_eq_some_iff.mp hexternal
  have hread := (Option.filter_eq_some_iff.mp (Option.filter_eq_some_iff.mp hhash).1).1
  exact Option.isSome_iff_exists.mpr ⟨hash, hread⟩

/-- In every run of resolved operations from an empty file, a rotation or a revocation leaves one block for each
credential in use; a revoked credential that is not rotated again has none, and its external key is accepted
only as another key; and a version grows with every rotation of its credential. -/
theorem revocation_effective (hlower : ∀ s, toLowerCase (toLowerCase s) = toLowerCase s)
    (hacl : p.aclFile = true) {broker : Broker} (hrun : performAll sha256 p ⟨[], broker⟩ ops = some s) :
    (∀ before o, ops = before ++ [o] → o.1.rewrites →
      blocks s.broker.acl = serviceBlock p :: (inUse s.file).map (Credential.block p) ∧
        ∀ k ∈ inUse s.file, ∀ line ∈ (k.block p).topics,
          ∃ id ∈ k.ids, .topic line.1 line.2 ∈ k.topicsOf p id) ∧
    (∀ key before o after, ops = before ++ o :: after → o.1.revokes key →
      (∀ o' ∈ after, ¬ o'.1.renews key) →
        (∃ tenants, blocks s.broker.acl = serviceBlock p :: (inUse tenants).map (Credential.block p) ∧
          ∀ k ∈ inUse tenants, ¬ k.isOf key) ∧
        ∀ owner, key = .external owner → ∀ secrets static apiKey a,
          authenticateApiKey sha256 secrets static s.file (some apiKey) = .ok (some a) →
            OtherKey sha256 secrets static s.file owner (digest sha256 apiKey)) ∧
    ∀ key before rest s₀, ops = before ++ rest → performAll sha256 p ⟨[], broker⟩ before = some s₀ →
      (∃ o ∈ rest, o.1.renews key) → version s₀.file key < version s.file key := by
  have hapart : OwnersApart ([] : List TenantDefinition) := List.nodup_nil
  refine ⟨?_, ?_, ?_⟩
  · rintro before o rfl hrewrites
    obtain ⟨d, -, hlast⟩ := performAll_append hrun
    obtain ⟨s', hstep, hdone⟩ := performAll_cons hlast
    obtain rfl := Option.some.inj hdone
    have hlist := acl_of_perform hacl hstep
    rw [if_pos hrewrites] at hlist
    exact ⟨by rw [hlist, blocks_aclLines], fun k _ line hline => mem_block hline⟩
  · rintro key before o after rfl hrevokes hrenews
    obtain ⟨d, hbefore, hrest⟩ := performAll_append hrun
    obtain ⟨d', hstep, hafter⟩ := performAll_cons hrest
    have hd : OwnersApart d.file := OwnersApart.performAll (s := ⟨[], broker⟩) hapart hbefore
    obtain ⟨hunused, tenants, hlist, hgone⟩ :=
      (withdrawn_of_revokes hd hacl hstep hrevokes).performAll hacl hafter hrenews
    refine ⟨⟨tenants, by rw [hlist, blocks_aclLines], fun k hk hkey => hgone (active_of_inUse hk hkey)⟩, ?_⟩
    rintro owner rfl secrets static apiKey a haccepted
    exact otherKey_of_accepted haccepted hunused
  · rintro key before rest s₀ rfl hbefore hrenews
    obtain ⟨d, hd, hrest⟩ := performAll_append hrun
    obtain rfl := Option.some.inj (hbefore.symm.trans hd)
    exact (version_performAll hlower hrest).2 hrenews

end

/-! ## One key twice -/

/-- The only tenant is accepted with a key of which it has the digest. -/
theorem authenticateApiKey_own [Runtime] {sha256 : String → String} (credentials : String → Option String)
    {tenant : TenantDefinition} {key : String} (hvalid : validateTenant tenant 0 = .ok tenant.read)
    (hhash : tenant.apiKeyHash = some (sha256 key)) (hne : sha256 key ≠ "") (hkey : key ≠ "") :
    authenticateApiKey sha256 credentials (.tenants []) [tenant] (some key) =
      .ok (some tenant.read.toAccountingContext) := by
  have htruthy {text : String} (h : text ≠ "") : truthy (some text) = some text := Option.filter_some_pos (by simp [h])
  have htenants : tenantDefinitions (.tenants []) [tenant] = .ok [tenant.read] := by
    simp [tenantDefinitions, validateTenants, hvalid, byTenantId, Map.set, Map.empty, duplicate?, Record.set, bind,
      Except.bind, pure, Except.pure]
  have hown : tenant.read.apiKeyDigest sha256 credentials = .ok (digest sha256 key) := by
    simp [TenantDefinition.apiKeyDigest, TenantDefinition.read, hhash, htruthy hne, digest]
  simp [authenticateApiKey, htenants, htruthy hkey, accountingOf, hown, someEqual, bind, Except.bind, pure,
    Except.pure, Except.map]

/-- An owner is registered, gets an external credential and loses it: its tenant is the only one, and has the digest of
its key. -/
theorem exists_performAll [Runtime] (sha256 : String → String) (p : Provisioning) (accounting : AccountingContext)
    (apiKey externalKey : String) : ∃ s tenant,
      performAll sha256 p ⟨[], ⟨[], []⟩⟩ [(.saveDynamic accounting apiKey, 0),
        (.rotateExternal accounting.ownerDid externalKey "plant" "secret" [], 1),
        (.revokeExternal accounting.ownerDid true, 2)] = some s ∧ s.file = [tenant] ∧
      tenant.toAccountingContext = accounting ∧ tenant.apiKeyHash = some (sha256 apiKey) ∧
      tenant.apiKeyCredential = none := by
  have howned (t : TenantDefinition) (owner : String) (h : t.ownerDid = owner) : t.ownedBy owner = true := by
    rw [TenantDefinition.ownedBy, h, beq_self_eq_true]
  simp [performAll, perform, Operation.edit, Operation.invalid, editOwner, withAccounting, howned]

/-- A digest of 64 digits that tells `key` apart. -/
def plantHash (value : String) : String := .ofList (.replicate 64 (if value = "key" then 'a' else 'b'))

theorem isHex64_plantHash (value : String) : Thread.isHex64 (plantHash value).toList := by
  rw [plantHash, String.toList_ofList, Thread.isHex64]
  split <;> rfl

theorem plantHash_ne (value : String) : plantHash value ≠ "" := by
  intro h
  have hlist := isHex64_plantHash value
  rw [h] at hlist
  cases hlist

theorem isOwnerDid_plantOwner : isOwnerDid (plantAccounting "mainnet-plant" 'a').ownerDid := by
  rw [plantOwner_eq, isOwnerDid, String.toList_ofList]
  simp only [List.cons_append, List.nil_append, List.map_cons, List.map_replicate]
  rfl

theorem isObjectId_plant : Sharing.isObjectId (objectId 'a') := by
  simp only [objectId, Sharing.isObjectId, String.toList_append, String.toList_ofList, String.reduceToList]
  rfl

/-- An owner is registered, gets an external credential and loses it. -/
def plantOperations (apiKey externalKey : String) : List (Operation × Int) :=
  let accounting := plantAccounting "mainnet-plant" 'a'
  [(.saveDynamic accounting apiKey, 0), (.rotateExternal accounting.ownerDid externalKey "plant" "secret" [], 1),
    (.revokeExternal accounting.ownerDid true, 2)]

/-- What the operations come to. -/
def plantRun (apiKey externalKey : String) : Option CredentialState :=
  @performAll .ascii plantHash plantProvisioning ⟨[], ⟨[], []⟩⟩ (plantOperations apiKey externalKey)

/-- Registration, rotation and revocation leave the service's block alone. -/
theorem revocation_effective_plant : ∃ s, plantRun "key" "other" = some s ∧
    blocks s.broker.acl = serviceBlock plantProvisioning :: (inUse s.file).map (Credential.block plantProvisioning) := by
  let _ : Runtime := .ascii
  obtain ⟨s, -, hrun, -⟩ := exists_performAll plantHash plantProvisioning (plantAccounting "mainnet-plant" 'a') "key" "other"
  have hlast : plantOperations "key" "other" = (plantOperations "key" "other").take 2 ++
      [(.revokeExternal (plantAccounting "mainnet-plant" 'a').ownerDid true, 2)] := by
    simp [plantOperations]
  have hlower : ∀ text, toLowerCase (toLowerCase text) = toLowerCase text := asciiLower_asciiLower
  have hacl : plantProvisioning.aclFile = true := rfl
  have heffective := revocation_effective hlower hacl hrun
  exact ⟨s, hrun, (heffective.1 _ _ hlast rfl).1⟩

/-- A key that is the tenant's API key as well as its external key. -/
theorem shared_key_accepted : ¬ ∀ (s : CredentialState) (before : List (Operation × Int)) (o : Operation × Int)
    (owner apiKey username password : String) (twinIds : List String) (now : Int),
    @performAll .ascii plantHash plantProvisioning ⟨[], ⟨[], []⟩⟩ (before ++ [o]) = some s →
    (.rotateExternal owner apiKey username password twinIds, now) ∈ before →
    @Operation.revokes .ascii o.1 (.external owner) →
    ∀ secrets static, ((@authenticateApiKey .ascii plantHash secrets static s.file (some apiKey)).toOption.bind
      fun a => a) = none := by
  intro h
  let _ : Runtime := .ascii
  obtain ⟨s, tenant, hrun, hfile, haccounting, hhash, hcredential⟩ :=
    exists_performAll plantHash plantProvisioning (plantAccounting "mainnet-plant" 'a') "key" "key"
  have hvalid : validateTenant tenant 0 = .ok tenant.read := by
    have hsubscription : toLowerCase (objectId 'a') = objectId 'a' := toLowerCase_objectId isObjectId_plant
    have hread : tenant.read.toAccountingContext = plantAccounting "mainnet-plant" 'a' := by
      rw [TenantDefinition.read, haccounting]
      simp only [plantAccounting, hsubscription]
    have hdigest : Thread.isHex64 (tenant.read.apiKeyHash.getD "").toList := by
      have htruthy : truthy (some (plantHash "key")) = some (plantHash "key") :=
        Option.filter_some_pos (by simp [plantHash_ne])
      simp only [TenantDefinition.read, hhash, htruthy, Option.getD_some, isHex64_plantHash]
    refine if_neg ?_
    rw [hread, hdigest]
    have howner := isOwnerDid_plantOwner
    have hsubscription : Sharing.isObjectId (plantAccounting "mainnet-plant" 'a').subscriptionId := isObjectId_plant
    rw [howner, hsubscription]
    simp [plantAccounting]
  have haccepted := authenticateApiKey_own (fun _ => none) hvalid hhash (plantHash_ne "key") (by simp)
  have hrefused := h s ((plantOperations "key" "key").take 2)
    (.revokeExternal (plantAccounting "mainnet-plant" 'a').ownerDid true, 2)
    (plantAccounting "mainnet-plant" 'a').ownerDid "key" "plant" "secret" [] 1 hrun
    (by simp [plantOperations]) rfl (fun _ => none) (.tenants [])
  rw [hfile, haccepted] at hrefused
  cases hrefused

end Security
