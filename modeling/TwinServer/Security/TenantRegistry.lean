-- SUMMARY: The tenant operations as tasks over the dynamic file, and when they amount to a sequential order.
import Mathlib.Data.List.Permutation
import TwinServer.Base.Async
import TwinServer.Security.Tenants

/-!
# The tenant registry

Every operation reads the whole file, edits one entry, writes a temporary file of one
name, renames it over the file, and then updates the broker; each of these is
awaited, and nothing keeps two operations apart. The operations amount to a
sequential order when no other operation writes between the read of one and its
rename, and none fails after its rename.
-/

open Js Async

namespace Security

/-! ## The machine -/

structure Registry where
  file : List TenantDefinition
  /-- the temporary file, which all operations share -/
  temp : Option (List TenantDefinition)
  broker : Broker

inductive Task where
  /-- while the file is read -/
  | reading (op : Operation)
  /-- while the directory is made -/
  | preparing (op : Operation) (now : Int) (e : Edit)
  /-- while the temporary file is written -/
  | writing (op : Operation) (now : Int) (e : Edit)
  /-- while the temporary file is renamed -/
  | moving (op : Operation) (now : Int) (e : Edit)
  /-- while the broker is updated -/
  | updating (op : Operation) (now : Int) (actions : List BrokerAction)
  | done (op : Operation) (now : Int)
  | failed

/-- What a task is resumed with: the awaited operation is done, at a time of the
clock, or it was rejected. -/
inductive Input where
  | done (now : Int)
  | rejected
  deriving DecidableEq

/-- The task with the given actions ahead of it. -/
def Task.after (op : Operation) (now : Int) : List BrokerAction → Task
  | [] => .done op now
  | actions => .updating op now actions

section
variable [Runtime] (sha256 : String → String) (p : Provisioning)

def call (s : Registry) (op : Operation) : Option (Registry × Task) :=
  some (s, if op.invalid then .failed else .reading op)

/-- One segment of an operation. -/
@[local grind] def resume (s : Registry) : Task → Input → Option (Registry × Task)
  | .reading op, .done now =>
    match op.edit sha256 s.file now with
    | .error _ => some (s, .failed)
    | .ok e => some (s, .preparing op now e)
  | .preparing op now e, .done _ => some (s, .writing op now e)
  | .writing op now e, .done _ => some ({ s with temp := some e.tenants }, .moving op now e)
  | .moving op now e, .done _ =>
    match s.temp with
    -- the file was renamed by another operation
    | none => some (s, .failed)
    | some tenants => some ({ s with file := tenants, temp := none }, .after op now e.actions)
  | .updating op now (action :: actions), .done _ =>
    some ({ s with broker := s.broker.apply p action }, .after op now actions)
  | .updating _ _ [], .done _ => none
  | .done _ _, _ => none
  | .failed, _ => none
  | _, .rejected => some (s, .failed)

def machine : Machine Registry Task Operation Input Empty where
  call := call
  resume := resume sha256 p
  env _ _ := none

end

/-! ## The condition -/

/-- The operation has read the file and not yet renamed. -/
def Task.window : Task → Bool
  | .preparing _ _ _ | .writing _ _ _ | .moving _ _ _ => true
  | _ => false

/-- The next segment writes the temporary file or renames it. -/
def Task.storing : Task → Bool
  | .writing _ _ _ | .moving _ _ _ => true
  | _ => false

/-- The operation has renamed. -/
def Task.committed : Task → Option (Operation × Int)
  | .updating op now _ | .done op now => some (op, now)
  | _ => none

section
variable [Runtime] {sha256 : String → String} {p : Provisioning} {s s' : Registry}

/-- What a task in its window may rely on: its edit is still the edit of the file. -/
@[local grind] def Task.Current (sha256 : String → String) (s : Registry) : Task → Prop
  | .preparing op now e | .writing op now e => op.edit sha256 s.file now = .ok e
  | .moving op now e => op.edit sha256 s.file now = .ok e ∧ s.temp = some e.tenants
  | _ => True

end

/-! ## Credentials and their renewal -/

/-- The broker user of an owner, or of one Twin or device of an owner. -/
inductive CredentialKey where
  | external (ownerDid : String)
  | device (ownerDid twinId : String)

section
variable [Runtime] {sha256 : String → String} {tenants : List TenantDefinition}

/-- An entry of the tenants lets the credential be used. -/
def Active (tenants : List TenantDefinition) : CredentialKey → Prop
  | .external ownerDid => ∃ t ∈ tenants, t.ownedBy ownerDid ∧ t.externalApiKeyHash.isSome
  | .device ownerDid twinId =>
    ∃ t ∈ tenants, t.ownedBy ownerDid ∧ ∃ c ∈ t.devices, c.ofTwin twinId ∧ c.revokedAt = none

/-- The operation issues the credential anew. -/
def Operation.renews : Operation → CredentialKey → Prop
  | .rotateExternal ownerDid _ _ _ _, .external owner => toLowerCase ownerDid = toLowerCase owner
  | .rotateTwin ownerDid twinId _ _ _, .device owner twin
  | .rotateBootstrap ownerDid twinId _ _, .device owner twin =>
    toLowerCase ownerDid = toLowerCase owner ∧ toLowerCase (toLowerCase twinId) = toLowerCase twin
  | _, _ => False

theorem editOwner_mem {ownerDid : String} {next : TenantDefinition → TenantDefinition}
    {actions : TenantDefinition → List BrokerAction} {e : Edit}
    (h : editOwner tenants ownerDid next actions = .ok e) {t' : TenantDefinition}
    (ht' : t' ∈ e.tenants) :
    t' ∈ tenants ∨ ∃ t ∈ tenants, t.ownedBy ownerDid ∧ t' = next t := by
  obtain ⟨index, t, ht, howned, htenants, -⟩ := editOwner_eq_ok h
  rw [htenants] at ht'
  rcases mem_modify ht ht' with hold | hnew
  · exact .inl hold
  · exact .inr ⟨t, List.mem_of_getElem? ht, howned, hnew⟩

/-- A credential that an edit of one entry leaves usable was usable before, or is usable
through the new entry. -/
theorem active_of_editOwner {ownerDid : String} {next : TenantDefinition → TenantDefinition}
    {actions : TenantDefinition → List BrokerAction} {e : Edit}
    (h : editOwner tenants ownerDid next actions = .ok e) {key : CredentialKey}
    (hactive : Active e.tenants key) :
    Active tenants key ∨ ∃ t ∈ tenants, t.ownedBy ownerDid ∧ Active [next t] key := by
  cases key with
  | external owner =>
    obtain ⟨t', ht', howned, hhash⟩ := hactive
    rcases editOwner_mem h ht' with ht | ⟨t, ht, hown, rfl⟩
    · exact .inl ⟨t', ht, howned, hhash⟩
    · exact .inr ⟨t, ht, hown, next t, List.mem_singleton_self _, howned, hhash⟩
  | device owner twin =>
    obtain ⟨t', ht', howned, c, hc, hof, hrevoked⟩ := hactive
    rcases editOwner_mem h ht' with ht | ⟨t, ht, hown, rfl⟩
    · exact .inl ⟨t', ht, howned, c, hc, hof, hrevoked⟩
    · exact .inr ⟨t, ht, hown, next t, List.mem_singleton_self _, howned, c, hc, hof, hrevoked⟩

theorem active_mono {tenants' : List TenantDefinition} (hsub : tenants' ⊆ tenants)
    {key : CredentialKey} (h : Active tenants' key) : Active tenants key := by
  cases key with
  | external owner =>
    obtain ⟨t, ht, hrest⟩ := h
    exact ⟨t, hsub ht, hrest⟩
  | device owner twin =>
    obtain ⟨t, ht, hrest⟩ := h
    exact ⟨t, hsub ht, hrest⟩

theorem active_append {tenants' : List TenantDefinition} {key : CredentialKey}
    (h : Active (tenants ++ tenants') key) : Active tenants key ∨ Active tenants' key := by
  cases key with
  | external owner =>
    obtain ⟨t, ht, hrest⟩ := h
    rcases List.mem_append.mp ht with ht | ht
    · exact .inl ⟨t, ht, hrest⟩
    · exact .inr ⟨t, ht, hrest⟩
  | device owner twin =>
    obtain ⟨t, ht, hrest⟩ := h
    rcases List.mem_append.mp ht with ht | ht
    · exact .inl ⟨t, ht, hrest⟩
    · exact .inr ⟨t, ht, hrest⟩

/-- An entry whose credentials are those of another entry, or fewer. -/
theorem active_of_fewer {t t' : TenantDefinition} {key : CredentialKey} (ht : t ∈ tenants)
    (hactive : Active [t'] key) (howner : toLowerCase t'.ownerDid = toLowerCase t.ownerDid)
    (hhash : t'.externalApiKeyHash.isSome → t.externalApiKeyHash.isSome)
    (hdevices : ∀ c ∈ t'.devices, c.revokedAt = none → c ∈ t.devices) : Active tenants key := by
  have howned : ∀ owner, t'.ownedBy owner → t.ownedBy owner := by
    intro owner h
    simpa only [TenantDefinition.ownedBy, howner] using h
  cases key with
  | external owner =>
    obtain ⟨t₀, ht₀, hown, hsome⟩ := hactive
    obtain rfl := List.mem_singleton.mp ht₀
    exact ⟨t, ht, howned owner hown, hhash hsome⟩
  | device owner twin =>
    obtain ⟨t₀, ht₀, hown, c, hc, hof, hrevoked⟩ := hactive
    obtain rfl := List.mem_singleton.mp ht₀
    exact ⟨t, ht, howned owner hown, c, hdevices c hc hrevoked, hof, hrevoked⟩

theorem eq_of_ownedBy {t : TenantDefinition} {a b : String} (ha : t.ownedBy a) (hb : t.ownedBy b) :
    toLowerCase a = toLowerCase b := by
  simp only [TenantDefinition.ownedBy, beq_iff_eq] at ha hb
  exact ha.symm.trans hb

theorem active_of_rotateTwinEdit {ownerDid twinId username password : String} {bootstrap : Bool}
    {now : Int} {e : Edit}
    (h : rotateTwinEdit tenants ownerDid twinId username password bootstrap now = .ok e)
    {key : CredentialKey} (hactive : Active e.tenants key) :
    Active tenants key ∨ ∃ owner twin, key = .device owner twin ∧
      toLowerCase ownerDid = toLowerCase owner ∧
        toLowerCase (toLowerCase twinId) = toLowerCase twin := by
  rcases active_of_editOwner h hactive with hold | ⟨t, ht, hown, hnew⟩
  · exact .inl hold
  cases key with
  | external owner =>
    obtain ⟨t₀, ht₀, howned, hhash⟩ := hnew
    obtain rfl := List.mem_singleton.mp ht₀
    exact .inl ⟨t, ht, howned, hhash⟩
  | device owner twin =>
    obtain ⟨t₀, ht₀, howned, c, hc, hof, hrevoked⟩ := hnew
    obtain rfl := List.mem_singleton.mp ht₀
    rcases List.mem_append.mp hc with hc | hc
    · exact .inl ⟨t, ht, howned, c, List.mem_of_mem_filter hc, hof, hrevoked⟩
    · obtain rfl := List.mem_singleton.mp hc
      refine .inr ⟨owner, twin, rfl, eq_of_ownedBy hown howned, ?_⟩
      simpa only [TwinDeviceCredential.ofTwin, rotatedCredential, beq_iff_eq] using hof

/-- No operation but a renewal makes a credential usable. -/
theorem active_of_edit {op : Operation} {now : Int} {e : Edit}
    (h : op.edit sha256 tenants now = .ok e) {key : CredentialKey}
    (hactive : Active e.tenants key) : Active tenants key ∨ op.renews key := by
  cases op with
  | saveDynamic accounting apiKey =>
    obtain rfl := Except.ok.inj h
    rcases active_append hactive with hold | hnew
    · exact .inl (active_mono (fun t ht => List.mem_of_mem_filter ht) hold)
    cases hprevious : tenants.find? (·.ownedBy accounting.ownerDid) with
    | none =>
      -- a new entry has no credential for the broker
      rw [hprevious] at hnew
      cases key with
      | external owner =>
        obtain ⟨t, ht, -, hhash⟩ := hnew
        obtain rfl := List.mem_singleton.mp ht
        cases hhash
      | device owner twin =>
        obtain ⟨t, ht, -, c, hc, -⟩ := hnew
        obtain rfl := List.mem_singleton.mp ht
        cases hc
    | some t =>
      rw [hprevious] at hnew
      have howned := List.find?_some hprevious
      simp only [TenantDefinition.ownedBy, beq_iff_eq] at howned
      exact .inl (active_of_fewer (List.mem_of_find?_eq_some hprevious) hnew howned.symm id
        fun c hc _ => hc)
  | rotateExternal ownerDid apiKey mqttUsername mqttPassword twinIds =>
    rcases active_of_editOwner h hactive with hold | ⟨t, ht, hown, hnew⟩
    · exact .inl hold
    cases key with
    | external owner =>
      obtain ⟨t₀, ht₀, howned, -⟩ := hnew
      obtain rfl := List.mem_singleton.mp ht₀
      exact .inr (eq_of_ownedBy hown howned)
    | device owner twin =>
      obtain ⟨t₀, ht₀, howned, c, hc, hof, hrevoked⟩ := hnew
      obtain rfl := List.mem_singleton.mp ht₀
      exact .inl ⟨t, ht, howned, c, hc, hof, hrevoked⟩
  | rotateTwin ownerDid twinId mqttUsername mqttPassword bootstrap =>
    rcases active_of_rotateTwinEdit h hactive with hold | ⟨owner, twin, rfl, howner, htwin⟩
    · exact .inl hold
    · exact .inr ⟨howner, htwin⟩
  | rotateBootstrap ownerDid deviceId username password =>
    rcases active_of_rotateTwinEdit h hactive with hold | ⟨owner, twin, rfl, howner, htwin⟩
    · exact .inl hold
    · exact .inr ⟨howner, htwin⟩
  | revokeTwin ownerDid twinId =>
    rcases active_of_editOwner h hactive with hold | ⟨t, ht, -, hnew⟩
    · exact .inl hold
    refine .inl (active_of_fewer ht hnew rfl id fun c hc hrevoked => ?_)
    obtain ⟨c₀, hc₀, rfl⟩ := List.mem_map.mp hc
    split at hrevoked
    case isTrue => cases hrevoked
    case isFalse hne => simpa only [hne, Bool.false_eq_true, if_false] using hc₀
  | revokeExternal ownerDid revokeDevices =>
    rcases active_of_editOwner h hactive with hold | ⟨t, ht, -, hnew⟩
    · exact .inl hold
    refine .inl (active_of_fewer ht hnew rfl (fun hsome => by cases hsome) fun c hc hrevoked => ?_)
    cases revokeDevices with
    | false => exact hc
    | true =>
      obtain ⟨c₀, -, rfl⟩ := List.mem_map.mp hc
      cases hrevoked

end

/-! ## Runs -/

/-- The task has come to its end. -/
def Task.over : Task → Bool
  | .done _ _ | .failed => true
  | _ => false

/-- The operation that has succeeded, with the time it carries. -/
def Task.succeeded : Task → Option (Operation × Int)
  | .done op now => some (op, now)
  | _ => none

section
variable [Runtime] {sha256 : String → String} {p : Provisioning} {s : Registry} {t : TenantDefinition}
variable {c : TwinDeviceCredential} {b : AccountingContext} {key : String}

end

end Security
