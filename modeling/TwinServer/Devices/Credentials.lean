-- SUMMARY: What the record of a device says of its credentials, and which puts and samples are right by it.
import TwinServer.Devices.Records

/-!
# Credentials of devices

A record holds the digest of the token, the saved configuration and whether a rotation is pending. The credentials agree
when the configuration has the token of that digest and the password that the broker was told last.
-/

open Js Js.Json Async Plants

namespace Devices

/-! ## Records -/

/-- A rotation is pending. -/
def isPending (document : Record Json) : Bool := truthy? (document.get? "credentialRotationPending")

/-- The configuration is saved. -/
def isConfigured (document : Record Json) : Bool := (document.get? "deviceConfiguration").isSome

/-- The records say the same of the credentials. -/
def SameCredentials (document document' : Record Json) : Prop :=
  document.get? "credentialRotationPending" = document'.get? "credentialRotationPending" ∧
    document.get? "deviceConfiguration" = document'.get? "deviceConfiguration" ∧
    document.get? "tokenHash" = document'.get? "tokenHash"

section
variable {document document' document'' : Record Json}

theorem isPending_leftOf {pending : Bool} (h : document.get? "credentialRotationPending" = some (.bool pending)) :
    isPending (leftOf document) = pending := by
  rw [isPending, get?_leftOf, h]
  rfl

/-- A record that was stored is read as it is. -/
theorem isPending_of_stored (hstored : leftOf document' = document')
    (h : document.get? "credentialRotationPending" = document'.get? "credentialRotationPending") :
    isPending (leftOf document) = isPending document' := by
  rw [isPending, get?_leftOf, h, ← get?_leftOf, hstored, isPending]

theorem isConfigured_leftOf (document : Record Json) : isConfigured (leftOf document) = isConfigured document := by
  rw [isConfigured, get?_leftOf, Option.isSome_map, isConfigured]

theorem SameCredentials.isPending_eq (h : SameCredentials document document') :
    isPending document = isPending document' := by
  rw [isPending, h.1, isPending]

theorem SameCredentials.isConfigured_eq (h : SameCredentials document document') :
    isConfigured document = isConfigured document' := by
  rw [isConfigured, h.2.1, isConfigured]

theorem SameCredentials.trans (h : SameCredentials document document') (h' : SameCredentials document' document'') :
    SameCredentials document document'' :=
  ⟨h.1.trans h'.1, h.2.1.trans h'.2.1, h.2.2.trans h'.2.2⟩

theorem SameCredentials.symm (h : SameCredentials document document') : SameCredentials document' document :=
  ⟨h.1.symm, h.2.1.symm, h.2.2.symm⟩

theorem SameCredentials.left (h : SameCredentials document document') :
    SameCredentials (leftOf document) (leftOf document') := by
  refine ⟨?_, ?_, ?_⟩
  · rw [get?_leftOf, get?_leftOf, h.1]
  · rw [get?_leftOf, get?_leftOf, h.2.1]
  · rw [get?_leftOf, get?_leftOf, h.2.2]

theorem SameCredentials.stored (h : SameCredentials document document') (hstored : Js.Json.leftOf document' = document') :
    SameCredentials (Js.Json.leftOf document) document' :=
  hstored ▸ h.left

/-- The names of the fields of the credentials. -/
def credentialFields : List String := ["credentialRotationPending", "deviceConfiguration", "tokenHash"]

theorem sameCredentials_of_get? (h : ∀ name ∈ credentialFields, document.get? name = document'.get? name) :
    SameCredentials document document' :=
  ⟨h _ (by simp [credentialFields]), h _ (by simp [credentialFields]), h _ (by simp [credentialFields])⟩

theorem sameCredentials_set {name : String} (hname : name ∉ credentialFields) (v : Json) :
    SameCredentials (document.set name v) document :=
  sameCredentials_of_get? fun other hother => by
    rw [Record.get?_set, if_neg]
    rintro rfl
    exact hname hother

theorem sameCredentials_assign {name : String} (hname : name ∉ credentialFields) (v : Option Json) :
    SameCredentials (assign document name v) document := by
  cases v with
  | some v => exact sameCredentials_set hname v
  | none =>
    refine sameCredentials_of_get? fun other hother => ?_
    rw [assign, Record.get?_delete, if_neg]
    rintro rfl
    exact hname hother

end

/-! ## Configurations -/

section
variable {v w : Option Json}

theorem bind_get?_written (v : Option Json) (name : String) :
    (v.map written).bind (·.get? name) = (v.bind (·.get? name)).map written := by
  cases v with
  | none => rfl
  | some v =>
    cases v with
    | object fields => exact get?_written fields name
    | number x =>
      change (written (.number x)).get? name = none
      rw [written]
      split <;> rfl
    | _ => rfl

theorem path_written (v : Option Json) (names : List String) : path (v.map written) names = (path v names).map written := by
  induction names generalizing v with
  | nil => rfl
  | cons name names ih =>
    change path ((v.map written).bind (·.get? name)) names = (path (v.bind (·.get? name)) names).map written
    rw [bind_get?_written, ih]

variable {o : Options} {id tenant httpToken password : String} {name tenantId encryptionPassword : Option Json}

theorem path_token : path (some (.object (configurationOf o id name tenantId tenant httpToken password
    encryptionPassword))) ["http", "token"] = some (.string httpToken) := by
  cases name <;> cases tenantId <;> rfl

theorem path_password (h : o.mqttEnabled) : path (some (.object (configurationOf o id name tenantId tenant httpToken
    password encryptionPassword))) ["mqtt", "password"] = some (.string password) := by
  unfold configurationOf
  rw [if_pos h]
  cases name <;> cases tenantId <;> rfl

end

/-! ## Credentials that agree -/

/-- The updates of the password of a device. -/
def updatesOf (updates : List BrokerUpdate) (ownerDid id : String) : List BrokerUpdate :=
  updates.filter fun u => u.ownerDid == ownerDid && u.id == id

/-- The password that the broker was told last. -/
def lastPassword (updates : List BrokerUpdate) (ownerDid id : String) : Option String :=
  (updatesOf updates ownerDid id).getLast?.map BrokerUpdate.password

section
variable (digest : String → String) (o : Options)

/-- The configuration has the token that is accepted and the password that the broker was told last. -/
structure Agree (ownerDid id : String) (updates : List BrokerUpdate) (document : Record Json) : Prop where
  token : ∃ token, path (document.get? "deviceConfiguration") ["http", "token"] = some (.string token) ∧
    document.get? "tokenHash" = some (.string (digest token))
  password : o.mqttEnabled → ∃ password,
    path (document.get? "deviceConfiguration") ["mqtt", "password"] = some (.string password) ∧
      lastPassword updates ownerDid id = some password

/-- A saved configuration agrees unless a rotation is pending. -/
def Consistent (ownerDid id : String) (updates : List BrokerUpdate) (document : Record Json) : Prop :=
  isPending document = false → isConfigured document → Agree digest o ownerDid id updates document

variable {digest o} {ownerDid id : String} {updates updates' : List BrokerUpdate} {document document' : Record Json}

theorem Agree.of_same (h : Agree digest o ownerDid id updates document) (hsame : SameCredentials document' document)
    (hupdates : updatesOf updates' ownerDid id = updatesOf updates ownerDid id) :
    Agree digest o ownerDid id updates' document' := by
  obtain ⟨-, hconfiguration, htoken⟩ := hsame
  constructor
  · rw [hconfiguration, htoken]
    exact h.token
  · rw [hconfiguration, lastPassword, hupdates]
    exact h.password

theorem Consistent.of_same (h : Consistent digest o ownerDid id updates document)
    (hsame : SameCredentials document' document)
    (hupdates : updatesOf updates' ownerDid id = updatesOf updates ownerDid id) :
    Consistent digest o ownerDid id updates' document' := by
  intro hpending hconfigured
  exact (h (hsame.isPending_eq ▸ hpending) (hsame.isConfigured_eq ▸ hconfigured)).of_same hsame hupdates

/-- The credentials of a configuration whose token and password are the newest. -/
theorem agree_leftOf {deviceId tenant httpToken password : String} {name tenantId encryptionPassword : Option Json}
    (hconfiguration : document.get? "deviceConfiguration" = some (.object (configurationOf o deviceId name tenantId tenant
      httpToken password encryptionPassword)))
    (htoken : document.get? "tokenHash" = some (.string (digest httpToken)))
    (hpassword : o.mqttEnabled → lastPassword updates ownerDid id = some password) :
    Agree digest o ownerDid id updates (leftOf document) := by
  constructor
  · refine ⟨httpToken, ?_, ?_⟩
    · rw [get?_leftOf, path_written, hconfiguration, path_token]
      rfl
    · rw [get?_leftOf, htoken]
      rfl
  · intro h
    refine ⟨password, ?_, hpassword h⟩
    rw [get?_leftOf, path_written, hconfiguration, path_password h]
    rfl

theorem updatesOf_append (updates : List BrokerUpdate) (u : BrokerUpdate) (ownerDid id : String) :
    updatesOf (updates ++ [u]) ownerDid id =
      updatesOf updates ownerDid id ++ if u.ownerDid = ownerDid ∧ u.id = id then [u] else [] := by
  rw [updatesOf, List.filter_append, updatesOf]
  congr 1
  split
  · next h => simp [h]
  · next h =>
    refine List.filter_cons_of_neg ?_
    simpa using h

theorem lastPassword_append (updates : List BrokerUpdate) (ownerDid id username password : String) :
    lastPassword (updates ++ [⟨ownerDid, id, username, password⟩]) ownerDid id = some password := by
  rw [lastPassword, updatesOf_append, if_pos ⟨rfl, rfl⟩, List.getLast?_append]
  rfl

end

/-! ## Configured devices -/

/-- The device has a saved configuration at the end of the history. -/
def Configured (history : List Commit) (ownerDid id : String) : Prop :=
  ∃ p, (recordsOf history).find? (scope ownerDid, id) = some p ∧ isConfigured p.document

/-- The call that put the first record of a key. -/
def opener (history : List Commit) (key : String × String) : Option Nat :=
  (history.find? (·.plant.key = key)).map Commit.author

theorem opener_mono {history before : List Commit} {key : String × String} {t : Nat} (h : before <+: history)
    (ht : opener before key = some t) : opener history key = some t := by
  obtain ⟨rest, rfl⟩ := h
  obtain ⟨c, hc, rfl⟩ := Option.map_eq_some_iff.mp ht
  rw [opener, List.find?_append, hc]
  rfl

/-- The first record of a key. -/
theorem opener_snoc {history : List Commit} {c : Commit} (h : (recordsOf history).find? c.plant.key = none) :
    opener (history ++ [c]) c.plant.key = some c.author := by
  have hnone : history.find? (·.plant.key = c.plant.key) = none :=
    List.find?_eq_none.mpr fun d hd => by simpa using forall_ne_of_find?_eq_none h d hd
  rw [opener, List.find?_append, hnone, Option.none_or, List.find?_cons_of_pos (by simp)]
  rfl

/-! ## Samples and rotations -/

/-- The record lets a sample in. -/
structure Accepts (digest : String → String) (tenantId : String) (token : Option String) (mqtt : Bool)
    (document : Record Json) : Prop where
  settled : isPending document = false
  valid : truthy? (document.get? "revokedAt") = false
  tenant : document.get? "tenantId" = some (.string tenantId)
  /-- Over HTTP, the token is the one whose digest was stored. -/
  token : mqtt = false → ∃ text, token = some text ∧ document.get? "tokenHash" = some (.string (digest text))

/-- The call sends a sample, and at a moment of the call the record of the device let it in. -/
def AdmittedBy (digest : String → String) (ownerDid id : String) (t : Nat) (s : System World Call) : Prop :=
  ∃ n tenantId payload token mqtt w before p,
    s.calls[t]? = some (⟨n, .ingest tenantId id payload token mqtt⟩, w) ∧
    w.history <+: before ∧ before <+: s.state.history ∧
    (recordsOf before).find? (scope ownerDid, id) = some p ∧ Accepts digest tenantId token mqtt p.document

/-- The put ends a rotation: it follows the pending record of its own call, after the broker has taken the password. -/
structure Completes (o : Options) (ownerDid id : String) (before : List Commit) (c : Commit) (s : System World Call) :
    Prop where
  run : before ++ [c] <+: s.state.history
  key : c.plant.key = (scope ownerDid, id)
  rotation : ∃ n context twinId storageAuthority w,
    s.calls[c.author]? = some (⟨n, .deviceCredentials context twinId .rotate storageAuthority⟩, w) ∧
      context.ownerDid = ownerDid
  own : ∃ earlier q, earlier ++ [⟨q, c.author⟩] <+: before ∧
    (recordsOf before).find? (scope ownerDid, id) = some q ∧ isPending q.document
  broker : o.mqttEnabled → ∃ u ∈ s.state.updates, u.ownerDid = ownerDid ∧ u.id = id ∧
    path (c.plant.document.get? "deviceConfiguration") ["mqtt", "password"] = some (.string u.password)

section
variable {digest : String → String} {o : Options} {ownerDid id : String} {t : Nat} {before : List Commit} {c : Commit}
  {s s' : System World Call} {key : String × String} {α : Type}

theorem getElem?_mono {xs ys : List α} (h : xs <+: ys) {a : α} (ha : xs[t]? = some a) : ys[t]? = some a := by
  obtain ⟨rest, rfl⟩ := h
  rw [List.getElem?_append_left (List.getElem?_eq_some_iff.mp ha).1, ha]

theorem AdmittedBy.mono (h : AdmittedBy digest ownerDid id t s) (hhistory : s.state.history <+: s'.state.history)
    (hcalls : s.calls <+: s'.calls) : AdmittedBy digest ownerDid id t s' := by
  obtain ⟨n, tenantId, payload, token, mqtt, w, before, p, hcall, hw, hbefore, h⟩ := h
  exact ⟨n, tenantId, payload, token, mqtt, w, before, p, getElem?_mono hcalls hcall, hw, hbefore.trans hhistory, h⟩

theorem Completes.mono (h : Completes o ownerDid id before c s) (hhistory : s.state.history <+: s'.state.history)
    (hcalls : s.calls <+: s'.calls) (hupdates : s.state.updates <+: s'.state.updates) :
    Completes o ownerDid id before c s' where
  run := h.run.trans hhistory
  key := h.key
  rotation := by
    obtain ⟨n, context, twinId, storageAuthority, w, hcall, howner⟩ := h.rotation
    exact ⟨n, context, twinId, storageAuthority, w, getElem?_mono hcalls hcall, howner⟩
  own := h.own
  broker := by
    intro hmqtt
    obtain ⟨u, hu, h⟩ := h.broker hmqtt
    exact ⟨u, hupdates.subset hu, h⟩

/-- The call sends a sample of the device. -/
def Call.Sends (k : Call) (id : String) : Prop := ∃ tenantId payload token mqtt, k.operation = .ingest tenantId id payload token mqtt

/-- The samples that were taken of a device are of calls that were made after its configuration had been stored. -/
def Introduced (ownerDid id : String) (s : System World Call) : Prop :=
  ∀ t ∈ s.state.accepted, ∀ k w, s.calls[t]? = some (k, w) → k.Sends id → Configured w.history ownerDid id

theorem Introduced.of_later (h : Introduced ownerDid id s') (hcalls : s.calls <+: s'.calls)
    (haccepted : ∀ t ∈ s.state.accepted, t ∈ s'.state.accepted) : Introduced ownerDid id s :=
  fun t ht k w hcall => h t (haccepted t ht) k w (getElem?_mono hcalls hcall)

end

end Devices
