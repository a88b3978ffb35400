-- SUMMARY: The operations of a device workbench by the rules for the credentials: registration, samples, rotation and downloads.
import TwinServer.Devices.RotationRules

/-!
# The operations of a workbench

What each operation keeps of the credentials, and what a download ends with.
-/

open Js Js.Json Async Plants

namespace Devices

namespace Rotation

section
variable [Runtime] {digest : String → String} {o : Options} {t : Nat} {k : Call} {E P P' : System World Call → Prop}
  {α β : Type}

/-! ## Samples -/

omit [Runtime] in
/-- What is the same as a text is that text. -/
theorem eq_of_isSame_string {v : Option Json} {text : String} (h : isSame v (some (.string text))) :
    v = some (.string text) := by
  cases v with
  | none => cases h
  | some v =>
    cases v with
    | string other => exact congrArg (fun text => some (Json.string text)) (eq_of_beq h)
    | null => cases h
    | bool b => cases h
    | number x => cases h
    | array items => cases h
    | object fields => cases h

/-- A sample that is kept was admitted. -/
theorem spec_keep (ownerDid : String) {id : String} {payload : Json} (hkept : Kept t P) (hsends : k.Sends id)
    (hadmitted : ∀ s, Called t k s → P s → AdmittedBy digest ownerDid id t s) :
    Spec digest o E t k P (keep 0 id payload) fun _ _ => True := by
  have hkept' : Kept t fun s => Called t k s ∧ P s := (kept_called k).and hkept
  refine Logic.Triple.query (V := secureLogic digest o) hkept' fun s hs hP f => ?_
  obtain ⟨hstep, hspares⟩ := kept_sample f.now f.uuid payload hs (hadmitted s hP.1 hP.2) hP.1 hsends rfl
  exact ⟨hstep, (hkept' s _ hP (hspares t)).1, trivial⟩

omit [Runtime] in
theorem exists_of_isToken {document : Record Json} {token : Option String} (h : isToken digest document token) :
    ∃ text, token = some text ∧ document.get? "tokenHash" = some (.string (digest text)) := by
  cases token with
  | none => cases h
  | some text => exact ⟨text, rfl, eq_of_isSame_string (Bool.and_eq_true_iff.mp h).2⟩

theorem spec_ingest (tenantId id : String) (payload : Json) (token : Option String) (mqtt : Bool)
    (hk : k = ⟨0, .ingest tenantId id payload token mqtt⟩) :
    Spec digest o (fun _ => True) t k (fun _ => True) (ingest digest o 0 tenantId id payload token mqtt)
      fun _ _ => True := by
  have hE {P : System World Call → Prop} : ∀ s, P s → True := fun _ _ => trivial
  refine spec_unless hE fun _ => ?_
  refine Logic.Triple.bind (spec_harmless (kept_true t) hE (Program.asks_query trivial)) fun accounting => ?_
  refine Logic.Triple.bind (spec_record (kept_true t) hE (fun _ _ _ hcalled _ => read_listed hcalled) rfl) fun found => ?_
  refine spec_unless hE fun hsettled => ?_
  refine spec_unless hE fun htenant => ?_
  refine spec_unless hE fun hvalid => ?_
  refine spec_unless hE fun htoken => ?_
  refine spec_unless hE fun _ => ?_
  refine spec_unless hE fun _ => ?_
  have haccepts : Accepts digest tenantId token mqtt found.document := by
    refine ⟨hsettled, hvalid, eq_of_isSame_string (by simpa using htenant), fun hmqtt => exists_of_isToken ?_⟩
    rw [hmqtt] at htoken
    simpa using htoken
  refine Logic.Triple.bind (spec_keep accounting.ownerDid ?_ ?_ ?_) fun kept => ?_
  · exact (kept_true t).and ((kept_read _ _).and fun _ _ h _ => h)
  · exact ⟨tenantId, payload, token, mqtt, congrArg Call.operation hk⟩
  · -- the call is the one that has read the record
    rintro s ⟨w, hcall, -⟩ ⟨-, ⟨k', w', before, p, hcall', hw, hbefore, hfind, -, hdocument⟩, rfl⟩
    obtain ⟨rfl, rfl⟩ := Prod.mk.inj (Option.some.inj (hcall'.symm.trans hcall))
    exact ⟨0, tenantId, payload, token, mqtt, w', before, p, hk ▸ hcall', hw, hbefore, hfind, hdocument ▸ haccepts⟩
  · refine Logic.Triple.bind (spec_harmless (kept_true t) hE ?_) fun _ => spec_pure fun _ _ _ => trivial
    exact asks_choose (asks_forward isHarmless_of_isPlain _ _ _ _)

/-! ## Registration -/

omit [Runtime] in
theorem get?_waitingDocument {context : DeviceContext} {name httpToken createdAt tenantId : String}
    {encryptionPassword : Option Json} :
    (waitingDocument digest context name httpToken createdAt tenantId encryptionPassword).get? "tokenHash" =
      some (.string (digest httpToken)) :=
  rfl

/-- The call registers the device, and the broker has its password if there is one. -/
def Registering (o : Options) (t : Nat) (ownerDid id hash password : String) (s : System World Call) : Prop :=
  Opening t ownerDid id hash s ∧ (o.mqttEnabled → lastPassword s.state.updates ownerDid id = some password)

omit [Runtime] in
theorem kept_registering {ownerDid id hash password : String} :
    Kept t fun s => Introduced ownerDid id s → Registering o t ownerDid id hash password s := by
  refine kept_introduced fun s s' hintroduced hs hspares => ?_
  refine ⟨hspares.opening _ _ _ hintroduced hs.1, fun hmqtt => ?_⟩
  rw [lastPassword, hspares.told _ _ hintroduced (.inl ⟨hash, hs.1⟩)]
  exact hs.2 hmqtt

/-- The broker is told the password of a device that is being registered. -/
theorem spec_registering {ownerDid id hash username password : String} (hE : ∀ s : System World Call, True → E s) :
    Spec digest o E t k (fun s => Introduced ownerDid id s → Opening t ownerDid id hash s)
      (whenever o.mqttEnabled (rotateBootstrapCredentials ownerDid id username password))
      fun _ s => Introduced ownerDid id s → Registering o t ownerDid id hash password s := by
  unfold whenever choose
  split
  · refine spec_rotateBootstrapCredentials kept_opening (fun s _ => hE s trivial) (fun s _ hopening hintroduced => ?_)
      fun s _ hopening hintroduced => ⟨hopening hintroduced, fun _ => lastPassword_append _ _ _ _ _⟩
    refine ⟨.inl ⟨hash, hopening hintroduced⟩, fun p hp _ => ?_⟩
    obtain ⟨-, q, hq, hunset, -⟩ := hopening hintroduced
    obtain rfl := Option.some.inj (hq.symm.trans hp)
    exact hunset
  · next hmqtt => exact spec_pure fun s _ hopening hintroduced => ⟨hopening hintroduced, fun h => absurd h hmqtt⟩

omit [Runtime] in
/-- The configuration of a device that is being registered. -/
theorem mayPut_registering {ownerDid id deviceId tenant httpToken password : String} {revision : Nat}
    {name tenantId encryptionPassword : Option Json} {s : System World Call} {p : Stored} (hs : Secure digest o s)
    (hregistering : Introduced ownerDid id s → Registering o t ownerDid id (digest httpToken) password s)
    (hp : s.state.store.find? (scope ownerDid, id) = some p) :
    MayPut digest o t ownerDid id revision (p.document.set "deviceConfiguration" (.object (configurationOf o deviceId name
      tenantId tenant httpToken password encryptionPassword))) s where
  sealed := by
    intro q hq hpending hsettled
    obtain rfl := Option.some.inj (hp.symm.trans hq)
    rw [isPending_of_stored (hs.stored_document hp) (by rw [Record.get?_set, if_neg (by simp)]), hpending]
      at hsettled
    cases hsettled
  lasting _ := by rw [isConfigured, Record.get?_set, if_pos rfl]; rfl
  introduced := by
    intro hintroduced
    obtain ⟨hopening, hpassword⟩ := hregistering hintroduced
    refine .inl ⟨.inl ⟨_, hopening⟩, by rw [isConfigured, Record.get?_set, if_pos rfl]; rfl, fun _ _ => ?_⟩
    obtain ⟨-, q, hq, -, htoken⟩ := hopening
    obtain rfl := Option.some.inj (hp.symm.trans hq)
    refine agree_leftOf (by rw [Record.get?_set, if_pos rfl]) ?_ hpassword
    rw [Record.get?_set, if_neg (by simp)]
    exact htoken

theorem spec_register (context : DeviceContext) (input : Json) :
    Spec digest o (fun _ => True) t k (fun _ => True) (register digest o 0 context input) fun _ _ => True := by
  have hE {P : System World Call → Prop} : ∀ s, P s → True := fun _ _ => trivial
  have hquiet {P : System World Call → Prop} (hkept : Kept t P) {γ : Type} {p : Act γ} (h : p.Asks Query.IsHarmless) :
      Spec digest o (fun _ => True) t k P p fun _ => P := spec_harmless hkept hE h
  refine spec_unless hE fun _ => ?_
  cases nameOf input with
  | none => exact spec_refused hE
  | some name =>
    refine spec_unless hE fun _ => ?_
    refine Logic.Triple.bind (hquiet (kept_true t) (Program.asks_query trivial)) fun accounting => ?_
    cases accounting with
    | none => exact spec_refused hE
    | some accounting =>
      refine Logic.Triple.bind (hquiet (kept_true t) (asks_listDevices isHarmless_of_isPlain _)) fun devices => ?_
      refine spec_unless hE fun _ => ?_
      refine Logic.Triple.bind (hquiet (kept_true t) (Program.asks_query trivial)) fun uuid => ?_
      refine Logic.Triple.bind (hquiet (kept_true t) (Program.asks_query trivial)) fun password => ?_
      refine Logic.Triple.bind (hquiet (kept_true t) (Program.asks_query trivial)) fun httpToken => ?_
      refine Logic.Triple.bind (hquiet (kept_true t) (Program.asks_query trivial)) fun createdAt => ?_
      refine Logic.Triple.bind (spec_putPlant (R := fun _ s => Introduced context.ownerDid ("device-" ++ uuid) s →
          Opening t context.ownerDid ("device-" ++ uuid) (digest httpToken) s) (kept_true t) hE (fun _ _ => trivial)
          ?_ ?_) fun _ => ?_
      · -- the device is new
        intro s hs _ _ hrevision other hother
        obtain rfl := scope_injective hother
        exact mayPut_first (find?_of_revision_zero hs hrevision) rfl rfl
      · intro s hs _ _ hrevision _ _
        exact opening_committing (find?_of_revision_zero hs hrevision) rfl get?_waitingDocument
      · refine Logic.Triple.bind (spec_registering hE) fun _ => ?_
        refine Logic.Triple.bind (spec_record kept_registering hE (fun _ _ _ hcalled _ => read_listed hcalled) rfl) fun saved => ?_
        refine Logic.Triple.bind (spec_update saved (R := fun _ _ => True) ?_ hE (fun _ _ => trivial) (fun s hP => hP.2) ?_
          fun _ _ _ _ _ _ _ _ => trivial) fun _ => spec_pure fun _ _ _ => trivial
        · exact kept_registering.and ((kept_read _ _).and fun _ _ h _ => h)
        · rintro s p hs - ⟨hregistering, -⟩ hp hdocument
          rw [← hdocument]
          exact mayPut_registering hs hregistering hp

/-! ## Revocation and classification -/

/-- What a call knows of the device that it works on. -/
def Working (t : Nat) (ownerDid id : String) (found : Plant) (s : System World Call) : Prop :=
  Holding t id s ∧ Read t ownerDid found s ∧ found.id = id

omit [Runtime] in
theorem kept_working {ownerDid id : String} {found : Plant} : Kept t (Working t ownerDid id found) :=
  (kept_holding t id).and ((kept_read _ _).and fun _ _ h _ => h)

theorem spec_working {context : DeviceContext} {id : String} :
    Spec digest o (Holding t id) t k (fun s => True ∧ Holding t id s) (record context id)
      fun found => Working t context.ownerDid id found := by
  refine (spec_record ((kept_true t).and (kept_holding t id)) (fun _ hP => hP.2)
    (fun _ _ _ hcalled _ => read_listed hcalled) rfl).mono (fun _ _ hP => hP) (fun found s hP => ?_) fun _ _ hE => hE
  exact ⟨hP.1, hP.2.1.2, hP.2.2⟩

/-- Work after which nothing more is known. -/
theorem spec_busy {key : String} {work : Act α}
    (hwork : Spec digest o (Holding t key) t k (fun s => True ∧ Holding t key s) work
      fun _ s => True ∧ Holding t key s) :
    Spec digest o (fun _ => True) t k (fun _ => True) (exclusively 0 key work) fun _ _ => True :=
  spec_exclusively (kept_true t) hwork (fun _ => (kept_true t).and (kept_holding t key)) fun _ _ _ => trivial

theorem spec_revoke (context : DeviceContext) (id : String) :
    Spec digest o (fun _ => True) t k (fun _ => True) (revoke o 0 context id) fun _ _ => True := by
  refine spec_busy ?_
  refine Logic.Triple.bind spec_working fun found => ?_
  have hE : ∀ s, Working t context.ownerDid id found s → Holding t id s := fun _ hP => hP.1
  refine Logic.Triple.bind (spec_harmless kept_working hE (Program.asks_query trivial)) fun revokedAt => ?_
  have hput : Spec digest o (Holding t id) t k (Working t context.ownerDid id found)
      (put context.ownerDid id found.revision (found.document.set "revokedAt" (.string revokedAt)))
      fun _ s => True ∧ Holding t id s := by
    refine spec_update found kept_working hE (fun _ h => h) (fun _ hP => hP.2) (fun s p hs _ hP hp hdocument => ?_)
      fun s _ _ _ hP _ _ _ => ⟨trivial, hP.1⟩
    rw [← hdocument]
    refine mayPut_of_same hs hP.1 hp (sameCredentials_set (by simp [credentialFields]) _) fun hintroduced hunset => ?_
    rw [Record.get?_set, if_neg (by simp)]
    exact (hs.devices _ _ hintroduced).unnamed p hp hunset
  refine Logic.Triple.bind hput fun _ => ?_
  have hkept : Kept t fun s => True ∧ Holding t id s := (kept_true t).and (kept_holding t id)
  refine Logic.Triple.bind (spec_harmless hkept (fun _ hP => hP.2) (Program.asks_query trivial)) fun _ => ?_
  refine Logic.Triple.bind (spec_harmless hkept (fun _ hP => hP.2) (asks_choose (Program.asks_query trivial))) fun _ => ?_
  exact spec_pure fun _ _ hP => hP

/-- The call works on a device that was configured, if that was introduced. -/
def WorkingOn (t : Nat) (ownerDid id : String) (found : Plant) (s : System World Call) : Prop :=
  Working t ownerDid id found s ∧ (Introduced ownerDid id s → Configured s.state.history ownerDid id)

omit [Runtime] in
theorem kept_workingOn {ownerDid id : String} {found : Plant} : Kept t (WorkingOn t ownerDid id found) :=
  kept_working.and kept_configured

omit [Runtime] in
/-- A put on a configured device that leaves the credentials as they are. -/
theorem mayPut_workingOn {ownerDid id : String} {found : Plant} {revision : Nat} {document : Record Json}
    {s : System World Call} {p : Stored} (hs : Secure digest o s) (hP : WorkingOn t ownerDid id found s)
    (hp : s.state.store.find? (scope ownerDid, id) = some p) (hsame : SameCredentials document p.document) :
    MayPut digest o t ownerDid id revision document s := by
  refine mayPut_of_same hs hP.1.1 hp hsame fun hintroduced hunset => ?_
  obtain ⟨q, hq, hset⟩ := hP.2 hintroduced
  obtain rfl := Option.some.inj (hp.symm.trans hq)
  exact absurd hset (by rw [hunset]; exact Bool.false_ne_true)

omit [Runtime] in
/-- The record that a call has put is one that it has read. -/
theorem workingOn_committing {ownerDid id : String} {found : Plant} {revision : Nat} {document : Record Json}
    {s : System World Call} (hcalled : Called t k s) (hP : WorkingOn t ownerDid id found s)
    (hlasts : Configured s.state.history ownerDid id →
      Configured (committing t (scope ownerDid) id revision document s).state.history ownerDid id) :
    WorkingOn t ownerDid id { id, revision := revision + 1, document := leftOf document, publication := none }
      (committing t (scope ownerDid) id revision document s) := by
  obtain ⟨w, hcall, hw⟩ := hcalled
  refine ⟨⟨hP.1.1, ⟨k, w, _, _, hcall, hw.trans (List.prefix_append _ _), List.prefix_refl _,
    (find?_committing _).trans (if_pos rfl), rfl, rfl⟩, rfl⟩, fun hintroduced => hlasts (hP.2 hintroduced)⟩

theorem spec_create {context : DeviceContext} {id name : String} {body creationContext pending : Record Json}
    {revision : Nat} (hpending : SameCredentials pending (leftOf pending)) :
    Spec digest o (Holding t id) t k
      (WorkingOn t context.ownerDid id { id, revision, document := leftOf pending, publication := none })
      (create context id name body creationContext pending revision) fun _ s => True ∧ Holding t id s := by
  have hE : ∀ s, WorkingOn t context.ownerDid id { id, revision, document := leftOf pending, publication := none } s →
      Holding t id s := fun _ hP => hP.1.1
  refine Logic.Triple.orElse (E := fun _ => Holding t id) ?_ fun _ => Logic.Triple.raise fun _ _ hP => hP
  refine Logic.Triple.bind (spec_harmless kept_workingOn hE (Program.asks_query trivial)) fun created => ?_
  dsimp only
  cases (asString? (orElse (created.get? "twinId") (created.get? "id"))).filter ObjectId.isObjectIdText with
  | none => exact Logic.Triple.raise fun s _ hP => hE s hP.2
  | some twinId =>
    have hput : Spec digest o (Holding t id) t k
        (WorkingOn t context.ownerDid id { id, revision, document := leftOf pending, publication := none })
        (put context.ownerDid id revision ((assign (assign (assign pending "state" (some (.string "created"))) "twinId"
          (some (.string twinId))) "plantId" (created.get? "plantId")).set "name" (.string name)))
        fun _ s => True ∧ Holding t id s := by
      refine spec_update { id, revision, document := leftOf pending, publication := none } kept_workingOn hE
        (fun _ h => h) (fun _ hP => hP.1.2) (fun s p hs _ hP hp hdocument => ?_)
        fun s _ _ _ hP _ _ _ => ⟨trivial, hP.1.1⟩
      refine mayPut_workingOn hs hP hp (hdocument ▸ SameCredentials.trans ?_ hpending)
      refine (sameCredentials_set (by simp [credentialFields]) _).trans ?_
      refine (sameCredentials_assign (by simp [credentialFields]) _).trans ?_
      exact (sameCredentials_assign (by simp [credentialFields]) _).trans (sameCredentials_assign (by simp [credentialFields]) _)
    exact Logic.Triple.bind hput fun _ => spec_pure fun _ _ hP => hP

/-- The record that the device is being created, and then the creation. -/
theorem spec_startCreation {context : DeviceContext} {id name : String} {found : Plant} {signals : Json}
    {password : Option Json} {body creationContext : Record Json} :
    Spec digest o (Holding t id) t k (WorkingOn t context.ownerDid id found)
      (do
        let saved ← put context.ownerDid id found.revision
          (assign ((found.document.set "state" (.string "creating")).set "signals" signals) "payloadPassword" password)
        create context id name body creationContext
          (assign ((found.document.set "state" (.string "creating")).set "signals" signals) "payloadPassword" password)
          saved.revision)
      fun _ s => True ∧ Holding t id s := by
  have hE : ∀ s, WorkingOn t context.ownerDid id found s → Holding t id s := fun _ hP => hP.1.1
  generalize hpending : assign ((found.document.set "state" (.string "creating")).set "signals" signals)
    "payloadPassword" password = pending
  have hsame : SameCredentials pending found.document := by
    subst hpending
    refine (sameCredentials_assign (by simp [credentialFields]) _).trans ?_
    exact (sameCredentials_set (by simp [credentialFields]) _).trans (sameCredentials_set (by simp [credentialFields]) _)
  have hput : Spec digest o (Holding t id) t k (WorkingOn t context.ownerDid id found)
      (put context.ownerDid id found.revision pending) fun saved s =>
        (WorkingOn t context.ownerDid id { id, revision := saved.revision, document := leftOf pending, publication := none } s) ∧
          SameCredentials pending (leftOf pending) := by
    refine spec_update found kept_workingOn hE (fun _ h => h) (fun _ hP => hP.1.2) (fun s p hs _ hP hp hdocument => ?_)
      fun s p hs hcalled hP hp hdocument hlasts => ⟨workingOn_committing hcalled hP (hlasts _ _), ?_⟩
    · exact mayPut_workingOn hs hP hp (hdocument ▸ hsame)
    · have hstored := hs.stored_document hp
      rw [hdocument] at hstored
      exact hsame.trans (hsame.stored hstored).symm
  refine Logic.Triple.bind hput fun saved => ?_
  exact spec_extract fun hpending => spec_create hpending

theorem spec_classifyBusy (context : DeviceContext) (id : String) (input : Json) :
    Spec digest o (Holding t id) t k (fun s => True ∧ Holding t id s) (classifyBusy 0 context id input)
      fun _ s => True ∧ Holding t id s := by
  refine Logic.Triple.bind spec_working fun found => ?_
  have hE : ∀ s, Working t context.ownerDid id found s → Holding t id s := fun _ hP => hP.1
  refine spec_unless hE fun _ => ?_
  split
  · exact spec_pure fun s _ hP => ⟨trivial, hE s hP⟩
  · split
    · exact spec_refused hE
    · refine Logic.Triple.bind (spec_latest context.ownerDid kept_working) fun samples => ?_
      cases hsample : samples.head?.join with
      | none => exact spec_refused fun s hP => hE s hP.1
      | some sample =>
        refine Logic.Triple.weaken (P := fun s => Called t k s ∧ WorkingOn t context.ownerDid id found s) ?_
          fun s _ hP => ⟨hP.1, hP.2.1, hP.2.2 (by rw [hsample]; rfl)⟩
        have hE : ∀ s, WorkingOn t context.ownerDid id found s → Holding t id s := fun _ hP => hP.1.1
        refine Logic.Triple.bind (spec_harmless kept_workingOn hE (Program.asks_query trivial)) fun payload => ?_
        refine Logic.Triple.bind (spec_harmless kept_workingOn hE (Program.asks_done _)) fun signals => ?_
        cases nameOf input with
        | none => exact spec_refused hE
        | some name =>
          refine Logic.Triple.bind (spec_harmless kept_workingOn hE (Program.asks_query trivial)) fun _ => ?_
          exact spec_startCreation

theorem spec_classify (context : DeviceContext) (id : String) (input : Json) :
    Spec digest o (fun _ => True) t k (fun _ => True) (classify o 0 context id input) fun _ _ => True :=
  Logic.Triple.bind (spec_busy (spec_classifyBusy context id input)) fun _ =>
    spec_harmless (kept_true t) (fun _ _ => trivial) (asks_exportDevice isHarmless_of_isPlain context id)

/-! ## Rotation -/

/-- The record of a device while its credentials are rotated. -/
def pendingDocument (document : Record Json) (configuration : Json) (hash : String) : Record Json :=
  ((document.set "credentialRotationPending" (.bool true)).set "deviceConfiguration" configuration).set "tokenHash"
    (.string hash)

/-- The record of a device once its credentials are rotated. -/
def finalDocument (pending : Record Json) : Record Json :=
  (pending.set "credentialRotationPending" (.bool false)).delete "revokedAt"

section
variable {document : Record Json} {configuration : Json} {hash : String}

omit [Runtime] in
theorem isPending_pendingDocument : isPending (leftOf (pendingDocument document configuration hash)) := by
  refine isPending_leftOf ?_
  rw [pendingDocument, Record.get?_set, if_neg (by simp), Record.get?_set, if_neg (by simp),
    Record.get?_set, if_pos rfl]

omit [Runtime] in
theorem configuration_pendingDocument :
    (pendingDocument document configuration hash).get? "deviceConfiguration" = some configuration := by
  rw [pendingDocument, Record.get?_set, if_neg (by simp), Record.get?_set, if_pos rfl]

omit [Runtime] in
theorem configuration_finalDocument :
    (finalDocument (pendingDocument document configuration hash)).get? "deviceConfiguration" = some configuration := by
  rw [finalDocument, Record.get?_delete, if_neg (by simp), Record.get?_set, if_neg (by simp),
    configuration_pendingDocument]

omit [Runtime] in
theorem tokenHash_finalDocument :
    (finalDocument (pendingDocument document configuration hash)).get? "tokenHash" = some (.string hash) := by
  rw [finalDocument, Record.get?_delete, if_neg (by simp), Record.get?_set, if_neg (by simp),
    pendingDocument, Record.get?_set, if_pos rfl]

end

/-- What holds while the call rotates the credentials of a device: the pending record is its own. -/
structure Rotating (t : Nat) (ownerDid id : String) (q : Stored) (s : System World Call) : Prop where
  holding : Holding t id s
  mine : ∃ earlier, earlier ++ [⟨q, t⟩] <+: s.state.history
  current : Introduced ownerDid id s →
    Configured s.state.history ownerDid id ∧ s.state.store.find? (scope ownerDid, id) = some q

/-- The broker has taken the new password. -/
def Told (o : Options) (ownerDid id password : String) (s : System World Call) : Prop :=
  o.mqttEnabled → (∃ u ∈ s.state.updates, u.ownerDid = ownerDid ∧ u.id = id ∧ u.password = password) ∧
    (Introduced ownerDid id s → lastPassword s.state.updates ownerDid id = some password)

section
variable {ownerDid id password : String} {q : Stored}

omit [Runtime] in
theorem kept_rotating : Kept t (Rotating t ownerDid id q) := by
  intro s s' hs hspares
  obtain ⟨earlier, hmine⟩ := hs.mine
  refine ⟨hspares.holding _ hs.holding, ⟨earlier, hmine.trans hspares.history⟩, fun hintroduced => ?_⟩
  obtain ⟨hconfigured, hq⟩ := hs.current (hspares.introduced hintroduced)
  exact ⟨hspares.configured _ _ hconfigured, (hspares.locked _ _ hintroduced hs.holding hconfigured).trans hq⟩

omit [Runtime] in
theorem kept_told : Kept t fun s => Rotating t ownerDid id q s ∧ Told o ownerDid id password s := by
  intro s s' hs hspares
  refine ⟨kept_rotating s s' hs.1 hspares, fun hmqtt => ?_⟩
  obtain ⟨⟨u, hu, h⟩, hlast⟩ := hs.2 hmqtt
  refine ⟨⟨u, hspares.updates.subset hu, h⟩, fun hintroduced => ?_⟩
  have hintroduced' := hspares.introduced hintroduced
  rw [lastPassword, hspares.told _ _ hintroduced (.inr ⟨hs.1.holding, (hs.1.current hintroduced').1⟩)]
  exact hlast hintroduced'

omit [Runtime] in
/-- The pending record of a rotation. -/
theorem mayPut_pending {found : Plant} {document : Record Json} {configuration : Json} {hash : String} {revision : Nat}
    {s : System World Call} (hP : WorkingOn t ownerDid id found s) :
    MayPut digest o t ownerDid id revision (pendingDocument document configuration hash) s where
  sealed p _ _ hsettled := by rw [isPending_pendingDocument] at hsettled; cases hsettled
  lasting _ := by rw [isConfigured, configuration_pendingDocument]; rfl
  introduced hintroduced := by
    refine .inl ⟨.inr ⟨hP.1.1, hP.2 hintroduced⟩, by rw [isConfigured, configuration_pendingDocument]; rfl, fun hsettled => ?_⟩
    rw [isPending_pendingDocument] at hsettled
    cases hsettled

/-- The broker is told the new password while the record is pending. -/
theorem spec_tell {username : String} (hq : isPending q.document) :
    Spec digest o (Holding t id) t k (Rotating t ownerDid id q)
      (whenever o.mqttEnabled (rotateBootstrapCredentials ownerDid id username password))
      fun _ s => Rotating t ownerDid id q s ∧ Told o ownerDid id password s := by
  unfold whenever choose
  split
  · refine spec_rotateBootstrapCredentials kept_rotating (fun _ hP => hP.holding) (fun s _ hP hintroduced => ?_)
      fun s _ hP => ⟨⟨hP.holding, hP.mine, hP.current⟩, fun _ => ⟨⟨_, List.mem_append_right _ (List.mem_singleton_self _),
        rfl, rfl, rfl⟩, fun _ => lastPassword_append _ _ _ _ _⟩⟩
    obtain ⟨hconfigured, hcurrent⟩ := hP.current hintroduced
    refine ⟨.inr ⟨hP.holding, hconfigured⟩, fun p hp hsettled => ?_⟩
    obtain rfl := Option.some.inj (hcurrent.symm.trans hp)
    rw [hq] at hsettled
    cases hsettled
  · next hmqtt => exact spec_pure fun s _ hP => ⟨hP, fun h => absurd h hmqtt⟩

omit [Runtime] in
/-- The record that completes a rotation. -/
theorem mayPut_final {context : DeviceContext} {twinId deviceId tenant httpToken : String} {storageAuthority : Bool}
    {document : Record Json} {name tenantId encryptionPassword : Option Json} {revision : Nat} {s : System World Call}
    (howner : context.ownerDid = ownerDid)
    (hcalled : Called t ⟨0, .deviceCredentials context twinId .rotate storageAuthority⟩ s)
    (hP : Rotating t ownerDid id q s) (htold : Told o ownerDid id password s)
    (hcurrent : s.state.store.find? (scope ownerDid, id) = some q) (hq : isPending q.document) :
    MayPut digest o t ownerDid id revision (finalDocument (pendingDocument document (.object (configurationOf o deviceId
      name tenantId tenant httpToken password encryptionPassword)) (digest httpToken))) s where
  sealed := by
    intro p hp _ _
    obtain ⟨earlier, hmine⟩ := hP.mine
    obtain ⟨w, hcall, -⟩ := hcalled
    refine ⟨List.prefix_refl _, rfl, ⟨0, context, twinId, storageAuthority, w, hcall, howner⟩,
      ⟨earlier, q, hmine, hcurrent, hq⟩, fun hmqtt => ?_⟩
    obtain ⟨⟨u, hu, howner', hid, rfl⟩, -⟩ := htold hmqtt
    refine ⟨u, hu, howner', hid, ?_⟩
    change path ((leftOf _).get? "deviceConfiguration") _ = _
    rw [get?_leftOf, path_written, configuration_finalDocument, path_password hmqtt]
    rfl
  lasting _ := by rw [isConfigured, configuration_finalDocument]; rfl
  introduced := by
    intro hintroduced
    refine .inl ⟨.inr ⟨hP.holding, (hP.current hintroduced).1⟩, by rw [isConfigured, configuration_finalDocument]; rfl,
      fun _ _ => ?_⟩
    exact agree_leftOf configuration_finalDocument tokenHash_finalDocument fun hmqtt => (htold hmqtt).2 hintroduced

end

theorem spec_rotate {context : DeviceContext} {id twinId : String} {storageAuthority : Bool} {found : Plant}
    (hk : k = ⟨0, .deviceCredentials context twinId .rotate storageAuthority⟩) :
    Spec digest o (Holding t id) t k (WorkingOn t context.ownerDid id found) (rotate digest o 0 context id found)
      fun _ s => True ∧ Holding t id s := by
  have hE : ∀ s, WorkingOn t context.ownerDid id found s → Holding t id s := fun _ hP => hP.1.1
  refine spec_unless hE fun _ => ?_
  refine Logic.Triple.bind (spec_harmless kept_workingOn hE (Program.asks_query trivial)) fun password => ?_
  refine Logic.Triple.bind (spec_harmless kept_workingOn hE (Program.asks_query trivial)) fun httpToken => ?_
  refine Logic.Triple.bind (spec_harmless kept_workingOn hE (Program.asks_done _)) fun tenant => ?_
  let pending := pendingDocument found.document (.object (configurationOf o id (found.document.get? "name")
    (found.document.get? "tenantId") tenant httpToken password (orElse (found.document.get? "payloadPassword")
      (path (found.document.get? "deviceConfiguration") ["encryption", "password"])))) (digest httpToken)
  let q : Stored :=
    { scope := scope context.ownerDid, id, revision := found.revision + 1, document := leftOf pending, publication := none }
  have hq : isPending q.document := isPending_pendingDocument
  have hpending : Spec digest o (Holding t id) t k (WorkingOn t context.ownerDid id found)
      (put context.ownerDid id found.revision pending) fun saved s => Rotating t context.ownerDid id q s ∧
        saved = { id, revision := found.revision + 1, document := pending, publication := none } := by
    refine spec_update found kept_workingOn hE (fun _ h => h) (fun _ hP => hP.1.2)
      (fun s p _ _ hP _ _ => mayPut_pending hP) fun s p _ _ hP _ _ hlasts => ⟨⟨hP.1.1, ⟨_, List.prefix_refl _⟩, ?_⟩, rfl⟩
    exact fun hintroduced => ⟨hlasts _ _ (hP.2 hintroduced), (find?_committing _).trans (if_pos rfl)⟩
  refine Logic.Triple.bind hpending fun saved => ?_
  refine spec_extract fun hsaved => ?_
  subst hsaved
  refine Logic.Triple.bind (spec_tell hq) fun _ => ?_
  have hfinal : Spec digest o (Holding t id) t k
      (fun s => Rotating t context.ownerDid id q s ∧ Told o context.ownerDid id password s)
      (put context.ownerDid id (found.revision + 1) (finalDocument pending)) fun _ s => True ∧ Holding t id s := by
    refine spec_putPlant kept_told (fun _ hP => hP.1.holding) (fun _ h => h)
      (fun s hs hcalled hP hrevision other hother => ?_) fun s _ _ hP _ _ => ⟨trivial, hP.1.holding⟩
    -- the record that is current is the one that the call has put
    obtain rfl := scope_injective hother
    obtain ⟨earlier, hmine⟩ := hP.1.mine
    have hcurrent := (was_of_put hmine).current hs.numbered hrevision
    exact mayPut_final rfl (hk ▸ hcalled) hP.1 hP.2 hcurrent hq
  refine Logic.Triple.bind hfinal fun _ => ?_
  have hkept : Kept t fun s => True ∧ Holding t id s := (kept_true t).and (kept_holding t id)
  refine Logic.Triple.bind (spec_harmless hkept (fun _ hP => hP.2) (Program.asks_query trivial)) fun _ => ?_
  exact spec_pure fun _ _ hP => hP

/-! ## Downloads -/

/-- At a moment of the call the record of the device had the configuration, and nothing was pending or revoked. -/
def DownloadedBy (ownerDid id : String) (configuration : Json) (t : Nat) (s : System World Call) : Prop :=
  ∃ k w before p, s.calls[t]? = some (k, w) ∧ w.history <+: before ∧ before <+: s.state.history ∧
    (recordsOf before).find? (scope ownerDid, id) = some p ∧
    p.document.get? "deviceConfiguration" = some configuration ∧ isRecoverable p.document

variable (digest o) in
/-- The configuration is the one of a device that was listed for the Twin. If that device was introduced, the record is
current, nothing is pending or revoked, and the token and the password are the newest. -/
def Downloaded (ownerDid id twinId : String) (configuration : Json) (t : Nat) (s : System World Call) : Prop :=
  (∃ p, Was s.state.history (scope ownerDid, id) p ∧ p.document.get? "twinId" = some (.string twinId)) ∧
    DownloadedBy ownerDid id configuration t s ∧
    (Introduced ownerDid id s → ∃ p, s.state.store.find? (scope ownerDid, id) = some p ∧
      p.document.get? "deviceConfiguration" = some configuration ∧ isRecoverable p.document ∧
      Agree digest o ownerDid id s.state.updates p.document)

/-- What is known of the record of a device while the call works on it. -/
def Current (digest : String → String) (o : Options) (ownerDid id : String) (found : Plant) (s : System World Call) : Prop :=
  Introduced ownerDid id s → Configured s.state.history ownerDid id ∧
    ∃ p, s.state.store.find? (scope ownerDid, id) = some p ∧ p.document = found.document ∧
      Consistent digest o ownerDid id s.state.updates p.document

omit [Runtime] in
theorem kept_current {ownerDid id : String} {found : Plant} :
    Kept t fun s => Holding t id s ∧ Current digest o ownerDid id found s := by
  intro s s' hs hspares
  refine ⟨hspares.holding _ hs.1, fun hintroduced => ?_⟩
  obtain ⟨hconfigured, p, hp, hdocument, hconsistent⟩ := hs.2 (hspares.introduced hintroduced)
  refine ⟨hspares.configured _ _ hconfigured, p, (hspares.locked _ _ hintroduced hs.1 hconfigured).trans hp, hdocument, ?_⟩
  exact hconsistent.of_same ⟨rfl, rfl, rfl⟩ (hspares.told _ _ hintroduced (.inr ⟨hs.1, hconfigured⟩))

omit [Runtime] in
theorem configured_of_isRecoverable {document : Record Json} (h : isRecoverable document) :
    isPending document = false ∧ ∃ configuration, document.get? "deviceConfiguration" = some configuration := by
  obtain ⟨hset, hsettled⟩ := Bool.and_eq_true_iff.mp h
  refine ⟨by rw [isPending]; simpa using hsettled, ?_⟩
  cases hconfiguration : document.get? "deviceConfiguration" with
  | none =>
    rw [hconfiguration] at hset
    cases hset
  | some configuration => exact ⟨configuration, rfl⟩

omit [Runtime] in
theorem kept_downloaded {ownerDid id twinId : String} {configuration : Json} :
    Kept t fun s => Downloaded digest o ownerDid id twinId configuration t s ∧ Holding t id s := by
  rintro s s' ⟨⟨⟨p, hwas, hname⟩, ⟨k, w, before, read, hcall, hw, hbefore, hread⟩, hcurrent⟩, hholding⟩ hspares
  refine ⟨⟨⟨p, hwas.mono hspares.history, hname⟩, ⟨k, w, before, read, getElem?_mono hspares.calls hcall, hw,
    hbefore.trans hspares.history, hread⟩, fun hintroduced => ?_⟩, hspares.holding _ hholding⟩
  obtain ⟨q, hq, hconfiguration, hrecoverable, hagree⟩ := hcurrent (hspares.introduced hintroduced)
  have hconfigured : Configured s.state.history ownerDid id :=
    ⟨q, hq, by rw [isConfigured, hconfiguration]; rfl⟩
  refine ⟨q, (hspares.locked _ _ hintroduced hholding hconfigured).trans hq, hconfiguration, hrecoverable, ?_⟩
  exact hagree.of_same ⟨rfl, rfl, rfl⟩ (hspares.told _ _ hintroduced (.inr ⟨hholding, hconfigured⟩))

/-- The device was listed for the Twin. -/
def Named (ownerDid id twinId : String) (s : System World Call) : Prop :=
  (∃ p, Was s.state.history (scope ownerDid, id) p ∧ p.document.get? "twinId" = some (.string twinId)) ∧
    (Introduced ownerDid id s → Configured s.state.history ownerDid id)

omit [Runtime] in
theorem kept_named {ownerDid id twinId : String} : Kept t (Named ownerDid id twinId) := by
  rintro s s' ⟨⟨p, hwas, hname⟩, hconfigured⟩ hspares
  exact ⟨⟨p, hwas.mono hspares.history, hname⟩, kept_configured s s' hconfigured hspares⟩

theorem spec_credentialsBusy {context : DeviceContext} {id twinId : String} (action : CredentialAction)
    {storageAuthority : Bool} (hk : k = ⟨0, .deviceCredentials context twinId action storageAuthority⟩) :
    Spec digest o (Holding t id) t k (fun s => Named context.ownerDid id twinId s ∧ Holding t id s)
      (credentialsBusy digest o 0 context id action) fun r s =>
        (action = .download → ∀ configuration, r = .configuration configuration →
          Downloaded digest o context.ownerDid id twinId configuration t s) ∧ Holding t id s := by
  have hkept : Kept t fun s => Named context.ownerDid id twinId s ∧ Holding t id s := kept_named.and (kept_holding t id)
  have hrecord : Spec digest o (Holding t id) t k (fun s => Named context.ownerDid id twinId s ∧ Holding t id s)
      (record context id) fun found s => (Named context.ownerDid id twinId s ∧ Holding t id s) ∧
        (Read t context.ownerDid found s ∧ (found.id = id → Current digest o context.ownerDid id found s)) ∧ found.id = id := by
    refine spec_record hkept (fun _ hP => hP.2) (fun s p hs hcalled hP hp => ⟨read_listed hcalled hp, ?_⟩) rfl
    rintro rfl hintroduced
    exact ⟨hP.1.2 hintroduced, p, hp, rfl, (hs.devices _ _ hintroduced).consistent p hp⟩
  refine Logic.Triple.bind hrecord fun found => ?_
  cases action with
  | status => exact spec_pure fun s _ hP => ⟨(fun h => by cases h), hP.1.2⟩
  | download =>
    dsimp only
    split
    · next hrecoverable =>
      refine spec_pure fun s _ hP => ⟨fun _ configuration hr => ?_, hP.1.2⟩
      obtain ⟨⟨hnamed, -⟩, ⟨⟨k, w, before, p, hcall, hw, hbefore, hp, -, hread⟩, hcurrent⟩, rfl⟩ := hP
      obtain ⟨hsettled, saved, hsaved⟩ := configured_of_isRecoverable hrecoverable
      have hconfiguration : saved = configuration := by
        rw [hsaved] at hr
        exact Outcome.configuration.inj hr
      subst hconfiguration
      refine ⟨hnamed.1, ⟨k, w, before, p, hcall, hw, hbefore, hp, hread ▸ hsaved, hread ▸ hrecoverable⟩, fun hintroduced => ?_⟩
      obtain ⟨-, p, hp, hdocument, hconsistent⟩ := hcurrent rfl hintroduced
      rw [hdocument] at hconsistent
      refine ⟨p, hp, hdocument ▸ hsaved, hdocument ▸ hrecoverable, hdocument ▸ hconsistent hsettled ?_⟩
      rw [isConfigured, hsaved]
      rfl
    · exact spec_refused fun s hP => hP.1.2
  | rotate =>
    refine (spec_rotate hk).mono (fun s _ hP => ⟨hP.1, ?_⟩) (fun r s hP => ⟨hP.1, (fun h => by cases h), hP.2.2⟩)
      fun _ _ hE => hE
    obtain ⟨⟨hnamed, hholding⟩, ⟨hread, -⟩, hid⟩ := hP.2
    exact ⟨⟨hholding, hread, hid⟩, hnamed.2⟩

/-- The credentials of a Twin without a device are no configuration of one. -/
theorem spec_legacyCredentials (context : DeviceContext) (twinId : String) (action : CredentialAction) :
    Spec digest o (fun _ => True) t k (fun _ => True) (legacyCredentials o 0 context twinId action)
      fun r _ => ∀ configuration, r ≠ .configuration configuration := by
  have hkept : Kept t fun s => True ∧ Holding t twinId s := (kept_true t).and (kept_holding t twinId)
  have hE {s : System World Call} (hP : True ∧ Holding t twinId s) : Holding t twinId s := hP.2
  have hquiet {γ : Type} {p : Act γ} (h : p.Asks Query.IsHarmless) :
      Spec digest o (Holding t twinId) t k (fun s => True ∧ Holding t twinId s) p fun _ s => True ∧ Holding t twinId s :=
    spec_harmless hkept (fun _ => hE) h
  have hvalue (v : Json) : Spec digest o (Holding t twinId) t k (fun s => True ∧ Holding t twinId s)
      (pure (Outcome.value v)) fun r s => (∀ configuration, r ≠ .configuration configuration) ∧ Holding t twinId s :=
    spec_pure fun s _ hP => ⟨(fun configuration h => by cases h), hE hP⟩
  refine spec_exclusively (kept_true t) ?_ (fun _ => Kept.and (fun _ _ h _ => h) (kept_holding t twinId)) fun _ _ h => h
  refine Logic.Triple.bind (hquiet (Program.asks_query trivial)) fun dynamic => ?_
  split
  · cases action with
    | status => exact hvalue _
    | download => exact spec_refused fun _ => hE
    | rotate => exact spec_refused fun _ => hE
  · refine Logic.Triple.bind (hquiet (Program.asks_query trivial)) fun status => ?_
    cases status.mqttUsername.filter (· != "") with
    | none =>
      cases action with
      | status => exact hvalue _
      | download => exact spec_refused fun _ => hE
      | rotate => exact spec_refused fun _ => hE
    | some username =>
      refine Logic.Triple.bind (hquiet (Program.asks_query trivial)) fun saved => ?_
      cases action with
      | status => exact hvalue _
      | download =>
        dsimp only
        split
        · exact hvalue _
        · exact spec_refused fun _ => hE
      | rotate =>
        refine Logic.Triple.bind (hquiet (Program.asks_query trivial)) fun password => ?_
        refine Logic.Triple.bind (hquiet (Program.asks_query trivial)) fun version => ?_
        refine Logic.Triple.bind (spec_putPlant hkept (fun _ => hE) (fun _ h => h)
          (fun _ _ _ _ _ ownerDid howner => absurd ⟨ownerDid, howner⟩ (not_isDevice_exports _ twinId))
          fun _ _ _ hP _ _ => hP) fun _ => hvalue _

theorem spec_deviceCredentials (context : DeviceContext) (twinId : String) (action : CredentialAction)
    (storageAuthority : Bool) (hk : k = ⟨0, .deviceCredentials context twinId action storageAuthority⟩) :
    Spec digest o (fun _ => True) t k (fun _ => True) (deviceCredentials digest o 0 context twinId action storageAuthority)
      fun r s => action = .download → ∀ configuration, r = .configuration configuration →
        ∃ id, Downloaded digest o context.ownerDid id twinId configuration t s := by
  have hE {P : System World Call → Prop} : ∀ s, P s → True := fun _ _ => trivial
  refine Logic.Triple.bind (spec_harmless (kept_true t) hE (asks_choose (Program.asks_query trivial))) fun verified => ?_
  refine spec_unless hE fun _ => ?_
  -- what is known of a device that has a Twin
  let Q (item : Plant) (s : System World Call) : Prop :=
    ∀ name, item.document.get? "twinId" = some (.string name) → Named context.ownerDid item.id name s
  have hQ : ∀ s p, Secure digest o s → Called t k s → True →
      s.state.store.find? (scope context.ownerDid, p.id) = some p → Q (listed p) s := by
    intro s p hs _ _ hp name hname
    refine ⟨⟨p, ⟨_, List.prefix_refl _, hp⟩, hname⟩, fun hintroduced => ⟨p, hp, ?_⟩⟩
    cases hset : isConfigured p.document with
    | true => rfl
    | false =>
      have hunnamed := (hs.devices _ _ hintroduced).unnamed p hp hset
      exact absurd (hunnamed.symm.trans hname) (by simp)
  have hQkept : ∀ item, Kept t (Q item) := fun item s s' hs hspares name hname =>
    kept_named s s' (hs name hname) hspares
  refine Logic.Triple.bind (spec_listDevices (kept_true t) hE hQ rfl hQkept) fun devices => ?_
  split
  · refine (spec_legacyCredentials context twinId action).mono (fun s _ hP => ⟨hP.1, trivial⟩)
      (fun r s hP => ⟨hP.1, fun _ configuration hr => absurd hr (hP.2 configuration)⟩) fun _ _ _ => trivial
  · next device hdevice =>
    have hmem : device ∈ [device] := List.mem_singleton_self device
    rw [← hdevice] at hmem
    obtain ⟨hmem, hname⟩ := List.mem_filter.mp hmem
    have hbusy : Spec digest o (fun _ => True) t k (Named context.ownerDid device.id twinId)
        (exclusively 0 device.id (credentialsBusy digest o 0 context device.id action)) fun r s =>
          action = .download → ∀ configuration, r = .configuration configuration →
            Downloaded digest o context.ownerDid device.id twinId configuration t s := by
      refine spec_exclusively kept_named (spec_credentialsBusy action hk) (fun r => ?_) fun _ _ h => h
      rintro s s' ⟨hdownloaded, hholding⟩ hspares
      refine ⟨fun haction configuration hr => ?_, hspares.holding _ hholding⟩
      exact (kept_downloaded s s' ⟨hdownloaded haction configuration hr, hholding⟩ hspares).1
    refine hbusy.mono (fun s _ hP => ⟨hP.1, hP.2.2 device hmem twinId (eq_of_isSame_string hname)⟩)
      (fun r s hP => ⟨hP.1, fun haction configuration hr => ⟨device.id, hP.2 haction configuration hr⟩⟩) fun _ _ h => h
  · exact spec_refused hE

end

end Rotation

end Devices
