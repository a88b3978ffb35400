-- SUMMARY: Rotation of device credentials fails closed: samples, downloads and pending records in every run of a workbench.
import TwinServer.Devices.Creation
import TwinServer.Devices.RotationCalls

/-!
# Rotation fails closed

Every run of one workbench, whatever fails, keeps a pending rotation pending until it is completed; samples are let in by
the record as it was at a moment of the call, and what a download returns is current when it returns.
-/

open Js Js.Json Async Plants

namespace Devices

namespace Rotation

/-- The calls of one workbench. -/
def isOwn (k : Call) : Bool := k.workbench == 0

section
variable (digest : String → String) (o : Options)

/-- A download ends with a configuration only as is said. -/
def final (t : Nat) (r : Except Thrown Outcome) (s : System World Call) : Prop :=
  ∀ n context twinId storageAuthority w configuration,
    s.calls[t]? = some (⟨n, .deviceCredentials context twinId .download storageAuthority⟩, w) →
      r = .ok (.configuration configuration) → ∃ id, Downloaded digest o context.ownerDid id twinId configuration t s

end

section
variable [Runtime] {digest : String → String} {o : Options} {k : Call} {s : System World Call}

/-- What a call of its own keeps, and what a download ends with. -/
theorem triple_of_spec {R : Outcome → System World Call → Prop}
    (hspec : Spec digest o (fun _ => True) s.calls.length k (fun _ => True) (k.program digest o) R)
    (h : ∀ context twinId storageAuthority, k.operation = .deviceCredentials context twinId .download storageAuthority →
      ∀ configuration s', R (.configuration configuration) s' →
        ∃ id, Downloaded digest o context.ownerDid id twinId configuration s.calls.length s') :
    (secureLogic digest o).Triple (service digest o) s.calls.length (· = s.called k) (k.program digest o)
      (fun a => final digest o s.calls.length (.ok a)) fun e => final digest o s.calls.length (.error e) := by
  refine hspec.mono ?_ (fun r s' hR => ?_) fun e s' _ => ?_
  · rintro _ - rfl
    exact ⟨⟨s.state, by simp [System.called], List.prefix_refl _⟩, trivial⟩
  · intro n context twinId storageAuthority w configuration hcall hr
    obtain ⟨⟨w', hcall', -⟩, hR⟩ := hR
    obtain ⟨rfl, -⟩ := Prod.mk.inj (Option.some.inj (hcall'.symm.trans hcall))
    obtain rfl := Except.ok.inj hr
    exact h context twinId storageAuthority rfl configuration s' hR
  · intro _ _ _ _ _ _ _ hr
    cases hr

variable (digest o) in
theorem finishes : (secureLogic digest o).Finishes (service digest o) isOwn (final digest o) := by
  rintro s ⟨workbench, operation⟩ hs hown
  obtain rfl : workbench = 0 := eq_of_beq hown
  cases operation with
  | register context input => exact triple_of_spec (spec_register context input) fun _ _ _ h => by cases h
  | ingest tenantId id payload token mqtt =>
    exact triple_of_spec (spec_ingest tenantId id payload token mqtt rfl) fun _ _ _ h => by cases h
  | revoke context id => exact triple_of_spec (spec_revoke context id) fun _ _ _ h => by cases h
  | classify context id input => exact triple_of_spec (spec_classify context id input) fun _ _ _ h => by cases h
  | deviceCredentials context twinId action storageAuthority =>
    refine triple_of_spec (spec_deviceCredentials context twinId action storageAuthority rfl) ?_
    rintro context' twinId' storageAuthority' heq configuration s' hR
    obtain ⟨rfl, rfl, rfl, rfl⟩ := Operation.deviceCredentials.inj heq
    exact hR rfl configuration rfl

variable (digest o) in
/-- The workbench as a whole. -/
theorem sound : (secureLogic digest o).Sound (service digest o) isOwn where
  refl := Spares.refl
  trans := Spares.trans
  post _ _ _ _ _ _ := trivial
  call := by
    intro s k hs _
    have hcalls : s.calls <+: (s.called k).calls := List.prefix_append _ _
    have hspares (t : Nat) : Spares t s (s.called k) :=
      ⟨List.prefix_refl _, hcalls, List.prefix_refl _, fun _ h => h, fun _ h => h, fun _ _ h => h,
        fun _ _ _ _ _ => rfl, fun _ _ _ _ h => h, fun _ _ _ _ => rfl⟩
    refine ⟨⟨hs.numbered, hs.readable, hs.exclusive, fun t ht => ?_, ?_, hs.lasting, fun ownerDid id hintroduced => ?_⟩, hspares⟩
    · obtain ⟨ownerDid, id, hadmitted⟩ := hs.admitted t ht
      exact ⟨ownerDid, id, hadmitted.mono (List.prefix_refl _) hcalls⟩
    · intro ownerDid id before c p hrun hkey hfind hp hc
      exact (hs.sealed ownerDid id before c p hrun hkey hfind hp hc).mono (List.prefix_refl _) hcalls (List.prefix_refl _)
    · obtain ⟨hunnamed, hsampled, hconsistent⟩ := hs.devices ownerDid id ((hspares 0).introduced hintroduced)
      exact ⟨hunnamed, hsampled, hconsistent⟩
  program hs hown := (finishes digest o hs hown).mono (fun _ _ h => h) (fun _ _ _ => trivial) fun _ _ _ => trivial

omit [Runtime] in
theorem secure_start : Secure digest o ⟨World.empty, []⟩ where
  numbered := .nil
  readable _ hc := absurd hc List.not_mem_nil
  exclusive := List.nodup_nil
  admitted _ ht := absurd ht List.not_mem_nil
  sealed _ _ before c _ hrun := absurd (List.prefix_nil.mp hrun) (by simp)
  lasting _ _ before c hrun := absurd (List.prefix_nil.mp hrun) (by simp)
  devices _ _ _ := ⟨(fun _ hp => by cases hp), (fun h => by cases h), fun _ hp => by cases hp⟩

end

/-! ## Runs -/

/-- A rotation of the device is pending. -/
def RotationPending (ownerDid id : String) (history : List Commit) : Prop :=
  ∃ p, (recordsOf history).find? (scope ownerDid, id) = some p ∧ isPending p.document

section
variable [Runtime] (digest : String → String) (o : Options)

/-- What a run from the one moment to the other keeps of the credentials. -/
structure FailsClosed (c c' : Moment) : Prop where
  /-- A sample that was taken was let in by the record of a device as it was at a moment of the call. -/
  admitted : ∀ t ∈ c'.shared.state.accepted, ∃ ownerDid id, AdmittedBy digest ownerDid id t c'.shared
  /-- A download ends with a configuration that is current when it ends. -/
  downloaded : ∀ e c'' t n context twinId storageAuthority w configuration,
    (machine digest o isOwn).step c' e = some c'' → Logic.EndsIn c' c'' t (.ok (.configuration configuration)) →
      c''.shared.calls[t]? = some (⟨n, .deviceCredentials context twinId .download storageAuthority⟩, w) →
        ∃ id, Downloaded digest o context.ownerDid id twinId configuration t c''.shared
  /-- A rotation that is pending stays so, and lets no sample and no download of a later call through, until a rotation is
  completed. -/
  pending : ∀ ownerDid id, RotationPending ownerDid id c.shared.state.history →
    (∃ before last, c.shared.state.history <+: before ∧ Completes o ownerDid id before last c'.shared) ∨
    RotationPending ownerDid id c'.shared.state.history ∧
      ∀ t k w, c'.shared.calls[t]? = some (k, w) → c.shared.state.history <+: w.history →
        ¬ AdmittedBy digest ownerDid id t c'.shared ∧
          ∀ configuration, ¬ DownloadedBy ownerDid id configuration t c'.shared

variable {digest o}

omit [Runtime] in
/-- A pending rotation, and the puts since. -/
theorem pending_or_completes {s s' : System World Call} {ownerDid id : String} (hs' : Secure digest o s')
    (hgrown : s.state.history <+: s'.state.history) (hpending : RotationPending ownerDid id s.state.history) :
    (∃ before last, s.state.history <+: before ∧ Completes o ownerDid id before last s') ∨
    RotationPending ownerDid id s'.state.history ∧
      ∀ t k w, s'.calls[t]? = some (k, w) → s.state.history <+: w.history →
        ¬ AdmittedBy digest ownerDid id t s' ∧ ∀ configuration, ¬ DownloadedBy ownerDid id configuration t s' := by
  by_cases hcompleted : ∃ before last, s.state.history <+: before ∧ Completes o ownerDid id before last s'
  · exact .inl hcompleted
  have hstays {later : List Commit} (hstart : s.state.history <+: later) (hlater : later <+: s'.state.history) :
      RotationPending ownerDid id later := by
    refine exists_find?_later (fun d => isPending d) hstart (fun before last hbefore hrun hkey hp => ?_) hpending
    obtain ⟨p, hp, hpending⟩ := hp
    cases hlast : isPending last.plant.document with
    | true => rfl
    | false =>
      exact absurd ⟨before, last, hbefore, hs'.sealed ownerDid id before last p (hrun.trans hlater) hkey hp hpending hlast⟩
        hcompleted
  -- a record of a moment of a later call
  have hsettled {before : List Commit} {p : Stored} (hstart : s.state.history <+: before)
      (hbefore : before <+: s'.state.history) (hp : (recordsOf before).find? (scope ownerDid, id) = some p) :
      isPending p.document ≠ false := by
    obtain ⟨q, hq, hpending⟩ := hstays hstart hbefore
    obtain rfl := Option.some.inj (hp.symm.trans hq)
    intro hsettled
    rw [hpending] at hsettled
    cases hsettled
  refine .inr ⟨hstays hgrown (List.prefix_refl _), fun t k w hcall hw => ⟨fun hadmitted => ?_, fun configuration hread => ?_⟩⟩
  · obtain ⟨n, tenantId, payload, token, mqtt, w', before, p, hcall', hw', hbefore, hp, haccepts⟩ := hadmitted
    obtain ⟨-, rfl⟩ := Prod.mk.inj (Option.some.inj (hcall.symm.trans hcall'))
    exact hsettled (hw.trans hw') hbefore hp haccepts.settled
  · obtain ⟨k', w', before, p, hcall', hw', hbefore, hp, -, hrecoverable⟩ := hread
    obtain ⟨-, rfl⟩ := Prod.mk.inj (Option.some.inj (hcall.symm.trans hcall'))
    exact hsettled (hw.trans hw') hbefore hp (configured_of_isRecoverable hrecoverable).1

/-- Whatever the calls of a workbench do, whenever and however the store and the broker fail. -/
theorem rotation_fails_closed (digest : String → String) (o : Options) {es es' : List (Event Call Fate Empty)}
    {c c' : Moment} (hrun : (machine digest o isOwn).run start es = some c)
    (hrun' : (machine digest o isOwn).run c es' = some c') : FailsClosed digest o c c' := by
  have hsound := sound digest o
  have hall := (Machine.run_append _ hrun es').trans hrun'
  have hs' : Secure digest o c'.shared := hsound.run_inv secure_start hall
  have hgrown : c.shared.state.history <+: c'.shared.state.history :=
    hsound.run_rel (G := fun s s' => s.state.history <+: s'.state.history) (fun _ => List.prefix_refl _)
      (fun h h' => h.trans h') (fun h => h.history) (hsound.run secure_start hrun) hrun'
  refine ⟨hs'.admitted, ?_, fun ownerDid id hpending => pending_or_completes hs' hgrown hpending⟩
  intro e c'' t n context twinId storageAuthority w configuration hstep hends hcall
  have hfinal := hsound.run_final (finishes digest o) secure_start hall hstep hends
  exact hfinal n context twinId storageAuthority w configuration hcall rfl

end

/-! ## A rotation that fails -/

def rotatingOptions : Options := { sampleOptions with mqttUrl := "mqtts://dt", mqttEnabled := true, verifyTwin := true }

/-- Nothing fails, and the Twin is the owner's. -/
def rotatingFate : Fate where
  fails := false
  put := .done
  now := 0
  uuid := ""
  created := sampleFate.created
  outside
  | .verifyTwin _ _ _ => .ok true
  | q => sampleFate.outside q

def sampleTwin : String := .ofList ('0' :: 'x' :: .replicate 64 '7')

/-- A device with a Twin, and a rotation whose last put is refused. -/
def failingRun : List (Event Call Fate Empty) :=
  Event.alone 0 ⟨0, .register sampleContext sampleInput⟩ (.replicate 11 rotatingFate) ++
    Event.alone 1 ⟨0, .ingest "acme" sampleDevice samplePayload (some "token") false⟩ (.replicate 3 rotatingFate) ++
    Event.alone 2 ⟨0, .classify sampleContext sampleDevice sampleInput⟩ (.replicate 11 rotatingFate) ++
    Event.alone 3 ⟨0, .deviceCredentials sampleContext sampleTwin .rotate false⟩
      (.replicate 9 rotatingFate ++ [{ rotatingFate with put := .refused }, rotatingFate])

/-- A sample that is refused, another rotation, and a sample that is taken. -/
def recoveringRun : List (Event Call Fate Empty) :=
  Event.alone 4 ⟨0, .ingest "acme" sampleDevice samplePayload (some "token") false⟩ (.replicate 2 rotatingFate) ++
    Event.alone 5 ⟨0, .deviceCredentials sampleContext sampleTwin .rotate false⟩ (.replicate 12 rotatingFate) ++
    Event.alone 6 ⟨0, .ingest "acme" sampleDevice samplePayload (some "token") false⟩ (.replicate 3 rotatingFate)

theorem rotation_fails_closed_sample :
    letI := Runtime.ascii
    ∃ c c' : Moment, (machine id rotatingOptions isOwn).run start failingRun = some c ∧
      (machine id rotatingOptions isOwn).run c recoveringRun = some c' ∧ c'.shared.state.accepted = [1, 6] ∧
      FailsClosed id rotatingOptions c c' := by
  let _ := Runtime.ascii
  have hsome : ((machine id rotatingOptions isOwn).run start failingRun).isSome := by decide +kernel
  have htaken : (((machine id rotatingOptions isOwn).run start failingRun).bind fun c =>
      ((machine id rotatingOptions isOwn).run c recoveringRun).map fun c' => c'.shared.state.accepted) =
        some [1, 6] := by decide +kernel
  obtain ⟨c, hrun⟩ := Option.isSome_iff_exists.mp hsome
  rw [hrun] at htaken
  obtain ⟨c', hrun', haccepted⟩ := Option.map_eq_some_iff.mp htaken
  exact ⟨c, c', hrun, hrun', haccepted, rotation_fails_closed id rotatingOptions hrun hrun'⟩

/-! ## A sample that a revocation does not stop -/

/-- The record is read for a sample, then the device is revoked. -/
def racingRun : List (Event Call Fate Empty) :=
  Event.alone 0 ⟨0, .register sampleContext sampleInput⟩ (.replicate 10 sampleFate) ++
    Event.alone 1 ⟨0, .ingest "acme" sampleDevice samplePayload (some "token") false⟩ (.replicate 2 sampleFate) ++
    Event.alone 2 ⟨0, .revoke sampleContext sampleDevice⟩ (.replicate 4 sampleFate)

/-- A sample over HTTP is taken while the device is revoked. -/
theorem revoked_sample_taken :
    letI := Runtime.ascii
    ∃ c c' : Moment, (machine id sampleOptions isOwn).run start racingRun = some c ∧
      (machine id sampleOptions isOwn).step c (.resume 1 sampleFate) = some c' ∧
      c.shared.state.accepted = [] ∧ c'.shared.state.accepted = [1] ∧
      (c.shared.state.store.find? (scope sampleContext.ownerDid, sampleDevice)).any
        fun p => truthy? (p.document.get? "revokedAt") := by
  let _ := Runtime.ascii
  have hrevoked : ((machine id sampleOptions isOwn).run start racingRun).map (fun c => (c.shared.state.accepted,
      (c.shared.state.store.find? (scope sampleContext.ownerDid, sampleDevice)).any
        fun p => truthy? (p.document.get? "revokedAt"))) = some ([], true) := by decide
  have htaken : (((machine id sampleOptions isOwn).run start racingRun).bind fun c =>
      ((machine id sampleOptions isOwn).step c (.resume 1 sampleFate)).map fun c' => c'.shared.state.accepted) =
        some [1] := by decide
  obtain ⟨c, hrun, hc⟩ := Option.map_eq_some_iff.mp hrevoked
  obtain ⟨hnone, hrevokedAt⟩ := Prod.mk.inj hc
  rw [hrun] at htaken
  obtain ⟨c', hstep, haccepted⟩ := Option.map_eq_some_iff.mp htaken
  exact ⟨c, c', hrun, hstep, hnone, haccepted, hrevokedAt⟩

end Rotation

end Devices
