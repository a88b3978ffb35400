-- SUMMARY: Challenges are taken once, sessions come from signed challenges, the maps are bounded, and reads are authorized.
import Mathlib.Data.List.Nodup
import TwinServer.Sharing.Session

/-!
# Admission

What a policy allows is stated here on its own terms, and the decision of the service is
shown to grant no more. The rest is one invariant of the machine of the sessions: what
is in its maps, and what the calls hold, is backed by what has happened.
-/

open Js Js.Json Async

namespace Sharing

/-! ## What policies allow -/

section
variable [Runtime] (o : SharingOptions)

/-- The grant is the one of a DID and in force. -/
def Reader.holds (r : Reader) (did : String) (now : Number) : Prop :=
  r.did = toLowerCase did ∧ r.active now

/-- A policy on chain lets the owner use every scope; another DID must be able to find the Twin,
and a scope other than that must be public or in a grant of the DID. -/
def AccessPolicy.Allows (p : AccessPolicy) (did : String) (scope : Scope) (now : Number) : Prop :=
  p.ownerDid = toLowerCase did ∨
    ((p.mode = .public_ ∨ ∃ r ∈ p.readers, r.holds did now) ∧
      (scope = .discover ∨ hasScope p.publicScopes scope.bit ∨
        ∃ r ∈ p.readers, r.holds did now ∧ hasScope r.scopes scope.bit))

/-- A policy in a file is in force for a Twin whose metadata say so and whose owner has set it. The
owner may use every scope; the steward and an admitted DID may read, and an admitted DID
may use the storage when the policy names it for that. -/
structure StoredPolicy.Allows (p : StoredPolicy) (metadata fields : Json) (did : String)
    (scope : Scope) : Prop where
  restricted : p.mode = .restricted ∧ p.pending = false
  confirmed : (dataVisibility metadata).any (·.strictEq (.string "restricted"))
  owner : lowerField fields "owner_did" = .ok p.ownerDid
  admitted : did = p.ownerDid ∨ includes p.allowedDids did ∨
    lowerField fields "steward_did" = .ok did
  scope : did = p.ownerDid ∨ scope = .discover ∨ scope = .realtime ∨
    ((scope = .storage ∨ scope = .export_) ∧ includes p.allowedDids did ∧
      (p.storageDids.getD []).contains did)

/-- What an authorization has read allows a DID to use a scope. -/
def Basis.Allows (fields : Json) (did : String) (scope : Scope) : Basis → Prop
  | .chain p time => ∃ d, didOf o (some (.string did)) = .ok d ∧ p.Allows d scope time
  | .file m content => ∃ p d, stored content = .ok (some p) ∧
      didOf o (some (.string did)) = .ok d ∧ p.Allows m fields d scope

omit [Runtime] in
theorem bit_ne_zero {scope : Scope} (h : scope ≠ .discover) : (scope.bit != 0) = true := by
  cases scope <;> first | rfl | exact absurd rfl h

/-- The rights of a DID under a policy on chain are no more than the policy allows. -/
theorem allows_of_policyRights {p : AccessPolicy} {did : String} {scope : Scope} {now : Number}
    (hdiscover : (policyRights p did now).discover)
    (hscope : scope = .discover ∨ hasScope (policyRights p did now).scopes scope.bit) :
    p.Allows did scope now := by
  have hreader : ∀ r, p.readers.find? (fun r => r.did == toLowerCase did && r.active now) = some r →
      r ∈ p.readers ∧ r.holds did now := by
    intro r hr
    have hholds := List.find?_some hr
    simp only [Bool.and_eq_true, beq_iff_eq] at hholds
    exact ⟨List.mem_of_find?_eq_some hr, hholds⟩
  simp only [policyRights, Bool.or_eq_true, beq_iff_eq, Option.isSome_iff_exists] at hdiscover
  by_cases howner : p.ownerDid = toLowerCase did
  · exact .inl howner
  · refine .inr ⟨?_, ?_⟩
    · rcases hdiscover with (h | h) | ⟨r, hr⟩
      · exact absurd h howner
      · exact .inl h
      · exact .inr ⟨r, hreader r hr⟩
    · refine hscope.imp_right fun hscope => ?_
      simp only [policyRights, beq_iff_eq, if_neg howner] at hscope
      rw [hasScope_or, Bool.or_eq_true] at hscope
      refine hscope.imp_right fun hscope => ?_
      cases hfind : p.readers.find? (fun r => r.did == toLowerCase did && r.active now) with
      | none =>
        rw [hfind] at hscope
        simp [hasScope] at hscope
      | some r =>
        rw [hfind] at hscope
        exact ⟨r, (hreader r hfind).1, (hreader r hfind).2, hscope⟩

theorem authorizeChain_allows {fields : Json} {p : AccessPolicy} {did : String} {scope : Scope}
    {now : Nat} {a : Authorization} (h : authorizeChain o fields p did scope now = .ok a) :
    a.fields = fields ∧ (Basis.chain p now).Allows o fields did scope := by
  unfold authorizeChain at h
  cases hdid : didOf o (some (.string did)) with
  | error e =>
    rw [hdid] at h
    cases h
  | ok d =>
    rw [hdid] at h
    simp only [bind, Except.bind] at h
    split at h
    · cases h
    · rename_i hrights
      obtain rfl := Except.ok.inj h
      simp only [Bool.or_eq_true, Bool.not_eq_true', Bool.and_eq_true, not_or, not_and,
        Bool.not_eq_false] at hrights
      refine ⟨rfl, d, hdid, allows_of_policyRights hrights.1 ?_⟩
      by_cases hscope : scope = .discover
      · exact .inl hscope
      · exact .inr (hrights.2 (bit_ne_zero hscope))

/-- The last checks of an authorization, for an owner and a steward. -/
def admitStored (p : StoredPolicy) (fields : Json) (did owner steward : String) (scope : Scope) :
    Except Thrown Authorization :=
  if (!includes p.allowedDids did && did != owner && did != steward) = true then
    fail "Your DID is not authorized for this Twin"
  else if ((scope == .storage || scope == .export_) && did != owner &&
      !(includes p.allowedDids did && (p.storageDids.getD []).contains did)) = true then
    fail "Your DID is authorized for realtime data only"
  else if ((scope == .location || scope == .evidence) && did != owner) = true then
    fail "Activate explicit on-chain resource access first"
  else .ok { fields, revision := p.revision, rights := storedRights p did (did == owner) }

omit [Runtime] in
theorem admitStored_ok {p : StoredPolicy} {fields : Json} {did owner steward : String}
    {scope : Scope} {a : Authorization} (h : admitStored p fields did owner steward scope = .ok a) :
    a.fields = fields ∧ (did = owner ∨ includes p.allowedDids did ∨ did = steward) ∧
      (did = owner ∨ scope = .discover ∨ scope = .realtime ∨
        ((scope = .storage ∨ scope = .export_) ∧ includes p.allowedDids did ∧
          (p.storageDids.getD []).contains did)) := by
  unfold admitStored at h
  split at h
  · cases h
  · rename_i hadmitted
    split at h
    · cases h
    · rename_i hstorage
      split at h
      · cases h
      · rename_i hlocation
        obtain rfl := Except.ok.inj h
        simp only [Bool.and_eq_true, Bool.or_eq_true, Bool.not_eq_true', bne_iff_ne, ne_eq,
          beq_iff_eq, not_and, not_not, Bool.not_eq_false] at hadmitted hstorage hlocation
        refine ⟨rfl, ?_, ?_⟩
        · by_cases howner : did = owner
          · exact .inl howner
          · refine .inr ?_
            cases hincludes : includes p.allowedDids did with
            | true => exact .inl rfl
            | false => exact .inr (hadmitted ⟨hincludes, howner⟩)
        · by_cases howner : did = owner
          · exact .inl howner
          · refine .inr ?_
            cases scope with
            | discover => exact .inl rfl
            | realtime => exact .inr (.inl rfl)
            | storage => exact .inr (.inr ⟨.inl rfl, hstorage ⟨.inl rfl, howner⟩⟩)
            | export_ => exact .inr (.inr ⟨.inr rfl, hstorage ⟨.inr rfl, howner⟩⟩)
            | location => exact absurd (hlocation (.inl rfl)) howner
            | evidence => exact absurd (hlocation (.inr rfl)) howner

theorem authorizeStored_allows {fields m : Json} {content : Option Json} {did : String}
    {scope : Scope} {a : Authorization}
    (h : authorizeStored o fields m content did scope = .ok a) :
    a.fields = fields ∧ (Basis.file m content).Allows o fields did scope := by
  unfold authorizeStored at h
  cases hstored : stored content with
  | error e =>
    rw [hstored] at h
    cases h
  | ok found =>
    rw [hstored] at h
    cases found with
    | none => cases h
    | some p =>
      simp only [bind, Except.bind] at h
      split at h
      · cases h
      · rename_i hforce
        simp only [Bool.or_eq_true, Bool.not_eq_true', not_or, Bool.not_eq_true, bne_eq_false_iff_eq,
          Bool.not_eq_false] at hforce
        obtain ⟨⟨hpending, hmode⟩, hconfirmed⟩ := hforce
        cases howner : lowerField fields "owner_did" with
        | error e =>
          rw [howner] at h
          cases h
        | ok owner =>
          rw [howner] at h
          simp only at h
          split at h
          · cases h
          · rename_i hsame
            have hequal : p.ownerDid = owner := by
              simpa only [bne_iff_ne, ne_eq, not_not] using hsame
            cases hdid : didOf o (some (.string did)) with
            | error e =>
              rw [hdid] at h
              cases h
            | ok d =>
              rw [hdid] at h
              simp only at h
              have hallows : ∀ steward, (includes p.allowedDids d = false →
                    lowerField fields "steward_did" = .ok steward) →
                  admitStored p fields d owner steward scope = .ok a →
                  a.fields = fields ∧ (Basis.file m content).Allows o fields did scope := by
                intro steward hsteward hadmit
                obtain ⟨hfields, hadmitted, hscope⟩ := admitStored_ok hadmit
                rw [← hequal] at hadmitted hscope howner
                refine ⟨hfields, p, d, hstored, hdid, ⟨hmode, hpending⟩, hconfirmed, howner, ?_, hscope⟩
                rcases hadmitted with h | h | h
                · exact .inl h
                · exact .inr (.inl h)
                · refine .inr ?_
                  cases hincludes : includes p.allowedDids d with
                  | true => exact .inl rfl
                  | false => exact .inr (h ▸ hsteward hincludes)
              split at h
              · rename_i hincludes
                exact hallows "" (fun hnot => by rw [hincludes] at hnot; cases hnot) h
              · cases hsteward : lowerField fields "steward_did" with
                | error e =>
                  rw [hsteward] at h
                  cases h
                | ok steward =>
                  rw [hsteward] at h
                  exact hallows steward (fun _ => hsteward) h

omit [Runtime] in
theorem decided_granted {basis basis' : Basis} {result : Except Thrown Authorization}
    {a : Authorization} (h : decided basis result = .granted basis' a) :
    basis' = basis ∧ result = .ok a := by
  cases result with
  | error e => cases h
  | ok a' =>
    obtain ⟨rfl, rfl⟩ := Asking.granted.inj h
    exact ⟨rfl, rfl⟩

/-- An authorization is granted only when what it has read allows the scope. -/
theorem allows_of_step {did : String} {scope : Scope} {now : Nat} {asking : Asking} {i : SessionInput}
    {basis : Basis} {a : Authorization}
    (h : Asking.step o did scope now asking i = some (.granted basis a)) :
    basis.Allows o a.fields did scope := by
  cases asking with
  | twin =>
    cases i with
    | twin v =>
      cases v with
      | error e => cases h
      | ok v =>
        simp only [Asking.step] at h
        split at h <;> cases h
    | _ => cases h
  | chain fields =>
    cases i with
    | chain answer =>
      simp only [Asking.step] at h
      split at h
      · cases h
      · obtain ⟨rfl, hok⟩ := decided_granted (Option.some.inj h)
        obtain ⟨hfields, hallows⟩ := authorizeChain_allows o hok
        exact hfields ▸ hallows
      · split at h <;> cases h
    | _ => cases h
  | file fields m =>
    cases i with
    | file content =>
      cases content with
      | error e => cases h
      | ok content =>
        obtain ⟨rfl, hok⟩ := decided_granted (Option.some.inj h)
        obtain ⟨hfields, hallows⟩ := authorizeStored_allows o hok
        exact hfields ▸ hallows
    | _ => cases h
  | refused => cases i <;> cases h
  | granted => cases i <;> cases h

end

/-! ## What is assumed of the surroundings -/

/-- No challenge id is drawn twice. -/
def freshIds : Guard Sessions SessionPhase SessionInput := fun s _ _ i =>
  ∀ challengeId nonce, i = .challenge challengeId nonce → ∀ e ∈ s.issued, e.1 ≠ challengeId

section
variable (Signed : String → String → String → Prop) (Controls : String → String → Prop)

/-- A signature that is found valid is one of the address for the message, and a controller that is
found controls the DID. -/
def soundChecks : Guard Sessions SessionPhase SessionInput := fun _ phase _ i =>
  (∀ k signature address, phase = .signing k signature → i = .signature (some address) →
    Signed k.challenge.message signature address) ∧
  ∀ k signature address, phase = .controlling k signature address → i = .controller (.ok true) →
    Controls k.challenge.did address

/-! ## What is backed by what has happened -/

/-- The challenge was issued, for the Twin of the call, and had not expired. -/
structure Consumption.Valid (s : Sessions) (k : Consumption) : Prop where
  logged : k ∈ s.consumed
  issued : (k.challengeId, k.challenge) ∈ s.issued
  twin : k.challenge.twinId = k.twinId
  early : k.time < k.challenge.expiresAt

/-- The message of the challenge was signed by an address that controls its DID. -/
structure Login.Genuine (s : Sessions) (login : Login) : Prop where
  valid : login.consumption.Valid s
  signed : Signed login.consumption.challenge.message login.signature login.address
  controls : Controls login.consumption.challenge.did login.address

variable (hash : String → String)

/-- The read has found the session of a login under its token, and the session is for its Twin. -/
def Read.Held (s : Sessions) (r : Read) : Prop :=
  (∃ login ∈ s.logins, hash login.token = hash r.token ∧ r.grant = login.grant) ∧
    r.grant.twinId = r.twinId

variable [Runtime] (o : SharingOptions)

/-- What a call holds is backed. -/
def SessionPhase.Backed (s : Sessions) : SessionPhase → Prop
  | .signing k _ => k.Valid s
  | .controlling k signature address => k.Valid s ∧ Signed k.challenge.message signature address
  | .asking (.login k signature address) _ => k.Valid s ∧
      Signed k.challenge.message signature address ∧ Controls k.challenge.did address
  | .asking (.read r) reached => r.Held hash s ∧
      ∀ basis a, reached = .granted basis a → basis.Allows o a.fields r.grant.did r.scope
  | .resolved r basis result time => r.Held hash s ∧ time < r.grant.expiresAt ∧
      basis.Allows o result.fields r.grant.did r.scope
  | _ => True

/-- What is in the maps is backed, and the maps are bounded. -/
structure Sessions.Backed (s : Sessions) : Prop where
  pending : ∀ e ∈ s.challenges, e ∈ s.issued ∧ ∀ k ∈ s.consumed, k.challengeId ≠ e.1
  taken : ∀ k ∈ s.consumed, (k.challengeId, k.challenge) ∈ s.issued
  once : (s.consumed.map Consumption.challengeId).Nodup
  genuine : ∀ login ∈ s.logins, login.Genuine Signed Controls s
  sessions : ∀ e ∈ s.sessions, ∃ login ∈ s.logins, e = (hash login.token, login.grant)
  fewChallenges : s.challenges.length ≤ 1000
  fewSessions : s.sessions.length ≤ 1000

/-- The logs grow. -/
structure Sessions.Grows (s s' : Sessions) : Prop where
  issued : s.issued ⊆ s'.issued
  consumed : s.consumed ⊆ s'.consumed
  logins : s.logins ⊆ s'.logins

variable {Signed Controls hash o} {s s' : Sessions}

omit [Runtime] in
theorem Sessions.Grows.refl (s : Sessions) : s.Grows s :=
  ⟨List.Subset.refl _, List.Subset.refl _, List.Subset.refl _⟩

omit [Runtime] in
theorem Consumption.Valid.mono {k : Consumption} (h : k.Valid s) (hgrows : s.Grows s') :
    k.Valid s' :=
  ⟨hgrows.consumed h.logged, hgrows.issued h.issued, h.twin, h.early⟩

omit [Runtime] in
theorem Login.Genuine.mono {login : Login} (h : login.Genuine Signed Controls s)
    (hgrows : s.Grows s') : login.Genuine Signed Controls s' :=
  ⟨h.valid.mono hgrows, h.signed, h.controls⟩

omit [Runtime] in
theorem Read.Held.mono {r : Read} (h : r.Held hash s) (hgrows : s.Grows s') : r.Held hash s' := by
  obtain ⟨⟨login, hmem, heq⟩, htwin⟩ := h
  exact ⟨⟨login, hgrows.logins hmem, heq⟩, htwin⟩

theorem SessionPhase.Backed.mono {phase : SessionPhase} (h : phase.Backed Signed Controls hash o s)
    (hgrows : s.Grows s') : phase.Backed Signed Controls hash o s' := by
  cases phase with
  | signing k signature => exact Consumption.Valid.mono h hgrows
  | controlling k signature address => exact ⟨h.1.mono hgrows, h.2⟩
  | asking purpose asking =>
    cases purpose with
    | challenge twinId did => trivial
    | login k signature address => exact ⟨h.1.mono hgrows, h.2⟩
    | read r => exact ⟨h.1.mono hgrows, h.2⟩
  | resolved r basis result time => exact ⟨h.1.mono hgrows, h.2⟩
  | challenged | verified | failed => trivial

/-! ## The invariant -/

omit [Runtime] in
theorem Sessions.Backed.prune (h : s.Backed Signed Controls hash) :
    s.prune.Backed Signed Controls hash where
  pending e he := h.pending e (List.mem_of_mem_filter he)
  taken := h.taken
  once := h.once
  genuine login hlogin :=
    (h.genuine login hlogin).mono ⟨List.Subset.refl _, List.Subset.refl _, List.Subset.refl _⟩
  sessions e he := h.sessions e (List.mem_of_mem_filter he)
  fewChallenges := Nat.le_trans (List.length_filter_le _ _) h.fewChallenges
  fewSessions := Nat.le_trans (List.length_filter_le _ _) h.fewSessions

omit [Runtime] in
/-- A call of `verify` takes its challenge. -/
theorem Sessions.Backed.take (h : s.Backed Signed Controls hash) {k : Consumption}
    (hk : (k.challengeId, k.challenge) ∈ s.challenges) :
    ({ s with challenges := s.challenges.delete k.challengeId, consumed := s.consumed ++ [k] } :
      Sessions).Backed Signed Controls hash := by
  obtain ⟨hissued, hfresh⟩ := h.pending _ hk
  refine ⟨fun e he => ?_, ?_, ?_, fun login hlogin => ?_, h.sessions, ?_, h.fewSessions⟩
  · obtain ⟨hmem, hne⟩ := List.mem_filter.mp he
    obtain ⟨hissued', hfresh'⟩ := h.pending e hmem
    refine ⟨hissued', List.forall_mem_append.mpr ⟨hfresh', List.forall_mem_singleton.mpr ?_⟩⟩
    exact fun heq => (bne_iff_ne.mp hne) heq.symm
  · exact List.forall_mem_append.mpr ⟨h.taken, List.forall_mem_singleton.mpr hissued⟩
  · show ((s.consumed ++ [k]).map Consumption.challengeId).Nodup
    rw [List.map_append, List.map_singleton, List.nodup_append]
    refine ⟨h.once, List.nodup_singleton _, fun a ha b hb => ?_⟩
    obtain rfl := List.mem_singleton.mp hb
    obtain ⟨k', hk', rfl⟩ := List.mem_map.mp ha
    exact hfresh k' hk'
  · exact (h.genuine login hlogin).mono
      ⟨List.Subset.refl _, List.subset_append_left _ _, List.Subset.refl _⟩
  · exact Nat.le_trans (List.length_filter_le _ _) h.fewChallenges

omit [Runtime] in
/-- A challenge is issued. -/
theorem Sessions.Backed.issue (h : s.Backed Signed Controls hash) {challengeId : String}
    {c : Challenge} (hroom : s.challenges.length < 1000) (hfresh : ∀ e ∈ s.issued, e.1 ≠ challengeId) :
    ({ s with challenges := s.challenges.set challengeId c, issued := s.issued ++ [(challengeId, c)] } :
      Sessions).Backed Signed Controls hash := by
  have hgrows : s.Grows { s with
      challenges := s.challenges.set challengeId c, issued := s.issued ++ [(challengeId, c)] } :=
    ⟨List.subset_append_left _ _, List.Subset.refl _, List.Subset.refl _⟩
  refine ⟨fun e he => ?_, fun k hk => hgrows.issued (h.taken k hk), h.once,
    fun login hlogin => (h.genuine login hlogin).mono hgrows, h.sessions, ?_, h.fewSessions⟩
  · rcases Record.mem_of_mem_set he with rfl | he
    · refine ⟨List.mem_append_right _ List.mem_cons_self, fun k hk => ?_⟩
      exact hfresh _ (h.taken k hk)
    · exact ⟨hgrows.issued (h.pending e he).1, (h.pending e he).2⟩
  · exact Nat.le_trans (Record.length_set_le _ _ _) hroom

omit [Runtime] in
/-- A session is created. -/
theorem Sessions.Backed.admitted (h : s.Backed Signed Controls hash) {login : Login}
    (hroom : s.sessions.length < 1000) (hgenuine : login.Genuine Signed Controls s) :
    ({ s with sessions := s.sessions.set (hash login.token) login.grant, logins := s.logins ++ [login] } :
      Sessions).Backed Signed Controls hash := by
  have hgrows : s.Grows { s with
      sessions := s.sessions.set (hash login.token) login.grant, logins := s.logins ++ [login] } :=
    ⟨List.Subset.refl _, List.Subset.refl _, List.subset_append_left _ _⟩
  refine ⟨h.pending, h.taken, h.once, ?_, fun e he => ?_, h.fewChallenges, ?_⟩
  · refine List.forall_mem_append.mpr ⟨fun l hl => (h.genuine l hl).mono hgrows, ?_⟩
    exact List.forall_mem_singleton.mpr (hgenuine.mono hgrows)
  · rcases Record.mem_of_mem_set he with rfl | he
    · exact ⟨login, List.mem_append_right _ List.mem_cons_self, rfl⟩
    · obtain ⟨l, hl, heq⟩ := h.sessions e he
      exact ⟨l, hgrows.logins hl, heq⟩
  · exact Nat.le_trans (Record.length_set_le _ _ _) hroom

variable (Signed Controls hash o) in
theorem admission_modular :
    Modular (twinSessions o hash) (freshIds.and (soundChecks Signed Controls))
      (fun s => s.Backed Signed Controls hash) (fun s phase => phase.Backed Signed Controls hash o s)
      (fun _ _ => True) where
  symm _ := trivial
  env {s ms s'} hs henv := by
    obtain rfl := Option.some.inj henv
    have hgrows : s.Grows { s with now := s.now + ms } :=
      ⟨List.Subset.refl _, List.Subset.refl _, List.Subset.refl _⟩
    exact ⟨⟨hs.pending, hs.taken, hs.once, fun login hlogin => (hs.genuine login hlogin).mono hgrows,
      hs.sessions, hs.fewChallenges, hs.fewSessions⟩, fun phase hphase => hphase.mono hgrows⟩
  call {s k s' phase} hs hcall := by
    have hsame : ∀ phase : SessionPhase, phase.Backed Signed Controls hash o s →
        s.Backed Signed Controls hash ∧ phase.Backed Signed Controls hash o s ∧
          ∀ u : SessionPhase, u.Backed Signed Controls hash o s → u.Backed Signed Controls hash o s ∧ True :=
      fun phase hphase => ⟨hs, hphase, fun u hu => ⟨hu, trivial⟩⟩
    cases k with
    | challenge id rawDid =>
      obtain ⟨rfl, rfl⟩ := Prod.mk.inj (Option.some.inj hcall)
      apply hsame
      obtain ⟨error, heq⟩ | ⟨twinId, did, heq⟩ := @begun_beginChallenge _ o id rawDid <;>
        rw [heq] <;> trivial
    | read id token scope =>
      obtain ⟨rfl, rfl⟩ := Prod.mk.inj (Option.some.inj hcall)
      apply hsame
      obtain ⟨error, heq⟩ | ⟨r, heq, hgrant, htwin⟩ := @begun_beginRead _ hash s id token scope
      · rw [heq]
        trivial
      · rw [heq]
        obtain ⟨login, hlogin, hentry⟩ := hs.sessions _ (Record.mem_of_get? hgrant)
        obtain ⟨hhash, hsession⟩ := Prod.mk.inj hentry
        exact ⟨⟨⟨login, hlogin, hhash.symm, hsession⟩, htwin⟩, fun basis a h => by cases h⟩
    | verify id input =>
      have hpair : ((beginVerify o s id input).1, begun (beginVerify o s id input).2) = (s', phase) :=
        Option.some.inj hcall
      have htakes : Takes s s' phase := by
        rw [← (Prod.mk.inj hpair).1, ← (Prod.mk.inj hpair).2]
        exact takes_of_beginVerify id input
      cases htakes with
      | failed error => exact hsame _ trivial
      | @takes k phase hpending hchecked =>
        have hgrows : s.Grows { s with
            challenges := s.challenges.delete k.challengeId, consumed := s.consumed ++ [k] } :=
          ⟨List.Subset.refl _, List.subset_append_left _ _, List.Subset.refl _⟩
        refine ⟨hs.take hpending, ?_, fun u hu => ⟨hu.mono hgrows, trivial⟩⟩
        obtain ⟨error, rfl⟩ | ⟨signature, rfl, htwin, hearly⟩ := hchecked
        · trivial
        · exact ⟨List.mem_append_right _ List.mem_cons_self, (hs.pending _ hpending).1, htwin, hearly⟩
  resume {s phase i s' phase' others} hs hphase hothers hguard hresume := by
    have hsame : phase'.Backed Signed Controls hash o s → s' = s →
        s'.Backed Signed Controls hash ∧ phase'.Backed Signed Controls hash o s' ∧
          ∀ u ∈ others, u.Backed Signed Controls hash o s' ∧ True := by
      rintro hphase' rfl
      exact ⟨hs, hphase', fun u hu => ⟨(hothers u hu).1, trivial⟩⟩
    cases segment_of_sessionResume hresume with
    | unsigned | rejected | refused | late => exact hsame trivial rfl
    | signed k signature address => exact hsame ⟨hphase, hguard.2.1 k signature address rfl rfl⟩ rfl
    | controlled k signature address =>
      exact hsame ⟨hphase.1, hphase.2, hguard.2.2 k signature address rfl rfl⟩ rfl
    | @asked purpose asking asking' _ hstep =>
      refine hsame ?_ rfl
      cases purpose with
      | challenge twinId did => trivial
      | login k signature address => exact hphase
      | read r =>
        refine ⟨hphase.1, fun basis a heq => ?_⟩
        exact allows_of_step o (heq ▸ hstep)
    | @resolved r basis a result hfields hearly =>
      refine hsame ⟨hphase.1, hearly, ?_⟩ rfl
      rw [hfields]
      exact hphase.2 basis a rfl
    | full error =>
      refine ⟨hs.prune, trivial, fun u hu => ⟨(hothers u hu).1.mono ?_, trivial⟩⟩
      exact ⟨List.Subset.refl _, List.Subset.refl _, List.Subset.refl _⟩
    | @challenged twinId did challengeId nonce basis a c hroom hdid htwin =>
      have hfresh := hguard.1 challengeId nonce rfl
      refine ⟨hs.prune.issue hroom hfresh, trivial, fun u hu => ⟨(hothers u hu).1.mono ?_, trivial⟩⟩
      exact ⟨List.subset_append_left _ _, List.Subset.refl _, List.Subset.refl _⟩
    | @loggedIn k signature address token basis a login hlogin hroom =>
      have hgenuine : login.Genuine Signed Controls s.prune := by
        rw [hlogin]
        obtain ⟨hvalid, hsigned, hcontrols⟩ := hphase
        exact ⟨⟨hvalid.logged, hvalid.issued, hvalid.twin, hvalid.early⟩, hsigned, hcontrols⟩
      have htoken : login.token = token := by rw [hlogin]
      refine ⟨?_, trivial, fun u hu => ⟨(hothers u hu).1.mono ?_, trivial⟩⟩
      · rw [← htoken]
        exact hs.prune.admitted hroom hgenuine
      · exact ⟨List.Subset.refl _, List.Subset.refl _, List.subset_append_left _ _⟩

/-! ## Every run -/

variable (Signed Controls hash o) in
/-- What holds whenever the service is at rest. -/
structure Protocol (c : Config Sessions SessionPhase) : Prop where
  /-- No challenge id is taken by two calls. -/
  once : (c.shared.consumed.map Consumption.challengeId).Nodup
  /-- Every session is the one of a login, for the Twin and the DID of a challenge that was valid when
  it was taken and that an address of the DID has signed. -/
  sessions : ∀ e ∈ c.shared.sessions, ∃ login ∈ c.shared.logins,
    e = (hash login.token, login.grant) ∧ login.Genuine Signed Controls c.shared
  bounded : c.shared.challenges.length ≤ 1000 ∧ c.shared.sessions.length ≤ 1000
  /-- A read that has resolved had the session of its token, for its Twin and not expired at the end,
  and has read a policy that allows the scope to the DID of the session. -/
  reads : ∀ r basis result time, .resolved r basis result time ∈ c.tasks →
    r.Held hash c.shared ∧ time < r.grant.expiresAt ∧
      basis.Allows o result.fields r.grant.did r.scope

variable (Signed Controls hash o) in
/-- **The protocol is kept** in every run of calls, with any answers in between, in which no
challenge id is drawn twice and the checks of signatures and controllers are sound. -/
theorem session_protocol (now : Nat) (es : List (Event SessionCall SessionInput Nat)) (c : Config Sessions SessionPhase)
    (hmeets : (twinSessions o hash).Meets (freshIds.and (soundChecks Signed Controls))
      ⟨.start now, []⟩ es)
    (hrun : (twinSessions o hash).run ⟨.start now, []⟩ es = some c) :
    Protocol Signed Controls hash o c := by
  have hstart : (Sessions.start now).Backed Signed Controls hash := by
    refine ⟨fun e he => ?_, fun k hk => ?_, List.nodup_nil, fun login hlogin => ?_, fun e he => ?_,
      Nat.zero_le _, Nat.zero_le _⟩
    · cases he
    · cases hk
    · cases hlogin
    · cases he
  have hholds := (admission_modular Signed Controls hash o).run (Holds.init hstart) hmeets hrun
  refine ⟨hholds.shared.once, fun e he => ?_, ?_, fun r basis result time hmem => ?_⟩
  · obtain ⟨login, hlogin, heq⟩ := hholds.shared.sessions e he
    exact ⟨login, hlogin, heq, hholds.shared.genuine login hlogin⟩
  · exact ⟨hholds.shared.fewChallenges, hholds.shared.fewSessions⟩
  · exact hholds.tasks _ hmem

end

/-! ## A login -/

def restrictedOptions : SharingOptions where
  network := "mainnet"
  packageId := "package"
  accessPackageId := none
  publicUrl := "https://dtis.example"
  parseJson _ := none

def restrictedId : String := .ofList ("0x".toList ++ .replicate 64 '1')

def restrictedOwner : String := .ofList ("did:iota:0x".toList ++ .replicate 64 'a')

/-- A Twin whose policy is in a file, and the file. -/
def restrictedFields : Json :=
  .object [("owner_did", .string restrictedOwner),
    ("mutable_metadata", .object [("dataVisibility", .string "restricted")])]

def restrictedTwin : Json :=
  .object [("type", .string "package::oid_twin::OIDTwin"), ("fields", restrictedFields)]

def restrictedFile : Json :=
  .object [("mode", .string "restricted"), ("allowedDids", .array [.string restrictedOwner]),
    ("ownerDid", .string restrictedOwner)]

theorem lower_restrictedOwner : @toLowerCase Runtime.ascii restrictedOwner = restrictedOwner := by
  show asciiLower restrictedOwner = restrictedOwner
  unfold asciiLower restrictedOwner
  rw [String.toList_ofList, List.map_append, List.map_replicate]
  rfl

theorem twinIdOf_restrictedId : @twinIdOf Runtime.ascii restrictedId = .ok restrictedId := by
  have hlower : @toLowerCase Runtime.ascii restrictedId = restrictedId := by
    show asciiLower restrictedId = restrictedId
    unfold asciiLower restrictedId
    rw [String.toList_ofList, List.map_append, List.map_replicate]
    rfl
  have hid : isObjectId restrictedId := by
    unfold isObjectId restrictedId
    rw [String.toList_ofList]
    rfl
  unfold twinIdOf
  rw [hlower]
  exact if_pos hid

theorem didOf_restrictedOwner :
    @didOf Runtime.ascii restrictedOptions (some (.string restrictedOwner)) = .ok restrictedOwner := by
  have htrim : trim restrictedOwner = restrictedOwner := by
    unfold trim restrictedOwner
    rw [String.toList_ofList]
    rfl
  have hdid : isDid restrictedOwner "mainnet" := by
    unfold isDid startsWith restrictedOwner
    rw [String.toList_ofList]
    unfold isObjectId
    rw [String.toList_ofList]
    rfl
  rw [@didOf_string Runtime.ascii, htrim, lower_restrictedOwner]
  exact if_pos hdid

/-- The file admits the owner to every scope. -/
theorem authorizeStored_restrictedOwner (scope : Scope) :
    ∃ a, @authorizeStored Runtime.ascii restrictedOptions restrictedFields
      (.object [("dataVisibility", .string "restricted")]) (some restrictedFile) restrictedOwner
      scope = .ok a := by
  have hstored : stored (some restrictedFile) =
      .ok (some ⟨.restricted, [.string restrictedOwner], none, restrictedOwner, none, false⟩) := rfl
  have howner : @lowerField Runtime.ascii restrictedFields "owner_did" = .ok restrictedOwner :=
    congrArg Except.ok lower_restrictedOwner
  have hconfirmed : (dataVisibility (.object [("dataVisibility", .string "restricted")])).any
      (·.strictEq (.string "restricted")) = true := rfl
  have hincludes : includes [.string restrictedOwner] restrictedOwner = true := by
    simp [includes, strictEq]
  refine ⟨⟨restrictedFields, none, storedRights
    ⟨.restricted, [.string restrictedOwner], none, restrictedOwner, none, false⟩ restrictedOwner true⟩, ?_⟩
  unfold authorizeStored
  rw [hstored, howner, didOf_restrictedOwner]
  simp only [bind, Except.bind, hconfirmed, hincludes, pure, Except.pure, if_true, bne_self_eq_false,
    Bool.not_true, Bool.false_and, Bool.and_false, Bool.or_false, beq_self_eq_true,
    Bool.false_eq_true, if_false]

/-- What the owner returns for the challenge. -/
def restrictedProof : Json :=
  .object [("challengeId", .string "c"), ("did", .string restrictedOwner), ("signature", .string "s")]

/-- What the ledger, the chain and the file say. -/
def restrictedAnswers : List SessionInput :=
  [.twin (.ok restrictedTwin), .chain none, .file (.ok (some restrictedFile))]

theorem thread_restrictedAnswers (s : Sessions) {p : Purpose} (hdid : p.did = restrictedOwner) :
    ∃ basis a, (@twinSessions Runtime.ascii restrictedOptions id).thread s (.asking p .twin)
      restrictedAnswers = some (s, .asking p (.granted basis a)) := by
  obtain ⟨a, ha⟩ := authorizeStored_restrictedOwner p.scope
  have htwin : @twinFields Runtime.ascii restrictedOptions restrictedTwin = .ok restrictedFields := rfl
  have hchain : @chainPolicy Runtime.ascii restrictedOptions restrictedFields none = .ok none := rfl
  have hmetadata : metadata restrictedOptions (restrictedFields.get? "mutable_metadata") =
      .ok (.object [("dataVisibility", .string "restricted")]) := rfl
  refine ⟨.file (.object [("dataVisibility", .string "restricted")]) (some restrictedFile), a, ?_⟩
  simp only [restrictedAnswers, Machine.thread, twinSessions, sessionResume, Asking.step, htwin, hchain,
    hmetadata, hdid, ha, decided, Option.map_some, Option.bind_some]

/-- The owner asks for a challenge, returns it signed, and reads. -/
def ownerReads : List (Event SessionCall SessionInput Nat) :=
  Event.alone 0 (.challenge restrictedId (some (.string restrictedOwner)))
    (restrictedAnswers ++ [.challenge "c" "n"]) ++
  (Event.alone 1 (.verify restrictedId restrictedProof)
    (.signature (some "0xa") :: .controller (.ok true) :: (restrictedAnswers ++ [.token "t"])) ++
  Event.alone 2 (.read restrictedId "t" .storage) (restrictedAnswers ++ [.go]))

def ownerChallenge : Challenge where
  did := restrictedOwner
  twinId := restrictedId
  message := @challengeMessage Runtime.ascii restrictedOptions restrictedId restrictedOwner "n" 120000
  expiresAt := 120000

def ownerLogin : Login := ⟨⟨restrictedId, "c", ownerChallenge, 0⟩, "s", "0xa", "t", 0⟩

/-- The states between the calls. -/
def afterChallenge : Sessions where
  now := 0
  challenges := [("c", ownerChallenge)]
  issued := [("c", ownerChallenge)]

def afterVerify : Sessions where
  now := 0
  issued := [("c", ownerChallenge)]
  consumed := [ownerLogin.consumption]

def afterLogin : Sessions :=
  { afterVerify with sessions := [("t", ownerLogin.grant)], logins := [ownerLogin] }

section
variable [Runtime] {o : SharingOptions} {hash : String → String} {twinId did : String} {basis : Basis} {a : Authorization}

theorem sessionCall_challenge (s : Sessions) (hid : twinIdOf twinId = .ok twinId)
    (hdid : didOf o (some (.string did)) = .ok did) :
    sessionCall o hash s (.challenge twinId (some (.string did))) =
      some (s, .asking (.challenge twinId did) .twin) := by
  simp only [sessionCall, beginChallenge, hid, hdid, bind, Except.bind, pure, Except.pure, begun]

theorem sessionCall_read {s : Sessions} {grant : Grant} {token : String} {scope : Scope}
    (hid : twinIdOf twinId = .ok twinId) (hget : s.sessions.get? (hash token) = some grant)
    (htwin : grant.twinId = twinId) (hlive : s.now < grant.expiresAt) :
    sessionCall o hash s (.read twinId token scope) =
      some (s, .asking (.read ⟨twinId, token, scope, grant⟩) .twin) := by
  simp [sessionCall, beginRead, hid, bind, Except.bind, hget, htwin, Nat.not_le.mpr hlive, begun, pure, Except.pure]

/-- The state with the first challenge. -/
theorem thread_challenge :
    (twinSessions o hash).thread (.start 0) (.asking (.challenge twinId did) (.granted basis a)) [.challenge "c" "n"] =
      let c : Challenge := ⟨did, twinId, challengeMessage o twinId did "n" 120000, 120000⟩
      some ({ now := 0, challenges := [("c", c)], issued := [("c", c)] }, .challenged "c" c) := by
  simp [Machine.thread, twinSessions, sessionResume, endChallenge, Sessions.prune, Sessions.start, Record.set]

theorem thread_signing (s : Sessions) (consumption : Consumption) (is : List SessionInput) :
    (twinSessions o hash).thread s (.signing consumption "s")
        (.signature (some "0xa") :: .controller (.ok true) :: is) =
      (twinSessions o hash).thread s (.asking (.login consumption "s" "0xa") .twin) is := rfl

/-- The state with the first session. -/
theorem thread_login {consumption : Consumption} {issued : List (String × Challenge)} {consumed : List Consumption} :
    (twinSessions o id).thread { now := 0, issued, consumed } (.asking (.login consumption "s" "0xa") (.granted basis a))
        [.token "t"] =
      let login : Login := ⟨consumption, "s", "0xa", "t", 0⟩
      some ({ now := 0, issued, consumed, sessions := [("t", login.grant)], logins := [login] }, .verified "t" 1800000) := by
  simp [Machine.thread, twinSessions, sessionResume, endVerify, Sessions.prune, Login.grant, Record.set]

end

theorem call_challenge :
    (@twinSessions Runtime.ascii restrictedOptions id).call (.start 0)
        (.challenge restrictedId (some (.string restrictedOwner))) =
      some (.start 0, .asking (.challenge restrictedId restrictedOwner) .twin) := by
  rw [@twinSessions_call Runtime.ascii]
  exact @sessionCall_challenge Runtime.ascii _ _ _ _ _ twinIdOf_restrictedId didOf_restrictedOwner

theorem checkChallenge_ownerChallenge :
    @checkChallenge Runtime.ascii restrictedOptions restrictedId restrictedProof ownerChallenge 0 =
      .ok "s" := by
  have hdid : restrictedProof.get? "did" = some (.string restrictedOwner) := rfl
  have hsignature : restrictedProof.get? "signature" = some (.string "s") := rfl
  have hshort : utf16Length "s" = 1 := rfl
  unfold checkChallenge
  rw [hdid, didOf_restrictedOwner, hsignature]
  simp [ownerChallenge, hshort, bind, Except.bind]

theorem call_verify :
    (@twinSessions Runtime.ascii restrictedOptions id).call afterChallenge
        (.verify restrictedId restrictedProof) =
      some (afterVerify, .signing ownerLogin.consumption "s") := by
  have hid : @conversion String (@stringOf Runtime.ascii (restrictedProof.get? "challengeId")) =
      .ok "c" := rfl
  have hget : afterChallenge.challenges.get? "c" = some ownerChallenge := rfl
  rw [@twinSessions_call Runtime.ascii]
  simp only [sessionCall, beginVerify, twinIdOf_restrictedId, hid, bind, Except.bind, pure, Except.pure,
    hget]
  rw [show afterChallenge.now = 0 from rfl, checkChallenge_ownerChallenge]
  rfl

def ownerRead : Read := ⟨restrictedId, "t", .storage, ownerLogin.grant⟩

theorem call_read :
    (@twinSessions Runtime.ascii restrictedOptions id).call afterLogin
        (.read restrictedId "t" .storage) =
      some (afterLogin, .asking (.read ownerRead) .twin) := by
  rw [@twinSessions_call Runtime.ascii]
  exact @sessionCall_read Runtime.ascii _ _ _ _ ownerLogin.grant _ _ twinIdOf_restrictedId rfl rfl
    (Nat.lt_of_lt_of_eq (by decide) (show 1800000 = ownerLogin.grant.expiresAt from rfl))

/-- Three calls and three answers: the last is a read that has resolved. -/
theorem run_ownerReads :
    ∃ c basis result, (@twinSessions Runtime.ascii restrictedOptions id).run ⟨.start 0, []⟩
        ownerReads = some c ∧ c.tasks[2]? = some (.resolved ownerRead basis result 0) ∧
      c.shared.sessions.length = 1 := by
  obtain ⟨basis₁, a₁, hask₁⟩ := thread_restrictedAnswers (.start 0)
    (p := .challenge restrictedId restrictedOwner) rfl
  obtain ⟨basis₂, a₂, hask₂⟩ := thread_restrictedAnswers afterVerify
    (p := .login ownerLogin.consumption "s" "0xa") rfl
  obtain ⟨basis₃, a₃, hask₃⟩ := thread_restrictedAnswers afterLogin (p := .read ownerRead) rfl
  have hthread₁ := (Machine.thread_append hask₁ [.challenge "c" "n"]).trans (@thread_challenge Runtime.ascii ..)
  have hthread₂ : (@twinSessions Runtime.ascii restrictedOptions id).thread afterVerify
      (.signing ownerLogin.consumption "s")
      (.signature (some "0xa") :: .controller (.ok true) :: (restrictedAnswers ++ [.token "t"])) =
      some (afterLogin, .verified "t" 1800000) :=
    (@thread_signing Runtime.ascii ..).trans
      ((Machine.thread_append hask₂ [.token "t"]).trans (@thread_login Runtime.ascii ..))
  obtain ⟨result, hend⟩ : ∃ result,
      endRead afterLogin ownerRead basis₃ a₃ = .resolved ownerRead basis₃ result 0 := ⟨_, rfl⟩
  have hthread₃ := (Machine.thread_append hask₃ [.go]).trans
    (show _ = some (afterLogin, endRead afterLogin ownerRead basis₃ a₃) from rfl)
  rw [hend] at hthread₃
  refine ⟨⟨afterLogin, [.challenged "c" ownerChallenge, .verified "t" 1800000,
    .resolved ownerRead basis₃ result 0]⟩, basis₃, result, ?_, rfl, rfl⟩
  unfold ownerReads
  refine (Machine.run_append _ (Machine.run_call call_challenge hthread₁ []) _).trans ?_
  refine (Machine.run_append _ (Machine.run_call call_verify hthread₂ [_]) _).trans ?_
  exact Machine.run_call call_read hthread₃ [_, _]

/-- One address signs, and it controls every DID. -/
def ownerGuard : Guard Sessions SessionPhase SessionInput :=
  freshIds.and (soundChecks (fun _ _ address => address = "0xa") fun _ _ => True)

theorem ownerGuard_of_ne {i : SessionInput} (hchallenge : ∀ challengeId nonce, i ≠ .challenge challengeId nonce)
    (haddress : ∀ address, i = .signature (some address) → address = "0xa") (s : Sessions)
    (phase : SessionPhase) (others : List SessionPhase) : ownerGuard s phase others i := by
  refine ⟨fun challengeId nonce hi => absurd hi (hchallenge _ _), ?_, ?_⟩
  · intro k signature address _ hi
    exact haddress address hi
  · exact fun _ _ _ _ _ => trivial

theorem meets_ownerReads :
    (@twinSessions Runtime.ascii restrictedOptions id).Meets ownerGuard ⟨.start 0, []⟩ ownerReads := by
  obtain ⟨basis, a, hask⟩ := thread_restrictedAnswers (.start 0)
    (p := .challenge restrictedId restrictedOwner) rfl
  have hrun := Machine.run_call call_challenge hask []
  have hfirst : (@twinSessions Runtime.ascii restrictedOptions id).Meets ownerGuard ⟨.start 0, []⟩
      (Event.alone 0 (.challenge restrictedId (some (.string restrictedOwner))) restrictedAnswers) := by
    refine Machine.meets_of_inputs fun n i hi => ownerGuard_of_ne ?_ ?_
    · rintro challengeId nonce rfl
      simp [Event.alone, restrictedAnswers] at hi
    · rintro address rfl
      simp [Event.alone, restrictedAnswers] at hi
  refine @Machine.Meets.append _ _ _ _ _ _ _ _ _ (Event.alone 0 _ restrictedAnswers) (_ :: _)
    hfirst hrun ⟨fun phase _ => ?_, fun c _ => ?_⟩
  · refine ⟨fun _ _ _ e he => absurd he List.not_mem_nil, ?_, fun _ _ _ _ _ => trivial⟩
    intro _ _ _ _ hi
    cases hi
  · refine Machine.meets_of_inputs fun n i hi => ownerGuard_of_ne ?_ ?_
    · rintro challengeId nonce rfl
      simp [Event.alone, restrictedAnswers] at hi
    · rintro address rfl
      simp [Event.alone, restrictedAnswers] at hi
      exact hi.2

theorem session_protocol_owner :
    ∃ c basis result, @Protocol (fun _ _ address => address = "0xa") (fun _ _ => True) id
        Runtime.ascii restrictedOptions c ∧ c.tasks[2]? = some (.resolved ownerRead basis result 0) := by
  obtain ⟨c, basis, result, hrun, htask, -⟩ := run_ownerReads
  exact ⟨c, basis, result, @session_protocol _ _ id Runtime.ascii restrictedOptions 0 ownerReads c meets_ownerReads hrun, htask⟩

end Sharing
