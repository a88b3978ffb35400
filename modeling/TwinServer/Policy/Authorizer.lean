-- SUMMARY: Role decisions with cached grants: every decision of every run rests on a grant of the last `ttlMs`.
import TwinServer.Base.Async
import TwinServer.Base.Map
import TwinServer.Policy.Engine

/-!
# The policy authorizer

`TwinPolicyAuthorizer` of `src/policy/engine.ts` reads the Twin in every call, and its grants when those of
the cache have expired. The time of a decision is taken between the two readings, and the grants that a call
reads are kept for `ttlMs` from that time on, whichever call ends last.
-/

open Js Js.Json Async

namespace Policy

/-! ## The chain and the calls -/

/-- What the ledger has: the Twins, and the objects of their grants. -/
structure Chain where
  twin : String → Option Json
  grants : String → List Json

/-- An entry of `cache`. -/
structure Cached where
  expiresAt : Nat
  grants : List TwinRoleGrant

/-- The authorizer beside the ledger, with what the ledger had at the moments so far. -/
structure Server where
  now : Nat
  cache : Map Cached := .empty
  chain : Chain
  history : List (Nat × Chain)

inductive Stage where
  | gettingTwin
  | gettingGrants (twin : Json) (now : Nat)
  | resolved (twin : Json) (now : Nat)
  | rejected (error : Thrown)

/-- A call of `assertAllowed`. -/
structure Call where
  twinId : String
  subjectDid : String
  action : TwinAction
  startedAt : Nat
  stage : Stage

inductive Answer where
  | twin (answer : Except Thrown (Option Json))
  | grants (objects : Except Thrown (List (Option Json)))

inductive Outside where
  | change (chain : Chain)
  | advance (ms : Nat)

section
variable [Runtime] [UpperCase]

def getTwinRoleGrants (twinId : String) (objects : Except Thrown (List (Option Json))) :
    Except Thrown (List TwinRoleGrant) := do
  (← objects).mapM (roleGrantOf twinId)

def contextOf (twin : Json) (subjectDid : String) (grants : List TwinRoleGrant) :
    Except Thrown TwinAuthorizationContext := do
  let fields := Retention.twinFields (some twin)
  return {
    callerDid := subjectDid
    ownerDid := ← optionalDid (coalesce (fields.get? "owner_did") (fields.get? "ownerDid"))
    stewardDid := ← optionalDid (coalesce (fields.get? "steward_did") (fields.get? "stewardDid"))
    grants }

def twinNotFound : AppError where
  code := "TWIN_NOT_FOUND"
  message := "Twin was not found"
  status := 404
  category := .OBJECTID

/-- The end of `assertAllowed`. -/
def Call.decide (c : Call) (twin : Json) (now : Nat) (grants : List TwinRoleGrant) : Call :=
  let decision := do PolicyEngine.assertAllowed (← contextOf twin c.subjectDid grants) c.action now
  match decision with
  | .ok _ => { c with stage := .resolved twin now }
  | .error error => { c with stage := .rejected error }

/-- `assertAllowed` from the answer of `getTwin` on. -/
def Server.afterTwin (s : Server) (c : Call) (twin : Option Json) : Call :=
  match twin with
  | some twin =>
    if !twin.truthy then { c with stage := .rejected (.app twinNotFound) }
    else match s.cache.get? c.twinId with
      | some cached =>
        if cached.expiresAt ≤ s.now then { c with stage := .gettingGrants twin s.now }
        else c.decide twin s.now cached.grants
      | none => { c with stage := .gettingGrants twin s.now }
  | none => { c with stage := .rejected (.app twinNotFound) }

/-- `assertAllowed` from the answer of `getTwinRoleGrants` on. -/
def Server.afterGrants (ttlMs : Nat) (s : Server) (c : Call) (twin : Json) (now : Nat)
    (objects : Except Thrown (List (Option Json))) : Server × Call :=
  match getTwinRoleGrants c.twinId objects with
  | .error error => (s, { c with stage := .rejected error })
  | .ok grants => ({ s with cache := s.cache.set c.twinId ⟨now + ttlMs, grants⟩ }, c.decide twin now grants)

def authorizer (ttlMs : Nat) : Machine Server Call (String × String × TwinAction) Answer Outside where
  call s k := some (s, ⟨k.1, k.2.1, k.2.2, s.now, .gettingTwin⟩)
  resume s c
    | .twin answer => match c.stage with
      | .gettingTwin => match answer with
        | .error error => some (s, { c with stage := .rejected error })
        | .ok twin => some (s, s.afterTwin c twin)
      | _ => none
    | .grants objects => match c.stage with
      | .gettingGrants twin now => some (s.afterGrants ttlMs c twin now objects)
      | _ => none
  env s
    | .change chain => some { s with chain, history := s.history ++ [(s.now, chain)] }
    | .advance ms => some { s with now := s.now + ms, history := s.history ++ [(s.now + ms, s.chain)] }

/-- The server when no call has come yet. -/
def start (now : Nat) (chain : Chain) : Config Server Call := ⟨{ now, chain, history := [(now, chain)] }, []⟩

/-- A reading answers what the ledger has had since it was asked. The objects of the grants are read one by
one, and one that is gone by then is missing. -/
def honest : Guard Server Call Answer := fun s c _ answer =>
  match answer, c.stage with
  | .twin (.ok twin), .gettingTwin =>
    ∃ m chain, (m, chain) ∈ s.history ∧ c.startedAt ≤ m ∧ chain.twin c.twinId = twin
  | .grants (.ok objects), .gettingGrants _ now =>
    ∀ raw, some raw ∈ objects → ∃ m chain, (m, chain) ∈ s.history ∧ now ≤ m ∧ raw ∈ chain.grants c.twinId
  | _, _ => True

/-! ## What a decision rests on -/

/-- The subject is the owner or the steward that the Twin names. -/
def Native (twin : Json) (subjectDid : String) : Prop :=
  let fields := Retention.twinFields (some twin)
  Names (coalesce (fields.get? "owner_did") (fields.get? "ownerDid")) subjectDid ∨
    Names (coalesce (fields.get? "steward_did") (fields.get? "stewardDid")) subjectDid

/-- The Twin was read during the call, up to the time of the decision. -/
def Call.Read (c : Call) (history : List (Nat × Chain)) (twin : Json) (now : Nat) : Prop :=
  ∃ m chain, (m, chain) ∈ history ∧ c.startedAt ≤ m ∧ m ≤ now ∧ chain.twin c.twinId = some twin

/-- The ledger had an object of the grant at the moment. -/
def OnChain (history : List (Nat × Chain)) (twinId : String) (moment : Nat) (grant : TwinRoleGrant) : Prop :=
  ∃ chain raw, (moment, chain) ∈ history ∧ raw ∈ chain.grants twinId ∧ roleGrantOf twinId (some raw) = .ok grant

/-- A grant of the caller that permits the action at the time was on chain not more than `ttlMs` before. -/
def Call.Granted (ttlMs : Nat) (c : Call) (history : List (Nat × Chain)) (now : Nat) : Prop :=
  ∃ moment grant, OnChain history c.twinId moment grant ∧ now ≤ moment + ttlMs ∧
    grant.Permits c.subjectDid c.action now

/-- Those of the grants that permit anything were on chain from a moment on. -/
def Listed (history : List (Nat × Chain)) (twinId : String) (since : Nat) (grants : List TwinRoleGrant) : Prop :=
  ∀ grant ∈ grants, ∀ subjectDid action now, grant.Permits subjectDid action now →
    ∃ moment, since ≤ moment ∧ OnChain history twinId moment grant

variable {ttlMs now : Nat} {s : Server} {c : Call} {twin : Json} {history history' : List (Nat × Chain)}
  {twinId : String} {since : Nat} {grants : List TwinRoleGrant}

theorem Listed.mono (h : Listed history twinId since grants) (hsub : history ⊆ history') :
    Listed history' twinId since grants := by
  intro grant hgrant subjectDid action now hpermits
  obtain ⟨moment, hsince, chain, raw, hmem, hrest⟩ := h grant hgrant subjectDid action now hpermits
  exact ⟨moment, hsince, chain, raw, hsub hmem, hrest⟩

/-- An object that was missing grants nothing: no role is called "undefined". -/
theorem not_permits_missing {grant : TwinRoleGrant} (h : roleGrantOf twinId none = .ok grant) (subjectDid : String)
    (action : TwinAction) (now : Nat) : ¬ grant.Permits subjectDid action now := by
  intro hpermits
  have hrole : grant.roleType = none := by
    obtain ⟨_, -, h⟩ := Except.bind_eq_ok.mp h
    obtain ⟨_, -, h⟩ := Except.bind_eq_ok.mp h
    obtain ⟨_, -, h⟩ := Except.bind_eq_ok.mp h
    obtain ⟨_, -, h⟩ := Except.bind_eq_ok.mp h
    obtain rfl := Except.pure_eq_ok.mp h
    rfl
  obtain ⟨role, htext, hmem⟩ := hpermits.role
  rw [hrole] at htext
  obtain rfl := Option.some.inj htext
  have hupper : toUpperCase "undefined" = "UNDEFINED" := by
    rw [UpperCase.toUpperCase_ascii _ (by decide)]
    decide
  have hnone : permitted "undefined" = [] := by
    have hnumeric : numericRoles.get? "undefined" = none := by decide
    rw [permitted, hnumeric, Option.getD_none, hupper]
    decide
  rw [hnone] at hmem
  cases hmem

/-- The grants that are read are those of the ledger since they were asked for. -/
theorem listed_of_honest {objects : List (Option Json)}
    (hobjects : ∀ raw, some raw ∈ objects → ∃ m chain, (m, chain) ∈ history ∧ since ≤ m ∧ raw ∈ chain.grants twinId)
    (h : getTwinRoleGrants twinId (.ok objects) = .ok grants) : Listed history twinId since grants := by
  intro grant hgrant subjectDid action now hpermits
  obtain ⟨raw, hraw, hgrantOf⟩ := (Except.mem_of_mapM_eq_ok h grant).mp hgrant
  cases raw with
  | none => exact absurd hpermits (not_permits_missing hgrantOf subjectDid action now)
  | some raw =>
      obtain ⟨m, chain, hmem, hsince, hchain⟩ := hobjects raw hraw
      exact ⟨m, hsince, chain, raw, hmem, hchain, hgrantOf⟩

/-- A decision rests on the Twin, or on one of the grants. -/
theorem Call.decide_eq_resolved {twin' : Json} {now' : Nat}
    (h : (c.decide twin now grants).stage = .resolved twin' now') :
    twin' = twin ∧ now' = now ∧
      (Native twin c.subjectDid ∨ ∃ grant ∈ grants, grant.Permits c.subjectDid c.action now) := by
  rw [Call.decide] at h
  split at h
  · rename_i allowed hallowed
    obtain ⟨rfl, rfl⟩ := Stage.resolved.inj h
    refine ⟨rfl, rfl, ?_⟩
    obtain ⟨context, hcontext, hengine⟩ := Except.bind_eq_ok.mp hallowed
    obtain ⟨ownerDid, howner, hcontext⟩ := Except.bind_eq_ok.mp hcontext
    obtain ⟨stewardDid, hsteward, hcontext⟩ := Except.bind_eq_ok.mp hcontext
    obtain rfl := Except.pure_eq_ok.mp hcontext
    rcases PolicyEngine.assertAllowed_eq_ok hengine with hnamed | hnamed | hgrant
    · exact .inl (.inl (names_of_optionalDid (howner.trans (congrArg _ hnamed))))
    · exact .inl (.inr (names_of_optionalDid (hsteward.trans (congrArg _ hnamed))))
    · exact .inr hgrant
  · cases h

theorem Call.decide_fields (c : Call) (twin : Json) (now : Nat) (grants : List TwinRoleGrant) :
    c.decide twin now grants = { c with stage := (c.decide twin now grants).stage } := by
  rw [Call.decide]
  split <;> rfl

/-! ## What is kept -/

/-- The entries of the cache expire `ttlMs` after their grants were asked for, and nothing is known of later
moments. -/
structure Server.Kept (ttlMs : Nat) (s : Server) : Prop where
  cached : ∀ twinId cached, s.cache.get? twinId = some cached →
    ∃ since, cached.expiresAt = since + ttlMs ∧ Listed s.history twinId since cached.grants
  past : ∀ m chain, (m, chain) ∈ s.history → m ≤ s.now

/-- What a stage of the call rests on. -/
@[local grind] def Call.Kept (ttlMs : Nat) (s : Server) (c : Call) : Prop :=
  match c.stage with
  | .gettingGrants twin now => c.Read s.history twin now
  | .resolved twin now =>
    c.Read s.history twin now ∧ (Native twin c.subjectDid ∨ c.Granted ttlMs s.history now)
  | .gettingTwin | .rejected _ => True

omit [Runtime] [UpperCase] in
theorem Call.Read.mono (h : c.Read history twin now) (hsub : history ⊆ history') : c.Read history' twin now := by
  obtain ⟨m, chain, hmem, hrest⟩ := h
  exact ⟨m, chain, hsub hmem, hrest⟩

theorem Call.Kept.mono {s' : Server} (h : c.Kept ttlMs s) (hsub : s.history ⊆ s'.history) : c.Kept ttlMs s' := by
  rw [Call.Kept] at h ⊢
  split at h
  · exact h.mono hsub
  · refine ⟨h.1.mono hsub, h.2.imp_right fun ⟨moment, grant, hchain, hrest⟩ => ?_⟩
    obtain ⟨chain, raw, hmem, hraw⟩ := hchain
    exact ⟨moment, grant, ⟨chain, raw, hsub hmem, hraw⟩, hrest⟩
  · trivial
  · trivial

/-- A decision is kept when its grants were asked for at most `ttlMs` before. -/
theorem Call.kept_decide (hread : c.Read s.history twin now) (hlisted : Listed s.history c.twinId since grants)
    (hnow : now ≤ since + ttlMs) : (c.decide twin now grants).Kept ttlMs s := by
  rw [Call.decide_fields]
  cases hstage : (c.decide twin now grants).stage with
  | gettingTwin => trivial
  | rejected error => trivial
  | gettingGrants twin' now' =>
      rw [Call.decide] at hstage
      split at hstage <;> cases hstage
  | resolved twin' now' =>
      obtain ⟨rfl, rfl, hrests⟩ := Call.decide_eq_resolved hstage
      refine ⟨hread, hrests.imp_right fun ⟨grant, hgrant, hpermits⟩ => ?_⟩
      obtain ⟨moment, hsince, hchain⟩ := hlisted grant hgrant _ _ _ hpermits
      exact ⟨moment, grant, hchain, by omega, hpermits⟩

theorem Server.Kept.afterTwin (hs : s.Kept ttlMs) {answer : Option Json}
    (hread : ∃ m chain, (m, chain) ∈ s.history ∧ c.startedAt ≤ m ∧ chain.twin c.twinId = answer) :
    (s.afterTwin c answer).Kept ttlMs s := by
  cases answer with
  | none => trivial
  | some twin =>
      obtain ⟨m, chain, hmem, hstarted, htwin⟩ := hread
      have hcall : c.Read s.history twin s.now := ⟨m, chain, hmem, hstarted, hs.past m chain hmem, htwin⟩
      simp only [Server.afterTwin]
      split
      · trivial
      · split
        · rename_i cached hcached
          split
          · exact hcall
          · -- the entry has not expired
            obtain ⟨since, hexpires, hlisted⟩ := hs.cached _ _ hcached
            exact Call.kept_decide hcall hlisted (by omega)
        · exact hcall

theorem Server.Kept.afterGrants (hs : s.Kept ttlMs) (hread : c.Read s.history twin now)
    {objects : Except Thrown (List (Option Json))}
    (hobjects : ∀ answer, objects = .ok answer → ∀ raw, some raw ∈ answer →
      ∃ m chain, (m, chain) ∈ s.history ∧ now ≤ m ∧ raw ∈ chain.grants c.twinId) :
    (s.afterGrants ttlMs c twin now objects).1.Kept ttlMs ∧
      (s.afterGrants ttlMs c twin now objects).1.history = s.history ∧
      (s.afterGrants ttlMs c twin now objects).2.Kept ttlMs s := by
  rw [Server.afterGrants]
  split
  · exact ⟨hs, rfl, trivial⟩
  · rename_i grants hgrants
    have hlisted : Listed s.history c.twinId now grants := by
      cases objects with
      | error error => cases hgrants
      | ok answer => exact listed_of_honest (hobjects answer rfl) hgrants
    refine ⟨⟨fun twinId cached hcached => ?_, hs.past⟩, rfl, Call.kept_decide hread hlisted (Nat.le_add_right _ _)⟩
    rw [Map.get?_set] at hcached
    split at hcached
    · rename_i htwin
      obtain rfl := Option.some.inj hcached
      exact ⟨now, rfl, htwin ▸ hlisted⟩
    · exact hs.cached _ _ hcached

/-- The ledger and the clock go on. -/
theorem Server.Kept.note (hs : s.Kept ttlMs) {later : Nat} (hlater : s.now ≤ later) (chain : Chain) :
    Server.Kept ttlMs { s with now := later, chain, history := s.history ++ [(later, chain)] } := by
  refine ⟨fun twinId cached hcached => ?_, fun m chain' hmem => ?_⟩
  · obtain ⟨since, hexpires, hlisted⟩ := hs.cached _ _ hcached
    exact ⟨since, hexpires, hlisted.mono (List.subset_append_left _ _)⟩
  · rcases List.mem_append.mp hmem with hmem | hmem
    · exact (hs.past m chain' hmem).trans hlater
    · obtain ⟨rfl, rfl⟩ := Prod.mk.inj (List.mem_singleton.mp hmem)
      exact Nat.le_refl _

theorem authorizer_modular (ttlMs : Nat) :
    Modular (authorizer ttlMs) honest (Server.Kept ttlMs) (fun s c => c.Kept ttlMs s) (fun _ _ => True) where
  symm _ := trivial
  call hs h := by
    obtain ⟨rfl, rfl⟩ := Prod.mk.inj (Option.some.inj h)
    exact ⟨hs, trivial, fun u hu => ⟨hu, trivial⟩⟩
  resume {s c answer s' c' others} hs hc hothers hhonest h := by
    cases answer with
    | twin answer =>
        cases hstage : c.stage with
        | gettingTwin =>
            simp only [authorizer, hstage] at h
            cases answer with
            | error error =>
                obtain ⟨rfl, rfl⟩ := Prod.mk.inj (Option.some.inj h)
                exact ⟨hs, trivial, fun u hu => ⟨(hothers u hu).1, trivial⟩⟩
            | ok twin =>
                obtain ⟨rfl, rfl⟩ := Prod.mk.inj (Option.some.inj h)
                simp only [honest, hstage] at hhonest
                exact ⟨hs, hs.afterTwin hhonest, fun u hu => ⟨(hothers u hu).1, trivial⟩⟩
        | _ => simp only [authorizer, hstage, reduceCtorEq] at h
    | grants objects =>
        cases hstage : c.stage with
        | gettingGrants twin now =>
            simp only [authorizer, hstage] at h
            have hread : c.Read s.history twin now := by
              rw [Call.Kept, hstage] at hc
              exact hc
            have hobjects : ∀ answer, objects = .ok answer → ∀ raw, some raw ∈ answer →
                ∃ m chain, (m, chain) ∈ s.history ∧ now ≤ m ∧ raw ∈ chain.grants c.twinId := by
              rintro answer rfl
              simpa only [honest, hstage] using hhonest
            obtain ⟨hkept, hhistory, hcall⟩ := hs.afterGrants hread hobjects
            rw [Option.some.inj h] at hkept hhistory hcall
            have hsub : s.history ⊆ s'.history := by
              rw [hhistory]
              exact List.Subset.refl _
            exact ⟨hkept, hcall.mono hsub, fun u hu => ⟨(hothers u hu).1.mono hsub, trivial⟩⟩
        | _ => simp only [authorizer, hstage, reduceCtorEq] at h
  env {s e s'} hs h := by
    cases e with
    | change chain =>
        obtain rfl := Option.some.inj h
        exact ⟨hs.note (Nat.le_refl _) chain, fun u hu => hu.mono (List.subset_append_left _ _)⟩
    | advance ms =>
        obtain rfl := Option.some.inj h
        exact ⟨hs.note (Nat.le_add_right _ _) s.chain, fun u hu => hu.mono (List.subset_append_left _ _)⟩

/-! ## Runs -/

/-- Every call that is allowed an action is that of the owner or the steward whom the Twin named when it was read
during the call, or a grant that permits the action at the time of the decision was on chain not more than
`ttlMs` before. -/
theorem resolved_justified {es : List (Event (String × String × TwinAction) Answer Outside)} {chain : Chain}
    {config : Config Server Call} (hmeets : (authorizer ttlMs).Meets honest (start now chain) es)
    (hrun : (authorizer ttlMs).run (start now chain) es = some config) :
    ∀ c ∈ config.tasks, ∀ twin decidedAt, c.stage = .resolved twin decidedAt →
      c.Read config.shared.history twin decidedAt ∧
        (Native twin c.subjectDid ∨ c.Granted ttlMs config.shared.history decidedAt) := by
  have hstart : Server.Kept ttlMs (start now chain).shared := by
    refine ⟨fun twinId cached h => ?_, fun m chain' hmem => ?_⟩
    · cases h
    · obtain ⟨rfl, rfl⟩ := Prod.mk.inj (List.mem_singleton.mp hmem)
      exact Nat.le_refl _
  have hholds := (authorizer_modular ttlMs).run (.init hstart) hmeets hrun
  intro c hc twin decidedAt hstage
  have hkept := hholds.tasks c hc
  rw [Call.Kept, hstage] at hkept
  exact hkept

end

/-! ## A decision from the cache -/

/-- The Twin of the sample, and the object of an operator's grant. -/
def sampleTwin : Json := .object [("owner_did", .string "did:owner")]
def sampleGrant : Json :=
  .object [("fields", .object [("subject_did", .string "did:operator"), ("role_type", .string "4")])]

def sampleChain (grants : List Json) : Chain := ⟨fun _ => some sampleTwin, fun _ => grants⟩

/-- A call of the operator. -/
def sampleCall : String × String × TwinAction := ("0x7", "did:operator", .ExecuteCommand)

/-- The grant is read for one call. It is revoked, and another call comes in the last millisecond of the entry. -/
def sampleEvents : List (Event (String × String × TwinAction) Answer Outside) :=
  [.call sampleCall, .resume 0 (.twin (.ok (some sampleTwin))), .resume 0 (.grants (.ok [some sampleGrant])),
    .env (.change (sampleChain [])), .env (.advance 14999), .call sampleCall,
    .resume 1 (.twin (.ok (some sampleTwin)))]

def Stage.decidedAt : Stage → Option Nat
  | .resolved _ now => some now
  | _ => none

theorem resolved_justified_sample :
    ∃ config : Config Server Call, config.tasks.map (·.stage.decidedAt) = [some 5, some 15004] ∧
      ∀ c ∈ config.tasks, ∀ twin decidedAt, c.stage = .resolved twin decidedAt →
        c.Read config.shared.history twin decidedAt ∧
          (@Native Runtime.ascii twin c.subjectDid ∨
            @Call.Granted Runtime.ascii UpperCase.ascii 15000 c config.shared.history decidedAt) := by
  let _ := Runtime.ascii
  let _ := UpperCase.ascii
  have hend : ((authorizer 15000).run (start 5 (sampleChain [sampleGrant])) sampleEvents).map
      (fun config => config.tasks.map (·.stage.decidedAt)) = some [some 5, some 15004] := by
    decide
  have hmeets : (authorizer 15000).Meets honest (start 5 (sampleChain [sampleGrant])) sampleEvents := by
    refine ⟨trivial, fun c₁ h₁ => ⟨fun t ht => ?_, fun c₂ h₂ => ⟨fun t ht => ?_, fun c₃ h₃ => ⟨trivial, fun c₄ h₄ =>
      ⟨trivial, fun c₅ h₅ => ⟨trivial, fun c₆ h₆ => ⟨fun t ht => ?_, fun _ _ => trivial⟩⟩⟩⟩⟩⟩⟩
    all_goals obtain rfl := Option.some.inj h₁
    · obtain rfl := Option.some.inj ht
      exact ⟨5, _, List.mem_cons_self, Nat.le_refl _, rfl⟩
    all_goals obtain rfl := Option.some.inj h₂
    · obtain rfl := Option.some.inj ht
      intro raw hraw
      obtain rfl := Option.some.inj (List.mem_singleton.mp hraw)
      exact ⟨5, _, List.mem_cons_self, Nat.le_refl _, List.mem_cons_self⟩
    · obtain rfl := Option.some.inj h₃
      obtain rfl := Option.some.inj h₄
      obtain rfl := Option.some.inj h₅
      obtain rfl := Option.some.inj h₆
      obtain rfl := Option.some.inj ht
      exact ⟨5 + 14999, _, List.mem_append_right _ List.mem_cons_self, Nat.le_refl _, rfl⟩
  obtain ⟨config, hrun, hdecided⟩ := Option.map_eq_some_iff.mp hend
  exact ⟨config, hdecided, resolved_justified hmeets hrun⟩

end Policy
