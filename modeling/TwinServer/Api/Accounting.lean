-- SUMMARY: Which mutations of a tenant's request are charged to his account.
import TwinServer.Api.Mutations

/-!
# Accounting of mutations

The account is the last argument of every mutation, and a missing one stands for the default account
of the server. The handlers that end in a mutation pass it on, the evaluation does not.
-/

open Js Js.Json ObjectId Sharing Plants Thread

namespace Api

section
variable [Services]

/-- The mutation is made for the account, and the default account of the publisher plays no part. -/
structure ChargedTo (a : AccountingContext) (m : Mutation) : Prop where
  receives : m.accounting = some a
  noDefault : ∀ (p : IotaStatePublisher) (objects : SignerObjects), p.objects = .ok objects →
    p.subscriptionIdFor m.accounting = requiredObjectId (some (.string a.subscriptionId)) "subscriptionId"

variable {a : AccountingContext} {b : Backend} {r : Request}

theorem chargedTo_of_receives {m : Mutation} (h : m.accounting = some a) : ChargedTo a m := by
  refine ⟨h, fun p objects hobjects => ?_⟩
  unfold IotaStatePublisher.subscriptionIdFor
  rw [hobjects, h]
  rfl

/-- Every mutation is charged to the account. -/
abbrev Charged {α : Type} (a : AccountingContext) (x : Handling α) : Prop := x.All (ChargedTo a)

theorem charged_mutate (m : Mutation) (h : m.accounting = some a) : Charged a (b.mutate m) :=
  .entry (chargedTo_of_receives h) _

/-! ## The services -/

theorem registerDataset_charged (id : String) (body : Option Json) :
    Charged a (b.registerDataset id body (some a)) := by
  unfold Backend.registerDataset
  apply Logged.All.liftBind
  intro data _
  cases data with
  | some data =>
    refine .liftBind fun _ _ => .liftBind fun _ _ => ?_
    exact charged_mutate _ rfl
  | none =>
    refine .liftBind fun _ _ => .liftBind fun _ _ => ?_
    dsimp only
    split
    · exact .liftBind fun _ _ => .bind (.pure _) fun _ => charged_mutate _ rfl
    · exact .bind (.pure _) fun _ => charged_mutate _ rfl

theorem registerModel_charged (id : String) (body : Option Json) :
    Charged a (b.registerModel id body (some a)) := by
  unfold Backend.registerModel
  apply Logged.All.liftBind
  intro data _
  cases data with
  | none => exact charged_mutate _ rfl
  | some data =>
    refine .liftBind fun _ _ => .liftBind fun _ _ => ?_
    exact charged_mutate _ rfl

theorem registerBusinessEvent_charged (id : String) (body : Option Json) :
    Charged a (b.registerBusinessEvent id body (some a)) := by
  unfold Backend.registerBusinessEvent
  apply Logged.All.liftBind
  intro data _
  cases data with
  | none => exact charged_mutate _ rfl
  | some data => exact .liftBind fun _ _ => charged_mutate _ rfl

theorem createSnapshot_charged (id : String) (selection : Option Number × Option Number) :
    Charged a (b.createSnapshot id selection (some a)) := by
  unfold Backend.createSnapshot
  refine .liftBind fun _ _ => .liftBind fun _ _ => ?_
  apply Logged.All.bind (charged_mutate _ rfl)
  intro answer
  apply Logged.All.liftBind
  intro datasetId _
  cases datasetId with
  | none => exact .lift _
  | some datasetId => exact .pure _

theorem checked_charged (method : Method) (check : Option Json → Except Thrown (Option Json))
    (id : String) (body : Option Json) : Charged a (b.checked method check id body (some a)) := by
  unfold Backend.checked
  exact .liftBind fun _ _ => charged_mutate _ rfl

theorem assess_charged (id : String) (body : Option Json) : Charged a (b.assess id body (some a)) := by
  unfold Backend.assess
  refine .liftBind fun _ _ => .liftBind fun _ _ => ?_
  exact charged_mutate _ rfl

/-! ## The handlers -/

theorem mutation_charged {action : TwinAction}
    {execute : String → Option Json → Option AccountingContext → Handling Json} {status : Nat}
    (hr : r.accounting = some a) (h : ∀ id body, Charged a (execute id body (some a))) :
    Charged a (b.mutation action execute status r) := by
  unfold Backend.mutation
  apply Logged.All.liftBind
  intro _ _
  rw [hr]
  exact .bind (h _ _) fun _ => .pure _

theorem dataAccess_charged (hr : r.accounting = some a) : Charged a (b.dataAccess r) := by
  unfold Backend.dataAccess
  refine .liftBind fun _ _ => .liftBind fun _ _ => ?_
  apply Logged.All.bind (charged_mutate _ hr)
  exact fun _ => .liftBind fun _ _ => .pure _

theorem deleteRoute_charged (hr : r.accounting = some a) : Charged a (b.deleteRoute r) := by
  unfold Backend.deleteRoute
  refine .liftBind fun _ _ => .liftBind fun _ _ => .liftBind fun _ _ => ?_
  apply Logged.All.bind (charged_mutate _ hr)
  intro _
  rw [hr]
  refine .liftBind fun _ _ => ?_
  split
  · exact .liftBind fun _ _ => .pure _
  · exact .pure _

theorem deleteEventsRoute_charged (hr : r.accounting = some a) : Charged a (b.deleteEventsRoute r) := by
  unfold Backend.deleteEventsRoute
  refine .liftBind fun _ _ => .liftBind fun _ _ => .liftBind fun _ _ => ?_
  exact .bind (charged_mutate _ hr) fun _ => .pure _

theorem eventsRoute_charged (hr : r.accounting = some a) : Charged a (b.eventsRoute r) := by
  unfold Backend.eventsRoute
  refine .liftBind fun _ _ => .liftBind fun _ _ => ?_
  rw [hr]
  exact .bind (registerBusinessEvent_charged _ _) fun _ => .pure _

theorem evidenceBundlesRoute_charged (hr : r.accounting = some a) :
    Charged a (b.evidenceBundlesRoute r) := by
  unfold Backend.evidenceBundlesRoute
  refine .liftBind fun _ _ => .liftBind fun _ _ => ?_
  rw [hr]
  exact .bind (createSnapshot_charged _ _) fun _ => .pure _

/-- Every handler but the evaluation passes the account on. -/
theorem handler_charged (hr : r.accounting = some a) {route : Route} (hroute : route ≠ .evaluate) :
    Charged a (b.handler r route) := by
  cases route with
  | dataAccess => exact dataAccess_charged hr
  | patch => exact mutation_charged hr (checked_charged _ _)
  | delete => exact deleteRoute_charged hr
  | deleteEvents => exact deleteEventsRoute_charged hr
  | states => exact mutation_charged hr (checked_charged _ _)
  | datasets => exact mutation_charged hr registerDataset_charged
  | models => exact mutation_charged hr registerModel_charged
  | interfaces => exact mutation_charged hr (checked_charged _ _)
  | compositions => exact mutation_charged hr (checked_charged _ _)
  | identifierMappings => exact mutation_charged hr (checked_charged _ _)
  | assessments => exact mutation_charged hr assess_charged
  | evaluate => exact absurd rfl hroute
  | events => exact eventsRoute_charged hr
  | evidenceBundles => exact evidenceBundlesRoute_charged hr

/-! ## The evaluation -/

/-- The request asks for an evaluation that is written to the chain: it is admitted, the evaluation
succeeds, and the caller may write it. -/
structure CommitsEvaluation (b : Backend) (r : Request) : Prop where
  admitted : b.entry .evaluate r = .ok ()
  evaluated : ∃ result, b.evaluation r = .ok result
  commits : Backend.commits r = .ok true
  authorized : b.authorize r.id .CreateMaturityAssessment = .ok ()

/-- The evaluation mutates for the default account, exactly when it is to be written. -/
theorem evaluate_charged_iff : Charged a (b.handle .evaluate r) ↔ ¬ CommitsEvaluation b r := by
  constructor
  · intro h hcommits
    obtain ⟨result, hresult⟩ := hcommits.evaluated
    have hlog : ∃ m ∈ (b.handle .evaluate r).log, m.accounting = none := by
      unfold Backend.handle Backend.handler Backend.evaluateRoute
      rw [hcommits.admitted, hresult, hcommits.commits, hcommits.authorized]
      simp only [Logged.lift_ok_bind, if_true]
      exact ⟨_, Logged.mem_log_entry_bind _ _ _, rfl⟩
    obtain ⟨m, hm, hnone⟩ := hlog
    cases hnone.symm.trans (h m hm).receives
  · intro hnot
    refine .liftBind fun _ hadmitted => .liftBind fun result hresult => .liftBind fun commits hc => ?_
    cases commits with
    | false => exact .pure _
    | true =>
      refine .liftBind fun _ hauthorized => ?_
      exact absurd ⟨hadmitted, ⟨result, hresult⟩, hc, hauthorized⟩ hnot

/-- Every mutation of a tenant's request is charged to his account, unless the request is for an
evaluation that is written to the chain. -/
theorem handle_charged_iff (hr : r.accounting = some a) (route : Route) :
    Charged a (b.handle route r) ↔ ¬ (route = .evaluate ∧ CommitsEvaluation b r) := by
  by_cases hroute : route = .evaluate
  · rw [hroute, evaluate_charged_iff]
    simp
  · refine iff_of_true ?_ fun h => hroute h.1
    exact .liftBind fun _ _ => handler_charged hr hroute

end

/-! ## A sample -/

def sampleTenant : AccountingContext where
  tenantId := "acme"
  customerId := "c1"
  ownerDid := "did:iota:testnet:" ++ objectId '1'
  subscriptionId := objectId '2'

def sampleResult : MaturityResult where
  profileId := "objectid-maturity-example-v1"
  profileVersion := "1"
  engineVersion := "1"
  score := 80
  level := 3
  inputIndicators := .array []
  evidenceHashes := .array []
  evaluationHash := "h"
  indicators := .array []

/-- A server that admits and authorizes everything. -/
def sampleBackend : Backend where
  entry _ _ := .ok ()
  authorize _ _ := .ok ()
  store _ := .ok { uri := "file://a", hash := "h", size := 1, hashAlgorithm := "sha256", contentType := .null }
  adapter _ := .ok .null
  evaluate _ _ _ := .ok sampleResult
  collect _ _ _ := .ok { text := "", periodFrom := 0, periodTo := 0, sourceWindowCount := 1 }
  datasetId _ _ _ := .ok (some (objectId '4'))
  prepareUpdate _ _ _ := .ok []
  commitUpdate _ _ := .ok .null
  isDynamic _ := .ok false
  revokeTwinCredentials _ _ := .ok ()

/-- A request of the tenant. -/
def sampleRequest (commit : Option Json) : Request where
  id := objectId '3'
  body := some (.object [("profile", .string "default-v1")])
  commit
  confirmation := none
  callerDid := sampleTenant.ownerDid
  accounting := some sampleTenant

/-- A state of the tenant's Twin is charged to him. -/
theorem handle_charged_state :
    ∃ m, (@Backend.handle Services.plain sampleBackend .states (sampleRequest none)).log = [m] ∧
      @ChargedTo Services.plain sampleTenant m := by
  let services : Services := Services.plain
  refine ⟨_, rfl, ?_⟩
  have hcharged := (handle_charged_iff (b := sampleBackend) (r := sampleRequest none) rfl .states).mpr
    fun h => by cases h.1
  exact hcharged _ (.head _)

/-- An evaluation that is written to the chain is charged to the default account. -/
theorem evaluate_uncharged :
    ∃ m, (@Backend.handle Services.plain sampleBackend .evaluate
        (sampleRequest (some (.string "true")))).log = [m] ∧ m.accounting = none ∧
      ∀ (p : IotaStatePublisher) (objects : SignerObjects), p.objects = .ok objects →
        @IotaStatePublisher.subscriptionIdFor Services.plain.toRuntime p m.accounting =
          @requiredObjectId Services.plain.toRuntime (some (.string objects.defaultSubscriptionId))
            "subscriptionId" := by
  let services : Services := Services.plain
  refine ⟨_, rfl, rfl, fun p objects hobjects => ?_⟩
  unfold IotaStatePublisher.subscriptionIdFor
  rw [hobjects]
  rfl

end Api
