-- SUMMARY: The role policy: which actions a role permits, when a grant is valid, and what the engine allows.
import TwinServer.Retention.Pass
import TwinServer.Sharing.Service

/-!
# The role policy

`PolicyEngine` of `src/policy/engine.ts` allows an action to the owner and the steward of a Twin, and to
whom one of its grants gives a role that permits the action. The grants are the objects of the ledger as
`getTwinRoleGrants` of the adapter reads them.
-/

open Js Js.Json

namespace Policy

/-! ## Actions and roles -/

inductive TwinAction where
  | PublishState | AddDataset | AddModel | AddInterface | EmitMaintenanceEvent | EmitBusinessEvent
  | CreateMaturityAssessment | ModifyComposition | ModifyIdentifierMapping | ModifyMetadata | DeleteTwin
  | ExecuteCommand
  deriving DecidableEq

@[local grind] def TwinAction.value : TwinAction → String
  | .PublishState => "publish_state"
  | .AddDataset => "add_dataset"
  | .AddModel => "add_model"
  | .AddInterface => "add_interface"
  | .EmitMaintenanceEvent => "emit_maintenance_event"
  | .EmitBusinessEvent => "emit_business_event"
  | .CreateMaturityAssessment => "maturity_assessment"
  | .ModifyComposition => "modify_composition"
  | .ModifyIdentifierMapping => "modify_identifier_mapping"
  | .ModifyMetadata => "modify_metadata"
  | .DeleteTwin => "delete_twin"
  | .ExecuteCommand => "execute_command"

/-- `Object.values(TwinAction)`. -/
def TwinAction.values : List TwinAction :=
  [.PublishState, .AddDataset, .AddModel, .AddInterface, .EmitMaintenanceEvent, .EmitBusinessEvent,
    .CreateMaturityAssessment, .ModifyComposition, .ModifyIdentifierMapping, .ModifyMetadata, .DeleteTwin,
    .ExecuteCommand]

def permissions : Record (List TwinAction) :=
  [("OWNER", TwinAction.values),
    ("STEWARD", TwinAction.values),
    ("OPERATOR", [.PublishState, .EmitBusinessEvent, .ExecuteCommand]),
    ("MAINTAINER", [.PublishState, .AddDataset, .EmitMaintenanceEvent, .ExecuteCommand]),
    ("DATA_PROVIDER", [.PublishState, .AddDataset]),
    ("MODEL_PROVIDER", [.AddModel]),
    ("SERVICE_PROVIDER", [.AddInterface]),
    ("CERTIFIER", [.CreateMaturityAssessment, .EmitBusinessEvent]),
    ("AUDITOR", [])]

def numericRoles : Record String :=
  [("1", "OWNER"), ("2", "STEWARD"), ("4", "OPERATOR"), ("5", "MAINTAINER"), ("6", "DATA_PROVIDER"),
    ("7", "MODEL_PROVIDER"), ("8", "SERVICE_PROVIDER"), ("9", "CERTIFIER"), ("10", "AUDITOR")]

/-- `String.prototype.toUpperCase` on ASCII texts. -/
def asciiUpper (s : String) : String := .ofList (s.toList.map Char.toUpper)

/-- `String.prototype.toUpperCase`, which depends on the Unicode version outside ASCII. -/
class UpperCase where
  toUpperCase : String → String
  toUpperCase_ascii : ∀ s, s.toList.all isAscii → toUpperCase s = asciiUpper s

export UpperCase (toUpperCase)

/-- An upper case of ASCII only. -/
@[reducible] def UpperCase.ascii : UpperCase where
  toUpperCase := asciiUpper
  toUpperCase_ascii _ _ := rfl

section
variable [UpperCase]

/-- `permissions[numericRoles[role] ?? role.toUpperCase()] ?? []`. What every object inherits under a name
is no name of a role either. -/
def permitted (role : String) : List TwinAction :=
  (permissions.get? ((numericRoles.get? role).getD (toUpperCase role))).getD []

/-- A role that has a number permits the same by its number and by its name. -/
theorem permitted_numeric : ∀ e ∈ numericRoles, permitted e.1 = permitted e.2 := by
  -- the names are in upper case
  have hupper : ∀ e ∈ numericRoles, toUpperCase e.2 = e.2 := by
    have hnames : ∀ e ∈ numericRoles, e.2.toList.all isAscii = true ∧ asciiUpper e.2 = e.2 := by decide
    intro e he
    rw [UpperCase.toUpperCase_ascii e.2 (hnames e he).1, (hnames e he).2]
  have htables : ∀ e ∈ numericRoles, numericRoles.get? e.1 = some e.2 ∧ numericRoles.get? e.2 = none := by
    decide
  intro e he
  simp only [permitted, (htables e he).1, (htables e he).2, Option.getD_some, Option.getD_none, hupper e he]

end

/-! ## Grants -/

structure TwinRoleGrant where
  twinId : Option String
  subjectDid : String
  roleType : Option Json
  validFrom : Option Number
  validTo : Option Number

/-- The subject holds the role at the time: the interval of the grant contains it, where a bound that is
missing, zero or no number is none. -/
def TwinRoleGrant.active (grant : TwinRoleGrant) (now : Nat) : Bool :=
  grant.validFrom.all (fun v => !v.truthy || v.le now) &&
    grant.validTo.all fun v => !v.truthy || v == 0 || Number.le now v

section
variable [Runtime]

/-- An item of `getTwinRoleGrants`, from the object that was read, if it was there. -/
def roleGrantOf (twinId : String) (raw : Option Json) : Except Thrown TwinRoleGrant := do
  let fields := (raw.map Sharing.fieldsOf).getD (.object [])
  return {
    twinId := ← conversion (textOf? (coalesce (fields.get? "twin_id") (some (.string twinId))))
    subjectDid := ← conversion (textOf? (fields.get? "subject_did"))
    roleType := fields.get? "role_type"
    validFrom := ← conversion (toNumber? (coalesce (fields.get? "valid_from") (some (.number 0))))
    validTo := ← conversion (toNumber? (coalesce (fields.get? "valid_to") (some (.number 0)))) }

variable [UpperCase]

/-- The condition of `context.grants.some`. -/
def allows (callerDid : String) (action : TwinAction) (now : Nat) (grant : TwinRoleGrant) : Except Thrown Bool :=
  if grant.subjectDid == callerDid && grant.active now then do
    let role ← conversion (Sharing.stringOf grant.roleType)
    return (permitted role).contains action
  else .ok false

/-- The grant gives the caller, at the time, a role that permits the action. -/
structure TwinRoleGrant.Permits (grant : TwinRoleGrant) (callerDid : String) (action : TwinAction) (now : Nat) :
    Prop where
  subject : grant.subjectDid = callerDid
  notBefore : ∀ v, grant.validFrom = some v → v.truthy → v.le now
  notAfter : ∀ v, grant.validTo = some v → v.truthy → Number.le now v
  role : ∃ role, Sharing.stringOf grant.roleType = some role ∧ action ∈ permitted role

omit [Runtime] [UpperCase] in
/-- What is falsy does not bound. -/
theorem bound_of_all {bound : Option Number} {p : Number → Bool} (h : bound.all (fun v => !v.truthy || p v) = true) :
    ∀ v, bound = some v → v.truthy = true → p v = true := by
  rintro v rfl htruthy
  simpa [htruthy] using h

theorem TwinRoleGrant.permits_of_allows {grant : TwinRoleGrant} {callerDid : String} {action : TwinAction} {now : Nat}
    (h : allows callerDid action now grant = .ok true) : grant.Permits callerDid action now := by
  rw [allows] at h
  split at h
  · rename_i hmatch
    simp only [TwinRoleGrant.active, Bool.and_eq_true, beq_iff_eq, Bool.or_assoc] at hmatch
    obtain ⟨hsubject, hfrom, hto⟩ := hmatch
    obtain ⟨role, hrole, h⟩ := Except.bind_eq_ok.mp h
    refine ⟨hsubject, bound_of_all hfrom, fun v hv htruthy => ?_, role, conversion_eq_ok.mp hrole, ?_⟩
    · -- zero is falsy, so that it is not compared with zero again
      rcases Bool.or_eq_true _ _ ▸ bound_of_all hto v hv htruthy with hzero | hle
      · rw [beq_iff_eq.mp hzero] at htruthy
        cases htruthy
      · exact hle
    · exact List.contains_iff_mem.mp (Except.pure_eq_ok.mp h)
  · cases h

/-! ## The engine -/

structure TwinAuthorizationContext where
  callerDid : String
  ownerDid : Option String
  stewardDid : Option String
  grants : List TwinRoleGrant

def policyDenied (context : TwinAuthorizationContext) (action : TwinAction) : AppError where
  code := "TWIN_POLICY_DENIED"
  message := "Caller is not allowed to perform this operation; local policy denies the requested action"
  status := 403
  category := .AUTHORIZATION
  details := ("action", .string action.value) ::
    ((context.grants.head?.bind (·.twinId)).map fun twinId => ("twinId", Json.string twinId)).toList

namespace PolicyEngine

def assertAllowed (context : TwinAuthorizationContext) (action : TwinAction) (now : Nat) : Except Thrown Bool := do
  let nativeAuthority := some context.callerDid == context.ownerDid || some context.callerDid == context.stewardDid
  let allowedByGrant ← context.grants.anyM (allows context.callerDid action now)
  throwIf (!nativeAuthority && !allowedByGrant) (policyDenied context action)
  return true

end PolicyEngine

omit [Runtime] [UpperCase] in
theorem exists_of_anyM {ε α : Type} {p : α → Except ε Bool} {items : List α} (h : items.anyM p = .ok true) :
    ∃ a ∈ items, p a = .ok true := by
  induction items with
  | nil => cases h
  | cons a items ih =>
      obtain ⟨b, hb, h⟩ := Except.bind_eq_ok.mp h
      cases b with
      | true => exact ⟨a, List.mem_cons_self, hb⟩
      | false =>
          obtain ⟨a', ha', h'⟩ := ih h
          exact ⟨a', List.mem_cons_of_mem _ ha', h'⟩

/-- Whom the engine allows an action is the owner or the steward, or has a grant. -/
theorem PolicyEngine.assertAllowed_eq_ok {context : TwinAuthorizationContext} {action : TwinAction} {now : Nat}
    {b : Bool} (h : PolicyEngine.assertAllowed context action now = .ok b) :
    context.ownerDid = some context.callerDid ∨ context.stewardDid = some context.callerDid ∨
      ∃ grant ∈ context.grants, grant.Permits context.callerDid action now := by
  obtain ⟨allowed, hallowed, h⟩ := Except.bind_eq_ok.mp h
  obtain ⟨hthrow, -⟩ := Except.check_bind_eq_ok.mp h
  have hor := throwIf_eq_ok.mp hthrow
  simp only [Bool.and_eq_false_iff, Bool.not_eq_false', Bool.or_eq_true, beq_iff_eq] at hor
  rcases hor with (howner | hsteward) | rfl
  · exact .inl howner.symm
  · exact .inr (.inl hsteward.symm)
  · obtain ⟨grant, hgrant, hallows⟩ := exists_of_anyM hallowed
    exact .inr (.inr ⟨grant, hgrant, TwinRoleGrant.permits_of_allows hallows⟩)

/-! ## The Twin -/

/-- `optionalDid`. -/
def optionalDid (value : Option Json) : Except Thrown (Option String) :=
  match value with
  | none | some .null => .ok none
  | some (.string did) => .ok (if did = "" then none else some did)
  | some v => do return some (← conversion v.toString?)

/-- A field of the Twin that is not empty has the text. -/
def Names (value : Option Json) (did : String) : Prop :=
  ∃ v, value = some v ∧ v ≠ .null ∧ v ≠ .string "" ∧ v.toString? = some did

omit [UpperCase] in
theorem names_of_optionalDid {value : Option Json} {did : String} (h : optionalDid value = .ok (some did)) :
    Names value did := by
  match value with
  | none => cases h
  | some v =>
      refine ⟨v, rfl, ?_⟩
      cases v with
      | null => cases h
      | string s =>
          have hsome := Except.ok.inj h
          split at hsome
          · cases hsome
          · rename_i hempty
            obtain rfl := Option.some.inj hsome
            exact ⟨Json.noConfusion, fun h => hempty (Json.string.inj h), rfl⟩
      | _ =>
          obtain ⟨text, htext, h⟩ := Except.bind_eq_ok.mp h
          obtain rfl := Option.some.inj (Except.pure_eq_ok.mp h)
          exact ⟨Json.noConfusion, Json.noConfusion, conversion_eq_ok.mp htext⟩

end

end Policy
