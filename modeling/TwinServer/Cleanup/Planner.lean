-- SUMMARY: `planCleanup`: the calls that remove one batch of the registered children of a Twin, and what a plan is made of.
import Mathlib.Data.List.Nodup
import TwinServer.Base.Errors

/-!
# The cleanup planner

`planCleanup` of `src/objectid/twinCleanup.ts`. A Twin is deleted in batches: each plan
removes some registered children, and the next one is made for the children that are left.
-/

open Js

namespace Cleanup

structure CleanupChild where
  id : String
  type : String
  fields : Record Json

/-- The function a call names. The last two are what reading a property of `Object.prototype`
and a missing property give in place of a name. -/
inductive Target where
  | function (name : String)
  | inherited (property : String)
  | undefined
  deriving DecidableEq

structure CleanupCall where
  name : Target
  ids : List String
  deriving DecidableEq

/-! ## The tables -/

def compositionMember : String := "OIDTwinCompositionMember"
def maturityIndicator : String := "OIDTwinMaturityIndicator"
def interface : String := "OIDTwinInterface"
def interfaceNetwork : String := "OIDTwinInterfaceNetwork"

def simpleNames : Record String :=
  [("OIDTwinAspect", "cleanup_aspect"), ("OIDTwinRelation", "cleanup_relation"),
    ("OIDTwinIdentifier", "cleanup_identifier"), ("OIDTwinModelRef", "cleanup_model_ref"),
    ("OIDTwinDataset", "cleanup_dataset"), ("OIDTwinCommand", "cleanup_command"),
    ("OIDTwinComposition", "cleanup_composition"),
    ("OIDTwinIdentifierMapping", "cleanup_identifier_mapping"),
    ("OIDTwinRoleGrant", "cleanup_role_grant"), ("OIDTwinState", "cleanup_state"),
    ("OIDTwinFidelityProfile", "cleanup_fidelity_profile"),
    ("OIDTwinMaturityAssessment", "cleanup_maturity_assessment"), ("OIDTwinEvent", "remove_event")]

/-- `simple[type]`, where `none` is `undefined`. -/
def simple (type : String) : Option Target :=
  match simpleNames.get? type with
  | some name => some (.function name)
  | none => if type ∈ inheritedProperties then some (.inherited type) else none

/-- The types the planner handles on their own. -/
def linkedTypes : List String := [compositionMember, maturityIndicator, interface, interfaceNetwork]

/-- The field in which a child names its parent, and the type of the parent. -/
def parentLink (type : String) : Option (String × String) :=
  if type = compositionMember then some ("composition_id", "OIDTwinComposition")
  else if type = maturityIndicator then some ("assessment_id", "OIDTwinMaturityAssessment")
  else if type = interfaceNetwork then some ("interface_id", interface)
  else none

def invalid (message : String) : AppError where
  code := "OBJECTID_CLEANUP_INCOMPLETE"
  message := message
  status := 409
  category := .OBJECTID

/-! ## The planner -/

section
variable [Runtime] (packageId : String) (children : List CleanupChild)

omit [Runtime] in
/-- The name of a type of the package, or the empty string. -/
def kind (child : CleanupChild) : String :=
  let typePrefix := packageId ++ "::oid_twin::"
  if startsWith child.type typePrefix then .ofList (child.type.toList.drop typePrefix.length) else ""

omit [Runtime] in
/-- The map from the ids, in which the last child of an id counts. -/
def byId (id : String) : Option CleanupChild := children.reverse.find? (·.id = id)

def parent (child : CleanupChild) (key expected : String) : Except Thrown String := do
  let id ← conversion (Json.textOf? (child.fields.get? key))
  throwIf (kind packageId ((byId children id).getD ⟨id, "", []⟩) ≠ expected)
    (invalid "Missing cleanup parent")
  return id

/-- The parent of a member, an indicator or a network. -/
def validateParent (child : CleanupChild) : Except Thrown Unit :=
  match parentLink (kind packageId child) with
  | some (key, expected) => discard (parent packageId children child key expected)
  | none => .ok ()

def validate : List CleanupChild → Except Thrown Unit
  | [] => .ok ()
  | child :: rest => do
    let type := kind packageId child
    throwIf ((simple type).isNone ∧ type ∉ linkedTypes) (invalid "Unknown registered child type")
    validateParent packageId children child
    validate rest

omit [Runtime] in
/-- The networks whose `interface_id` is strictly the id of the child. -/
def networksOf (child : CleanupChild) : List CleanupChild :=
  children.filter fun c => kind packageId c = interfaceNetwork ∧
    (c.fields.get? "interface_id").elim false (Json.strictEq · (.string child.id))

omit [Runtime] in
/-- The call of the loop for one child; a network has none of its own. -/
def callOf (child : CleanupChild) : Except Thrown (Option CleanupCall) :=
  let type := kind packageId child
  if type = interfaceNetwork then .ok none
  else if type = interface then do
    let networks := networksOf packageId children child
    throwIf (networks.length > 1) (invalid "Duplicate interface network")
    return some {
      name := .function (if networks.length ≠ 0 then "cleanup_interface_v2" else "cleanup_interface")
      ids := child.id :: networks.map CleanupChild.id }
  else .ok (some { name := (simple type).getD .undefined, ids := [child.id] })

omit [Runtime] in
def collect : List CleanupChild → Except Thrown (List CleanupCall)
  | [] => .ok []
  | child :: rest => do
    let call ← callOf packageId children child
    let calls ← collect rest
    return call.toList ++ calls

def CleanupCall.isEvent (call : CleanupCall) : Bool := call.name = .function "remove_event"

/-- The comparison of `calls.sort`: events come after everything else. -/
def eventsLast (a b : CleanupCall) : Bool := a.isEvent.toNat ≤ b.isEvent.toNat

@[local grind] def planCleanup : Except Thrown (List CleanupCall) := do
  validate packageId children children
  match children.find? (kind packageId · = compositionMember) with
  | some member =>
    let id ← parent packageId children member "composition_id" "OIDTwinComposition"
    return [{ name := .function "cleanup_composition_member", ids := [id, member.id] }]
  | none =>
  match children.find? (kind packageId · = maturityIndicator) with
  | some indicator =>
    let id ← parent packageId children indicator "assessment_id" "OIDTwinMaturityAssessment"
    return [{ name := .function "cleanup_maturity_indicator", ids := [id, indicator.id] }]
  | none =>
    let calls ← collect packageId children children
    return (calls.mergeSort eventsLast).take 16

end

/-! ## Parents -/

section
variable [Runtime] {packageId : String} {children : List CleanupChild}

omit [Runtime] in
theorem kind_eq_of_type (name : String) (child : CleanupChild)
    (h : child.type = packageId ++ "::oid_twin::" ++ name) : kind packageId child = name := by
  have hlist : child.type.toList = (packageId ++ "::oid_twin::").toList ++ name.toList :=
    (congrArg String.toList h).trans String.toList_append
  have hprefix : startsWith child.type (packageId ++ "::oid_twin::") := by
    unfold startsWith
    rw [hlist]
    exact List.isPrefixOf_iff_prefix.mpr (List.prefix_append _ _)
  simp only [kind, hprefix, if_true, hlist, ← String.length_toList, List.drop_left,
    String.ofList_toList]

omit [Runtime] in
theorem mem_of_byId {id : String} {child : CleanupChild} (h : byId children id = some child) :
    child ∈ children ∧ child.id = id := by
  unfold byId at h
  exact ⟨List.mem_reverse.mp (List.mem_of_find?_eq_some h), by simpa using List.find?_some h⟩

omit [Runtime] in
theorem byId_eq_of_mem (hids : (children.map CleanupChild.id).Nodup) {child : CleanupChild}
    (h : child ∈ children) : byId children child.id = some child := by
  have hfound : (children.reverse.find? (·.id = child.id)).isSome :=
    List.find?_isSome.mpr ⟨child, List.mem_reverse.mpr h, by simp⟩
  obtain ⟨other, hother⟩ := Option.isSome_iff_exists.mp hfound
  obtain ⟨hmem, hid⟩ := mem_of_byId hother
  rw [List.inj_on_of_nodup_map hids hmem h hid] at hother
  exact hother

/-- The text of the field in which a child names its parent. -/
def parentText (child : CleanupChild) (key : String) : Option String :=
  Json.textOf? (child.fields.get? key)

/-- The child names a registered parent of the expected type. -/
theorem parent_eq_ok (hids : (children.map CleanupChild.id).Nodup) {child : CleanupChild}
    {key expected id : String} (hexpected : expected ≠ "") :
    parent packageId children child key expected = .ok id ↔
      parentText child key = some id ∧
        ∃ p ∈ children, p.id = id ∧ kind packageId p = expected := by
  have hdummy (text : String) : kind packageId ⟨text, "", []⟩ = "" := by
    unfold kind
    simp
  unfold parent
  simp only [Except.bind_eq_ok, conversion_eq_ok, throwIf_eq_ok, decide_eq_false_iff_not, not_not,
    Except.pure_eq_ok, exists_const]
  constructor
  · rintro ⟨text, htext, hkind, rfl⟩
    refine ⟨htext, ?_⟩
    cases hby : byId children text with
    | none =>
      rw [hby, Option.getD_none, hdummy] at hkind
      exact absurd hkind.symm hexpected
    | some p =>
      rw [hby, Option.getD_some] at hkind
      obtain ⟨hp, hid⟩ := mem_of_byId hby
      exact ⟨p, hp, hid, hkind⟩
  · rintro ⟨htext, p, hp, rfl, hkind⟩
    refine ⟨p.id, htext, ?_, rfl⟩
    rw [byId_eq_of_mem hids hp]
    exact hkind

end

end Cleanup
