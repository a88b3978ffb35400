-- SUMMARY: Concurrent creations of Twins for the nodes of plants, and when a node gets one Twin only.
import TwinServer.Base.Async
import TwinServer.Plants.Creation

/-!
# Creations for a node

A delegated creation reads the plant, checks that the node is free, and writes a Twin to the chain
later; nothing it does marks the node in between. Each `await` of `delegated` and of
`createProfiledTwin` is the end of a segment.
-/

open Js Js.Json ObjectId Sharing Async

namespace Plants

/-! ## The creations -/

/-- A node of a plant of a tenant. -/
structure Node where
  tenantId : Option String
  plantId : String
  nodeId : Option String
  deriving DecidableEq

/-- A delegated request. -/
structure Creation where
  context : CreationContext
  input : Option Json
  connection : Option AccountingContext

def Creation.node (c : Creation) : Node :=
  ⟨c.context.tenantId, c.context.plantId, c.context.nodeId⟩

/-- What the requests share: the plants of each tenant, and the nodes for which Twins were written to
the chain. -/
structure Site where
  plants : Option String → Except Thrown (List Plant)
  created : List Node

/-- Where a request stands; at the end, with its outcome and whether it wrote a Twin. -/
inductive Stage where
  | accounting (c : Creation)
  | subscription (c : Creation) (a : AccountingContext)
  | catalog (c : Creation) (a : AccountingContext)
  | documents (c : Creation) (a : AccountingContext) (plants : Except Thrown (List Plant))
  | profile (c : Creation) (safe : Record Json)
  | twin (c : Creation) (safe : Record Json)
  | aspect (c : Creation)
  | done (c : Creation) (outcome : Except Thrown Unit) (written : Bool)

/-- The answer to `createTwin`; one that fails may have been executed. -/
inductive TwinAnswer where
  | created
  | failed (executed : Bool) (error : Thrown)

def TwinAnswer.executed : TwinAnswer → Bool
  | created => true
  | failed executed _ => executed

def TwinAnswer.outcome : TwinAnswer → Except Thrown Unit
  | created => .ok ()
  | failed _ error => .error error

inductive Answer where
  | accounting (found : Except Thrown (Option AccountingContext))
  | subscription (status : Option (Except Thrown SubscriptionStatus))
  | catalog
  | documents (read : Except Thrown Unit)
  | profile (valid : Except Thrown Unit)
  | twin (answer : TwinAnswer)
  | aspect (answer : Except Thrown Unit)

namespace Stage

def creation : Stage → Creation
  | accounting c => c
  | subscription c _ => c
  | catalog c _ => c
  | documents c _ _ => c
  | profile c _ => c
  | twin c _ => c
  | aspect c => c
  | done c _ _ => c

def node (t : Stage) : Node := t.creation.node

/-- The request wrote a Twin. -/
@[local grind] def written : Stage → Bool
  | aspect _ => true
  | done _ _ written => written
  | _ => false

end Stage

/-- Go on, or end with the error. -/
def settle (c : Creation) : Except Thrown Stage → Stage
  | .ok t => t
  | .error e => .done c (.error e) false

section
variable [Runtime] (parse : String → Option Json)

/-- The checks of the plants that were read, and the input of the Twin. -/
def prepare (c : Creation) (a : AccountingContext) (plants : Except Thrown (List Plant)) :
    Except Thrown (Record Json) := do
  let plants ← plants
  checkPlant c.context plants
  let body ← record c.input
  create parse body a c.context

/-- A segment of `delegated`. -/
@[local grind] def advance (s : Site) : Stage → Answer → Option (Site × Stage)
  | .accounting c, .accounting found => some (s, settle c do
      let found ← found
      let a ← checkAccounting c.context c.connection found
      return .subscription c a)
  | .subscription c a, .subscription status => some (s, settle c do
      subscription a status
      return .catalog c a)
  | .catalog c a, .catalog => some (s, .documents c a (s.plants c.context.tenantId))
  | .documents c a plants, .documents read => some (s, settle c do
      read
      let safe ← prepare parse c a plants
      return if truthy? (safe.get? "profile") then .profile c safe else .twin c safe)
  | .profile c safe, .profile valid => some (s, settle c do
      valid
      return .twin c safe)
  | .twin c safe, .twin answer =>
    some ({ s with created := if answer.executed then c.node :: s.created else s.created },
      match answer with
      | .created => if truthy? (safe.get? "profile") then .aspect c else .done c (.ok ()) true
      | .failed executed error => .done c (.error error) executed)
  | .aspect c, .aspect answer => some (s, .done c answer true)
  | _, _ => none

/-- The requests; from outside, a plant may be put at any time. -/
def machine : Machine Site Stage Creation Answer (Option String × Except Thrown (List Plant)) where
  call s c := some (s, .accounting c)
  resume := advance parse
  env s e := some { s with plants := fun tenantId => if tenantId = e.1 then e.2 else s.plants tenantId }

/-! ## One Twin for a node -/

/-- The plants let the request create a Twin for its node. -/
def Admits (c : Creation) (plants : Except Thrown (List Plant)) : Prop :=
  ∃ found, plants = .ok found ∧ checkPlant c.context found = .ok ()

/-- The request has read plants that admit it, and it has not ended without a Twin. -/
def Stage.Live : Stage → Prop
  | .documents c _ plants => Admits c plants
  | .profile _ _ => True
  | .twin _ _ => True
  | .aspect _ => True
  | .done _ _ written => written
  | _ => False

/-- A request reads the plants while no other request for its node is live, or when the plants do not
admit it any more. -/
def recorded : Guard Site Stage Answer := fun s t others i =>
  match t, i with
  | .catalog c _, .catalog =>
    ∀ u ∈ others, u.node = c.node → u.Live → ¬ Admits c (s.plants c.context.tenantId)
  | _, _ => True

/-- Of two requests for a node, one at most is live. -/
def Apart (t u : Stage) : Prop := t.node = u.node → t.Live → ¬ u.Live

variable {parse}

/-- A request that has ended without a Twin has failed. -/
def Stage.Sound : Stage → Prop
  | .done _ outcome written => written ∨ ∃ e, outcome = .error e
  | _ => True

/-- A stage that a segment leads to without a Twin being written. -/
structure Follows (t t' : Stage) : Prop where
  node : t'.node = t.node
  live : t'.Live → t.Live
  written : t'.written = t.written
  sound : t'.Sound

end

/-! ## A sample -/

/-- A request for the node of the sample. -/
def sampleCreation : Creation where
  context := sampleContext
  input := some (.object [("name", .string "pump")])
  connection := none

/-- The answers to a request that creates a Twin. -/
def creating : List Answer :=
  [.accounting (.ok (some sampleAccounting)), .subscription (some (.ok sampleSubscription)), .catalog,
    .documents (.ok ()), .twin .created]

def sampleMachine :
    Machine Site Stage Creation Answer (Option String × Except Thrown (List Plant)) :=
  @machine Runtime.ascii fun _ => none

/-- A request without anything but a name is prepared, and has no profile. -/
theorem prepare_sample [Runtime] (parse : String → Option Json) :
    ∃ safe, prepare parse sampleCreation sampleAccounting (.ok [samplePlant]) = .ok safe ∧
      truthy? (safe.get? "profile") = false := by
  refine ⟨_, rfl, ?_⟩
  rfl

/-- A request that passes all checks and has no profile creates a Twin. -/
theorem thread_created [Runtime] {parse : String → Option Json} {s : Site} {c : Creation} {a : AccountingContext}
    {status : SubscriptionStatus} {safe : Record Json} (haccounting : checkAccounting c.context c.connection (some a) = .ok a)
    (hsubscription : subscription a (some (.ok status)) = .ok ())
    (hprepare : prepare parse c a (s.plants c.context.tenantId) = .ok safe)
    (hprofile : truthy? (safe.get? "profile") = false) :
    (machine parse).thread s (.accounting c) [.accounting (.ok (some a)), .subscription (some (.ok status)), .catalog,
        .documents (.ok ()), .twin .created] =
      some ({ s with created := c.node :: s.created }, .done c (.ok ()) true) := by
  simp [Machine.thread, machine, advance, settle, haccounting, hsubscription, hprepare, hprofile, TwinAnswer.executed,
    bind, Except.bind, pure, Except.pure]

theorem thread_creating {s : Site} (hplants : s.plants (some "acme") = .ok [samplePlant]) :
    sampleMachine.thread s (.accounting sampleCreation) creating =
      some ({ s with created := sampleCreation.node :: s.created }, .done sampleCreation (.ok ()) true) := by
  let runtime : Runtime := Runtime.ascii
  obtain ⟨safe, hprepare, hprofile⟩ := prepare_sample fun _ => none
  rw [← hplants] at hprepare
  exact thread_created rfl subscription_sample hprepare hprofile

end Plants
