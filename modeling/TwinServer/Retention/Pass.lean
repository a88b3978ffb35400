-- SUMMARY: What one retention pass deletes, in which order, and what its counters count.
import TwinServer.Retention.Objects

/-!
# The objects of a pass

`execute` of `src/storage/retention.ts` on one listing, with the owners and the policies that it asks for.
The answers of the ledger, of the clock and of the storage are arbitrary; the clock is read once for each
object that has a policy, and the storage is asked once for each attempt.
-/

open Js Js.Json

namespace Retention

/-! ## Owners and policies -/

structure OwnerPolicy where
  ownerDid : String
  retentionDays : Option Dyadic

structure RetentionConfig where
  defaultDays : Dyadic
  maxDeletesPerRun : Nat
  ownerPolicies : List OwnerPolicy

/-- What a pass is answered. -/
structure Answers where
  getTwin : String → Except Thrown (Option Json)
  /-- The reading of the clock, given how many there were before. -/
  now : Nat → Int
  /-- Whether a deletion succeeds, given how many were attempted before. -/
  delete : Nat → String → Bool

section
variable [Runtime]

/-- The `Map` of the policies: the last one of an owner counts. -/
def RetentionConfig.policies (config : RetentionConfig) : Record (Option Dyadic) :=
  config.ownerPolicies.foldl (fun map item => map.set (toLowerCase item.ownerDid) item.retentionDays) []

/-- `retentionDays` of `ConfigRetentionPolicyResolver`. -/
def RetentionConfig.retentionDays (config : RetentionConfig) (ownerDid : String) : Option Dyadic :=
  match config.policies.get? (toLowerCase ownerDid) with
  | some days => days
  | none => some config.defaultDays

/-- `twin?.data?.content?.fields ?? twin?.content?.fields ?? twin?.fields ?? twin ?? {}`. -/
def twinFields (twin : Option Json) : Json :=
  let get (v : Option Json) (k : String) := v.bind (·.get? k)
  (coalesce (coalesce (coalesce (get (get (get twin "data") "content") "fields")
    (get (get twin "content") "fields")) (coalesce (get twin "fields") twin))
    (some (.object []))).getD .null

/-- `ownerDid`: an answer that fails, or has no owner, or one that is no text, resolves none. -/
def ownerDid (answer : Except Thrown (Option Json)) : Option String :=
  match answer with
  | .error _ => none
  | .ok twin =>
    let value := coalesce ((twinFields twin).get? "owner_did") ((twinFields twin).get? "ownerDid")
    if truthy? value then value.bind (·.toString?) else none

/-! ## The loop -/

structure Loop where
  owners : Record (Option String) := []
  clocks : Nat := 0
  eligible : Nat := 0
  deleted : Nat := 0
  skippedUnresolved : Nat := 0
  failed : Nat := 0
  /-- The objects whose deletion was attempted, and whether it succeeded. -/
  attempts : List (ManagedStoredObject × Bool) := []

section
variable (config : RetentionConfig) (answers : Answers)

def Loop.lookup (l : Loop) (twinId : String) : Loop :=
  if l.owners.hasOwn twinId then l
  else { l with owners := l.owners.set twinId (ownerDid (answers.getTwin twinId)) }

def Loop.attempt (l : Loop) (object : ManagedStoredObject) : Loop :=
  if l.deleted ≥ config.maxDeletesPerRun then l
  else if answers.delete l.attempts.length object.uri then
    { l with deleted := l.deleted + 1, attempts := l.attempts ++ [(object, true)] }
  else { l with failed := l.failed + 1, attempts := l.attempts ++ [(object, false)] }

/-- What follows the policy of the owner. -/
def Loop.judge (l : Loop) (object : ManagedStoredObject) (days : Dyadic) : Loop :=
  let clock := answers.now l.clocks
  let l := { l with clocks := l.clocks + 1 }
  if ¬ Expired clock days object.createdAt then l
  else Loop.attempt config answers { l with eligible := l.eligible + 1 } object

/-- The body of the loop. -/
@[local grind] def Loop.object (l : Loop) (object : ManagedStoredObject) : Loop :=
  if object.category = "plants" ∨ object.twinId = "unscoped" then l
  else
    let l := l.lookup answers object.twinId
    match (l.owners.get? object.twinId).join with
    | none => { l with skippedUnresolved := l.skippedUnresolved + 1 }
    | some ownerDid =>
      if ownerDid = "" then { l with skippedUnresolved := l.skippedUnresolved + 1 }
      else
        match config.retentionDays ownerDid with
        | none => l
        | some days => l.judge config answers object days

/-- The oldest objects come first. -/
def oldestFirst (objects : List ManagedStoredObject) : List ManagedStoredObject :=
  objects.insertionSort fun a b => a.createdAt ≤ b.createdAt

/-- The loop over a listing. -/
def sweep (objects : List ManagedStoredObject) : Loop :=
  (oldestFirst objects).foldl (Loop.object config answers) {}

/-- `execute`, given the times of its beginning and its end and what the pruning of states came to. -/
def execute (startedAt completedAt : Int) (onChainStates : OnChainStateRetentionResult)
    (objects : List ManagedStoredObject) : RetentionRunResult :=
  let l := sweep config answers objects
  { startedAt, completedAt, scanned := objects.length, eligible := l.eligible, deleted := l.deleted
    skippedUnresolved := l.skippedUnresolved, failed := l.failed
    capped := l.eligible > l.deleted + l.failed, onChainStates }

/-! ## What a pass is for -/

/-- The object is one that passes look at. -/
def Managed (object : ManagedStoredObject) : Prop :=
  object.category ≠ "plants" ∧ object.twinId ≠ "unscoped"

instance (object : ManagedStoredObject) : Decidable (Managed object) :=
  inferInstanceAs (Decidable (_ ∧ _))

/-- The owner of a Twin, if the ledger tells one. -/
def resolved (twinId : String) : Option String := (ownerDid (answers.getTwin twinId)).filter (· ≠ "")

/-- The objects of a list that have an owner with a policy, with its days. -/
def judged (objects : List ManagedStoredObject) : List (ManagedStoredObject × Dyadic) :=
  objects.filterMap fun object =>
    if Managed object then
      ((resolved answers object.twinId).bind config.retentionDays).map fun days => (object, days)
    else none

/-- The objects of a list that are old enough, each at the reading of the clock that is its own. -/
def eligible (objects : List ManagedStoredObject) : List ManagedStoredObject :=
  ((judged config answers objects).zipIdx.filter fun entry =>
    Expired (answers.now entry.2) entry.1.2 entry.1.1.createdAt).map (·.1.1)

/-- The objects of a list whose Twin has no owner that the ledger tells. -/
def unresolved (objects : List ManagedStoredObject) : List ManagedStoredObject :=
  objects.filter fun object => Managed object ∧ resolved answers object.twinId = none

end

variable {config : RetentionConfig} {answers : Answers} {done : List ManagedStoredObject} {l : Loop}
  {object : ManagedStoredObject}

theorem judged_append (done : List ManagedStoredObject) (object : ManagedStoredObject) :
    judged config answers (done ++ [object]) =
      judged config answers done ++ judged config answers [object] := List.filterMap_append

theorem judged_of_days {ownerDid : String} {days : Dyadic} (hmanaged : Managed object)
    (howner : resolved answers object.twinId = some ownerDid)
    (hdays : config.retentionDays ownerDid = some days) :
    judged config answers [object] = [(object, days)] := by
  simp [judged, hmanaged, howner, hdays]

/-- The object that is judged next is old enough at the next reading of the clock. -/
theorem eligible_append {days : Dyadic} (hone : judged config answers [object] = [(object, days)]) :
    eligible config answers (done ++ [object]) = eligible config answers done ++
      if Expired (answers.now (judged config answers done).length) days object.createdAt then [object]
      else [] := by
  unfold eligible
  rw [judged_append, hone, List.zipIdx_append, List.filter_append, List.map_append, Nat.zero_add]
  congr 1
  split
  case isTrue hexpired => simp [hexpired]
  case isFalse hfresh => simp [hfresh]

theorem eligible_append_of_none (hone : judged config answers [object] = []) :
    eligible config answers (done ++ [object]) = eligible config answers done := by
  unfold eligible
  rw [judged_append, hone, List.append_nil]

theorem unresolved_append (done : List ManagedStoredObject) (object : ManagedStoredObject) :
    unresolved answers (done ++ [object]) = unresolved answers done ++ unresolved answers [object] :=
  List.filter_append ..

/-! ## One object -/

/-- What the loop has come to after the objects of a list. -/
structure Swept (config : RetentionConfig) (answers : Answers) (done : List ManagedStoredObject)
    (l : Loop) : Prop where
  owners : ∀ twinId owner, l.owners.get? twinId = some owner → owner = ownerDid (answers.getTwin twinId)
  clocks : l.clocks = (judged config answers done).length
  eligible : l.eligible = (eligible config answers done).length
  skipped : l.skippedUnresolved = (unresolved answers done).length
  deleted : l.deleted = l.attempts.countP (·.2)
  failed : l.failed = l.attempts.countP (!·.2)
  /-- The first of the old objects were attempted. -/
  first : l.attempts.map Prod.fst <+: Retention.eligible config answers done
  /-- Each attempt found fewer deletions than the limit. -/
  room : ∀ i < l.attempts.length, (l.attempts.take i).countP (·.2) < config.maxDeletesPerRun
  limit : l.deleted ≤ config.maxDeletesPerRun
  /-- Where one was not attempted, the limit was reached. -/
  full : l.attempts.length < (Retention.eligible config answers done).length →
    l.deleted = config.maxDeletesPerRun

theorem Loop.get?_lookup (howners : ∀ twinId owner, l.owners.get? twinId = some owner →
      owner = ownerDid (answers.getTwin twinId)) (twinId : String) :
    (∀ t owner, (l.lookup answers twinId).owners.get? t = some owner →
      owner = ownerDid (answers.getTwin t)) ∧
    (l.lookup answers twinId).owners.get? twinId = some (ownerDid (answers.getTwin twinId)) := by
  unfold Loop.lookup
  split
  case isTrue hknown =>
    obtain ⟨owner, howner⟩ := Option.isSome_iff_exists.mp hknown
    exact ⟨howners, howner.trans (congrArg some (howners twinId owner howner))⟩
  case isFalse =>
    simp only [Record.get?_set, if_true, and_true]
    intro t owner h
    split at h
    case isTrue heq => rw [heq]; exact (Option.some.inj h).symm
    case isFalse => exact howners t owner h

section
variable (hmanaged : Managed object) (hlookup : (l.lookup answers object.twinId).owners.get? object.twinId =
  some (ownerDid (answers.getTwin object.twinId)))
include hmanaged hlookup

theorem Loop.object_of_unresolved (howner : resolved answers object.twinId = none) :
    l.object config answers object = { l.lookup answers object.twinId with
      skippedUnresolved := (l.lookup answers object.twinId).skippedUnresolved + 1 } := by
  unfold Loop.object
  rw [if_neg (not_or.mpr hmanaged)]
  dsimp only
  rw [hlookup]
  unfold resolved at howner
  cases hanswer : ownerDid (answers.getTwin object.twinId) with
  | none => rfl
  | some owner =>
    rw [hanswer] at howner
    have hempty : owner = "" := by simpa using howner
    simp [hempty]

variable (config) in
theorem Loop.object_of_resolved {owner : String} (howner : resolved answers object.twinId = some owner) :
    (config.retentionDays owner = none → l.object config answers object = l.lookup answers object.twinId) ∧
    ∀ days, config.retentionDays owner = some days →
      l.object config answers object = (l.lookup answers object.twinId).judge config answers object days := by
  obtain ⟨hanswer, hne⟩ := Option.filter_eq_some_iff.mp howner
  have hne : owner ≠ "" := by simpa using hne
  unfold Loop.object
  rw [if_neg (not_or.mpr hmanaged)]
  dsimp only
  rw [hlookup, hanswer]
  simp only [Option.join_some, hne, if_false]
  constructor
  · intro hdays
    rw [hdays]
  · intro days hdays
    rw [hdays]

end

namespace Swept

theorem lookup (h : Swept config answers done l) (twinId : String) :
    Swept config answers done (l.lookup answers twinId) := by
  have howners := (Loop.get?_lookup h.owners twinId).1
  have hrest : l.lookup answers twinId = { l with owners := (l.lookup answers twinId).owners } := by
    unfold Loop.lookup
    split <;> rfl
  rw [hrest]
  exact { h with owners := howners }

/-- An object that is not judged changes no more than the count of the objects without owner. -/
theorem skip (h : Swept config answers done l) (hone : judged config answers [object] = []) {n : Nat}
    (hskipped : n = (unresolved answers (done ++ [object])).length) :
    Swept config answers (done ++ [object]) { l with skippedUnresolved := n } where
  owners := h.owners
  clocks := by rw [judged_append, hone, List.append_nil]; exact h.clocks
  eligible := by rw [eligible_append_of_none hone]; exact h.eligible
  skipped := hskipped
  deleted := h.deleted
  failed := h.failed
  first := by rw [eligible_append_of_none hone]; exact h.first
  room := h.room
  limit := h.limit
  full := by rw [eligible_append_of_none hone]; exact h.full

/-- The object after the ones that were attempted is the next of the old ones. -/
theorem attempts_eq (h : Swept config answers done l) (hroom : l.deleted < config.maxDeletesPerRun) :
    l.attempts.map Prod.fst = Retention.eligible config answers done := by
  refine h.first.eq_of_length (Nat.le_antisymm h.first.length_le (not_lt.mp fun hlt => ?_))
  rw [List.length_map] at hlt
  exact absurd (h.full hlt) (Nat.ne_of_lt hroom)

/-- An attempt adds to the deletions or to the failures. -/
theorem attempted (h : Swept config answers done l) (hroom : l.deleted < config.maxDeletesPerRun)
    (success : Bool) {deleted failed : Nat} (hdeleted : deleted = l.deleted + if success then 1 else 0)
    (hfailed : failed = l.failed + if success then 0 else 1) {days : Dyadic}
    (hone : judged config answers [object] = [(object, days)])
    (hexpired : Expired (answers.now (judged config answers done).length) days object.createdAt)
    (hmanaged : unresolved answers [object] = []) :
    Swept config answers (done ++ [object]) { l with
      clocks := l.clocks + 1, eligible := l.eligible + 1, deleted, failed
      attempts := l.attempts ++ [(object, success)] } where
  owners := h.owners
  clocks := by rw [judged_append, hone, List.length_append, ← h.clocks]; rfl
  eligible := by rw [eligible_append hone, if_pos hexpired, List.length_append, ← h.eligible]; rfl
  skipped := by rw [unresolved_append, hmanaged, List.append_nil]; exact h.skipped
  deleted := by
    rw [List.countP_append, List.countP_singleton, ← h.deleted]
    exact hdeleted
  failed := by
    rw [List.countP_append, List.countP_singleton, ← h.failed, hfailed]
    cases success <;> rfl
  first := by
    rw [eligible_append hone, if_pos hexpired, List.map_append, h.attempts_eq hroom]
    exact List.prefix_rfl
  room i hi := by
    rw [List.length_append, List.length_singleton] at hi
    rcases Nat.lt_succ_iff_lt_or_eq.mp hi with hlt | rfl
    · rw [List.take_append_of_le_length hlt.le]
      exact h.room i hlt
    · rw [List.take_left, ← h.deleted]
      exact hroom
  limit := by
    have hle : (if success then 1 else 0) ≤ 1 := by cases success <;> decide
    show deleted ≤ config.maxDeletesPerRun
    omega
  full hlt := by
    have hlength := congrArg List.length (h.attempts_eq hroom)
    rw [List.length_map] at hlength
    rw [eligible_append hone, if_pos hexpired, List.length_append, List.length_append, hlength] at hlt
    exact absurd hlt (Nat.lt_irrefl _)

theorem judge (h : Swept config answers done l) {days : Dyadic}
    (hone : judged config answers [object] = [(object, days)]) (hmanaged : unresolved answers [object] = []) :
    Swept config answers (done ++ [object]) (l.judge config answers object days) := by
  have hskipped : l.skippedUnresolved = (unresolved answers (done ++ [object])).length := by
    rw [unresolved_append, hmanaged, List.append_nil]
    exact h.skipped
  have hclocks : l.clocks + 1 = (judged config answers (done ++ [object])).length := by
    rw [judged_append, hone, List.length_append, ← h.clocks]
    rfl
  unfold Loop.judge
  rw [h.clocks]
  dsimp only
  split
  case isTrue hfresh =>
    have heligible : Retention.eligible config answers (done ++ [object]) =
        Retention.eligible config answers done := by
      rw [eligible_append hone, if_neg hfresh, List.append_nil]
    exact { h with
      clocks := h.clocks ▸ hclocks
      eligible := heligible ▸ h.eligible
      skipped := hskipped
      first := heligible ▸ h.first
      full := heligible ▸ h.full }
  case isFalse hexpired =>
    have hexpired := not_not.mp hexpired
    have heligible : Retention.eligible config answers (done ++ [object]) =
        Retention.eligible config answers done ++ [object] := by
      rw [eligible_append hone, if_pos hexpired]
    unfold Loop.attempt
    dsimp only
    rw [← h.clocks]
    split
    case isTrue hfull =>
      -- the limit is reached, and the object joins those that are not attempted
      exact { h with
        clocks := hclocks
        eligible := by rw [heligible, List.length_append, ← h.eligible]; rfl
        skipped := hskipped
        first := by rw [heligible]; exact h.first.trans (List.prefix_append _ _)
        full := fun _ => Nat.le_antisymm h.limit hfull }
    case isFalse hroom =>
      have hroom := not_le.mp hroom
      split
      · exact h.attempted hroom true rfl rfl hone hexpired hmanaged
      · exact h.attempted hroom false rfl rfl hone hexpired hmanaged

/-- **One object**: the loop goes on as it should. -/
theorem step (h : Swept config answers done l) (object : ManagedStoredObject) :
    Swept config answers (done ++ [object]) (l.object config answers object) := by
  by_cases hmanaged : Managed object
  case neg =>
    have hone : judged config answers [object] = [] := by simp [judged, hmanaged]
    have hsame : l.object config answers object = l := if_pos (by simpa [Managed, or_iff_not_imp_left] using hmanaged)
    have hskipped : l.skippedUnresolved = (unresolved answers (done ++ [object])).length := by
      rw [unresolved_append, h.skipped]
      simp [unresolved, hmanaged]
    rw [hsame]
    exact h.skip hone hskipped
  case pos =>
    have hlookup := (Loop.get?_lookup h.owners object.twinId).2
    have h := h.lookup object.twinId
    cases howner : resolved answers object.twinId with
    | none =>
      have hone : judged config answers [object] = [] := by simp [judged, hmanaged, howner]
      rw [Loop.object_of_unresolved hmanaged hlookup howner]
      refine h.skip hone ?_
      rw [unresolved_append, h.skipped]
      simp [unresolved, hmanaged, howner]
    | some owner =>
      have hnone : unresolved answers [object] = [] := by simp [unresolved, howner]
      obtain ⟨hkept, hjudged⟩ := Loop.object_of_resolved config hmanaged hlookup howner
      cases hdays : config.retentionDays owner with
      | none =>
        have hone : judged config answers [object] = [] := by simp [judged, howner, hdays]
        have hskipped : (l.lookup answers object.twinId).skippedUnresolved =
            (unresolved answers (done ++ [object])).length := by
          rw [unresolved_append, hnone, List.append_nil]
          exact h.skipped
        rw [hkept hdays]
        exact h.skip hone hskipped
      | some days =>
        rw [hjudged days hdays]
        exact h.judge (judged_of_days hmanaged howner hdays) hnone

end Swept

end

end Retention
