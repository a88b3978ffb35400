-- SUMMARY: `pruneOnChainStates`: which states of a Twin a retention run prunes, over an arbitrary adapter.
import Mathlib.Data.List.Sort
import TwinServer.Thread.Events

/-!
# Retention of states on chain

`pruneOnChainStates` of `src/storage/retention.ts`. The adapter is arbitrary: each of its calls
may fail, and may change a world that the model knows nothing about. Besides its result a run
records the prunes it asked for.
-/

open Js Thread

namespace Retention

structure TwinStateRetentionSnapshot where
  states : List TwinStateEvidence
  events : List TwinEvent

/-- `retention.onChainStates` of the configuration. -/
structure OnChainStates where
  enabled : Bool
  retentionDays : Dyadic
  maxPrunesPerRun : Nat

/-- The methods of the adapter that retention uses. -/
structure Adapter (ω : Type) where
  /-- Whether the adapter has the three methods. -/
  available : Bool
  listTwinIdsForRetention : ω → Except Thrown (List String) × ω
  getTwinStateRetentionSnapshot : String → ω → Except Thrown TwinStateRetentionSnapshot × ω
  pruneState : String → String → ω → Except Thrown Unit × ω

structure OnChainStateRetentionResult where
  enabled : Bool
  twinsScanned : Nat := 0
  statesScanned : Nat := 0
  eligible : Nat := 0
  pruned : Nat := 0
  skippedUnanchored : Nat := 0
  failed : Nat := 0
  capped : Bool := false

/-- A prune that was asked for, and whether it was answered. -/
structure Prune where
  twinId : String
  state : TwinStateEvidence
  ok : Bool

structure Progress (ω : Type) where
  result : OnChainStateRetentionResult
  prunes : List Prune := []
  world : ω

/-! ## One state -/

section
variable [Services]

def compareStatesNewestFirst (a b : TwinStateEvidence) : Int :=
  if b.observedAt - a.observedAt ≠ 0 then b.observedAt - a.observedAt
  else localeCompare b.objectId a.objectId

def compareStatesOldestFirst (a b : TwinStateEvidence) : Int :=
  if a.observedAt - b.observedAt ≠ 0 then a.observedAt - b.observedAt
  else localeCompare a.objectId b.objectId

/-- The digest of a hash in one of its three syntaxes. -/
def hashDigest (value : String) : Option String :=
  let normalized := stripScheme (toLowerCase value)
  if isHex64 normalized.toList then some normalized else none

def canCreateVerificationReceipt (stateHash publicationHash : String) : Bool :=
  match hashDigest stateHash with
  | none => false
  | some stateDigest =>
    if publicationHash = "" then true
    else if !isValidHash (toLowerCase publicationHash) then false
    else some stateDigest = hashDigest publicationHash

omit [Services] in
def stream (state : TwinStateEvidence) : String :=
  state.aspectCode ++ "\x00" ++ state.sampleType

/-! ## One Twin -/

/-- The newest state of every stream. -/
def newestByStream (states : List TwinStateEvidence) : Record String :=
  (states.insertionSort fun a b => compareStatesNewestFirst a b ≤ 0).foldl (fun newest state =>
    if newest.hasOwn (stream state) then newest
    else newest.set (stream state) (toLowerCase state.objectId)) []

/-- The events by the state they publish, in which the last event of a state counts. -/
def publicationsOf (events : List TwinEvent) : Record TwinEvent :=
  (events.filter fun event => event.eventType = 30 ∧ event.payloadRef ≠ "").foldl
    (fun publications event => publications.set (toLowerCase event.payloadRef) event) []

variable {ω : Type} (adapter : Adapter ω) (config : OnChainStates) (cutoff : Dyadic)

/-- The loop over the states of a Twin, oldest first. -/
def pruneStep (twinId : String) (newest : Record String) (publications : Record TwinEvent)
    (p : Progress ω) (state : TwinStateEvidence) : Progress ω :=
  if newest.get? (stream state) = some (toLowerCase state.objectId) then p
  else match publications.get? (toLowerCase state.objectId) with
  | none => p
  | some publication =>
    if (publication.createdAt : Dyadic) > cutoff then p
    else if !canCreateVerificationReceipt state.payloadHash publication.payloadHash then
      { p with result := { p.result with skippedUnanchored := p.result.skippedUnanchored + 1 } }
    else
      let result := { p.result with eligible := p.result.eligible + 1 }
      if result.pruned ≥ config.maxPrunesPerRun then
        { p with result := { result with capped := true } }
      else
        match adapter.pruneState twinId state.objectId p.world with
        | (.ok _, world) =>
          { result := { result with pruned := result.pruned + 1 }
            prunes := p.prunes ++ [⟨twinId, state, true⟩]
            world }
        | (.error _, world) =>
          { result := { result with failed := result.failed + 1 }
            prunes := p.prunes ++ [⟨twinId, state, false⟩]
            world }

def pruneTwin (p : Progress ω) (twinId : String) : Progress ω :=
  match adapter.getTwinStateRetentionSnapshot twinId p.world with
  | (.error _, world) =>
    { p with result := { p.result with failed := p.result.failed + 1 }, world }
  | (.ok snapshot, world) =>
    let result := { p.result with
      twinsScanned := p.result.twinsScanned + 1
      statesScanned := p.result.statesScanned + snapshot.states.length }
    (snapshot.states.insertionSort fun a b => compareStatesOldestFirst a b ≤ 0).foldl
      (pruneStep adapter config cutoff twinId (newestByStream snapshot.states)
        (publicationsOf snapshot.events)) { p with result, world }

/-! ## A run -/

def DAY_MS : Dyadic := 86400000

def pruneOnChainStates (now : Int) (world : ω) : Progress ω :=
  let result : OnChainStateRetentionResult := { enabled := config.enabled }
  if !config.enabled || !adapter.available then { result, world }
  else
    let cutoff := now - config.retentionDays * DAY_MS
    match adapter.listTwinIdsForRetention world with
    | (.error _, world) => { result := { result with failed := 1 }, world }
    | (.ok twinIds, world) => twinIds.foldl (pruneTwin adapter config cutoff) { result, world }

end

end Retention
