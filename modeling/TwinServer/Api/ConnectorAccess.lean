-- SUMMARY: Which Twins a connector may write to: the cached and shared checks of `assertConnectorAccountingTwin`, over all interleavings.
import TwinServer.Base.Map
import TwinServer.Base.Steps
import TwinServer.Retention.Pass
import TwinServer.Security.Tenants

/-!
# The Twins of a connector

`assertAccountingTwin` of `src/api/app.ts` compares the subscription of a Twin on chain with that of an
account. `assertConnectorAccountingTwin` keeps a check that succeeded for a minute, and lets the calls that
come while a Twin is being read wait for that reading.

A reading may take any time. What it continues, up to the callers that wait for it, runs in the turn of
the event loop in which its answer arrives, and the clock stands in a turn.
-/

open Js Js.Json Security

namespace ConnectorAccess

section
variable [Runtime]

/-! ## The check -/

def CONNECTOR_TWIN_AUTH_CACHE_MS : Nat := 60000

/-- `subscriptionId` of a Twin as the chain answers it. -/
def subscriptionOf (twin : Option Json) : Except Thrown String :=
  let fields := Retention.twinFields twin
  match coalesce (fields.get? "subscription_id") (fields.get? "subscriptionId") with
  | some (.string s) => .ok s
  | raw => conversion (textOf? (coalesce (coalesce (raw.bind (·.get? "id")) (raw.bind (·.get? "bytes")))
      (raw.bind (·.get? "value"))))

def mismatch (accounting : AccountingContext) (twinId : String) : AppError where
  code := "OBJECTID_TENANT_TWIN_MISMATCH"
  message := "The authenticated tenant cannot access this Twin"
  status := 403
  category := .AUTHORIZATION
  details := [("tenantId", .string accounting.tenantId), ("twinId", .string twinId)]

/-- `assertAccountingTwin` on what `getTwin` answers. It gives the subscription that it compared. -/
def assertAccountingTwin (accounting : AccountingContext) (twinId : String)
    (answer : Except Thrown (Option Json)) : Except Thrown String := do
  let twin ← answer
  let subscriptionId ← subscriptionOf twin
  throwIf (toLowerCase subscriptionId != toLowerCase accounting.subscriptionId) (mismatch accounting twinId)
  return subscriptionId

theorem assertAccountingTwin_eq_ok {accounting : AccountingContext} {twinId : String}
    {answer : Except Thrown (Option Json)} {subscriptionId : String}
    (h : assertAccountingTwin accounting twinId answer = .ok subscriptionId) :
    toLowerCase subscriptionId = toLowerCase accounting.subscriptionId := by
  obtain ⟨twin, -, h⟩ := Except.bind_eq_ok.mp h
  obtain ⟨found, -, h⟩ := Except.bind_eq_ok.mp h
  obtain ⟨hsame, h⟩ := Except.check_bind_eq_ok.mp h
  obtain rfl := Except.pure_eq_ok.mp h
  simpa using throwIf_eq_ok.mp hsame

/-! ## The state -/

/-- An entry of `connectorTwinAuthCache`. -/
structure Entry where
  subscriptionId : String
  expiresAt : Nat

/-- How far the promise `verification` is: the Twin is read, the check has succeeded or failed, `then` has
run, `finally` has run. -/
inductive Stage where
  | reading
  | checked
  | failed (error : Thrown)
  | stored
  | fulfilled
  | rejected (error : Thrown)

/-- `finally` has run. -/
def Stage.settled : Stage → Bool
  | .fulfilled | .rejected _ => true
  | _ => false

/-- The promise continues in this turn. -/
def Stage.pending : Stage → Bool
  | .checked | .failed _ | .stored => true
  | _ => false

def keyOf (tenantId normalizedTwinId : String) : String := tenantId ++ ":" ++ normalizedTwinId

structure Verification where
  accounting : AccountingContext
  normalizedTwinId : String
  stage : Stage

/-- `key`. -/
def Verification.key (w : Verification) : String := keyOf w.accounting.tenantId w.normalizedTwinId

/-- How far a call is: it waits for a verification, or has been answered. -/
inductive Progress where
  | waiting (v : Nat)
  | resolved (moment : Nat)
  | rejected (error : Thrown)

structure Call where
  accounting : AccountingContext
  twinId : String
  progress : Progress

/-- A check that succeeded: the Twin, its subscription on chain, and when. -/
structure Check where
  twinId : String
  subscriptionId : String
  moment : Nat

/-- The maps of the server, its promises and the calls, with the checks that succeeded so far. -/
structure State where
  now : Nat
  connectorTwinAuthCache : Map Entry := .empty
  connectorTwinAuthInflight : Map Nat := .empty
  verifications : List Verification := []
  calls : List Call := []
  checks : List Check := []

namespace State

/-- The cache admits the subscription now. -/
def admits (s : State) (key subscriptionId : String) : Bool :=
  match s.connectorTwinAuthCache.get? key with
  | some cached => cached.subscriptionId == subscriptionId && decide (s.now < cached.expiresAt)
  | none => false

/-- The body of `assertConnectorAccountingTwin` up to what it waits for. -/
def assertConnectorAccountingTwin (s : State) (accounting : AccountingContext) (twinId : String) : State :=
  let normalizedTwinId := toLowerCase twinId
  let subscriptionId := toLowerCase accounting.subscriptionId
  let key := keyOf accounting.tenantId normalizedTwinId
  if s.admits key subscriptionId then
    { s with calls := s.calls ++ [⟨accounting, twinId, .resolved s.now⟩] }
  else match s.connectorTwinAuthInflight.get? key with
    | some existing => { s with calls := s.calls ++ [⟨accounting, twinId, .waiting existing⟩] }
    | none =>
      { s with
        verifications := s.verifications ++ [⟨accounting, normalizedTwinId, .reading⟩]
        connectorTwinAuthInflight := s.connectorTwinAuthInflight.set key s.verifications.length
        calls := s.calls ++ [⟨accounting, twinId, .waiting s.verifications.length⟩] }

/-- The verification has come to a stage. -/
def move (s : State) (v : Nat) (w : Verification) (stage : Stage) : State :=
  { s with verifications := s.verifications.set v { w with stage } }

/-- What `getTwin` answers is compared. -/
def answer (s : State) (v : Nat) (w : Verification) (twin : Except Thrown (Option Json)) : State :=
  match assertAccountingTwin w.accounting w.normalizedTwinId twin with
  | .ok subscriptionId =>
    { s.move v w .checked with checks := s.checks ++ [⟨w.normalizedTwinId, subscriptionId, s.now⟩] }
  | .error error => s.move v w (.failed error)

/-- `then`. -/
def store (s : State) (v : Nat) (w : Verification) : State :=
  { s.move v w .stored with
    connectorTwinAuthCache := s.connectorTwinAuthCache.set w.key
      ⟨toLowerCase w.accounting.subscriptionId, s.now + CONNECTOR_TWIN_AUTH_CACHE_MS⟩ }

/-- `finally`. -/
def release (s : State) (v : Nat) (w : Verification) (stage : Stage) : State :=
  { s.move v w stage with connectorTwinAuthInflight := s.connectorTwinAuthInflight.delete w.key }

/-- The call waits for a promise that has settled. -/
def wakes (s : State) (c : Call) : Bool :=
  match c.progress with
  | .waiting v => (s.verifications[v]?).any (·.stage.settled)
  | _ => false

/-- Nothing is left to run in this turn. -/
def idle (s : State) : Bool :=
  s.verifications.all (!·.stage.pending) && s.calls.all (!s.wakes ·)

end State

/-! ## Steps -/

inductive Event where
  | call (accounting : AccountingContext) (twinId : String)
  | answer (v : Nat) (twin : Except Thrown (Option Json))
  | store (v : Nat)
  | release (v : Nat)
  | settle (n : Nat)
  | advance (ms : Nat)

@[local grind] def step (s : State) : Event → Option State
  | .call accounting twinId => some (s.assertConnectorAccountingTwin accounting twinId)
  | .answer v twin => do
    let w ← s.verifications[v]?
    match w.stage with
    | .reading => some (s.answer v w twin)
    | _ => none
  | .store v => do
    let w ← s.verifications[v]?
    match w.stage with
    | .checked => some (s.store v w)
    | _ => none
  | .release v => do
    let w ← s.verifications[v]?
    match w.stage with
    | .stored => some (s.release v w .fulfilled)
    | .failed error => some (s.release v w (.rejected error))
    | _ => none
  | .settle n => do
    let c ← s.calls[n]?
    match c.progress with
    | .waiting v =>
      let w ← s.verifications[v]?
      match w.stage with
      | .fulfilled => some { s with calls := s.calls.set n { c with progress := .resolved s.now } }
      | .rejected error => some { s with calls := s.calls.set n { c with progress := .rejected error } }
      | _ => none
    | _ => none
  | .advance ms => if s.idle then some { s with now := s.now + ms } else none

/-- The calls are for accounts of one tenant. -/
def Event.Of (tenantId : String) : Event → Prop
  | .call accounting _ => accounting.tenantId = tenantId
  | _ => True

/-- A call that waits for a reading that was begun before is of the subscription it was begun for. -/
def Event.Shares (s : State) : Event → Prop
  | .call accounting twinId =>
    let key := keyOf accounting.tenantId (toLowerCase twinId)
    s.admits key (toLowerCase accounting.subscriptionId) ∨
      ∀ v w, s.connectorTwinAuthInflight.get? key = some v → s.verifications[v]? = some w →
        toLowerCase w.accounting.subscriptionId = toLowerCase accounting.subscriptionId
  | _ => True

variable {s t : State} {v n : Nat} {w : Verification}

theorem step_answer {twin : Except Thrown (Option Json)} (h : step s (.answer v twin) = some t) :
    ∃ w, s.verifications[v]? = some w ∧ w.stage = .reading ∧ t = s.answer v w twin := by
  simp only [step, Option.bind_eq_bind, Option.bind_eq_some_iff] at h
  obtain ⟨w, hw, h⟩ := h
  split at h
  · exact ⟨w, hw, ‹_›, (Option.some.inj h).symm⟩
  · cases h

theorem step_store (h : step s (.store v) = some t) :
    ∃ w, s.verifications[v]? = some w ∧ w.stage = .checked ∧ t = s.store v w := by
  simp only [step, Option.bind_eq_bind, Option.bind_eq_some_iff] at h
  obtain ⟨w, hw, h⟩ := h
  split at h
  · exact ⟨w, hw, ‹_›, (Option.some.inj h).symm⟩
  · cases h

theorem step_release (h : step s (.release v) = some t) :
    ∃ w stage, s.verifications[v]? = some w ∧ (w.stage = .stored ∧ stage = .fulfilled ∨ ∃ error, stage = .rejected error) ∧
      t = s.release v w stage := by
  simp only [step, Option.bind_eq_bind, Option.bind_eq_some_iff] at h
  obtain ⟨w, hw, h⟩ := h
  split at h
  · exact ⟨w, _, hw, .inl ⟨‹_›, rfl⟩, (Option.some.inj h).symm⟩
  · exact ⟨w, _, hw, .inr ⟨_, rfl⟩, (Option.some.inj h).symm⟩
  · cases h

theorem step_settle (h : step s (.settle n) = some t) :
    ∃ c v w progress, s.calls[n]? = some c ∧ c.progress = .waiting v ∧ s.verifications[v]? = some w ∧
      (w.stage = .fulfilled ∧ progress = .resolved s.now ∨ ∃ error, progress = .rejected error) ∧
      t = { s with calls := s.calls.set n { c with progress } } := by
  simp only [step, Option.bind_eq_bind, Option.bind_eq_some_iff] at h
  obtain ⟨c, hc, h⟩ := h
  split at h
  · obtain ⟨w, hw, h⟩ := Option.bind_eq_some_iff.mp h
    split at h
    · exact ⟨c, _, w, _, hc, ‹_›, hw, .inl ⟨‹_›, rfl⟩, (Option.some.inj h).symm⟩
    · exact ⟨c, _, w, _, hc, ‹_›, hw, .inr ⟨_, rfl⟩, (Option.some.inj h).symm⟩
    · cases h
  · cases h

theorem step_advance {ms : Nat} (h : step s (.advance ms) = some t) :
    s.idle = true ∧ t = { s with now := s.now + ms } := by
  simp only [step] at h
  split at h
  · exact ⟨‹_›, (Option.some.inj h).symm⟩
  · cases h

/-! ## What is kept -/

/-- A check of the Twin found the subscription at the moment. -/
def Verified (checks : List Check) (twinId subscriptionId : String) (moment : Nat) : Prop :=
  ∃ k ∈ checks, k.twinId = twinId ∧ toLowerCase k.subscriptionId = subscriptionId ∧ k.moment = moment

/-- The verification was checked in the turn of the moment. -/
def Verification.Fresh (w : Verification) (checks : List Check) (moment : Nat) : Prop :=
  Verified checks w.normalizedTwinId (toLowerCase w.accounting.subscriptionId) moment

/-- What a call waits for is of its Twin and its subscription. -/
structure Call.Waits (c : Call) (w : Verification) (checks : List Check) (moment : Nat) : Prop where
  twin : w.normalizedTwinId = toLowerCase c.twinId
  subscription : toLowerCase w.accounting.subscriptionId = toLowerCase c.accounting.subscriptionId
  fresh : w.stage = .fulfilled → w.Fresh checks moment

/-- The call was resolved at the moment, at most a minute after a check. -/
def Call.Backed (s : State) (c : Call) (moment : Nat) : Prop :=
  ∃ m, Verified s.checks (toLowerCase c.twinId) (toLowerCase c.accounting.subscriptionId) m ∧
    m ≤ moment ∧ moment ≤ m + CONNECTOR_TWIN_AUTH_CACHE_MS

/-- An entry of the cache ends a minute after a check. -/
def Entry.Backed (s : State) (tenantId key : String) (e : Entry) : Prop :=
  ∃ twinId m, key = keyOf tenantId twinId ∧ Verified s.checks twinId e.subscriptionId m ∧ m ≤ s.now ∧
    e.expiresAt = m + CONNECTOR_TWIN_AUTH_CACHE_MS

structure Kept (tenantId : String) (s : State) : Prop where
  tenant : ∀ w ∈ s.verifications, w.accounting.tenantId = tenantId
  cached : ∀ key e, s.connectorTwinAuthCache.get? key = some e → e.Backed s tenantId key
  shared : ∀ key v, s.connectorTwinAuthInflight.get? key = some v →
    ∃ w, s.verifications[v]? = some w ∧ w.key = key ∧ w.stage.settled = false
  fresh : ∀ w ∈ s.verifications, w.stage = .checked ∨ w.stage = .stored → w.Fresh s.checks s.now
  waiting : ∀ c ∈ s.calls, ∀ v, c.progress = .waiting v → ∃ w, s.verifications[v]? = some w ∧ c.Waits w s.checks s.now
  resolved : ∀ c ∈ s.calls, ∀ moment, c.progress = .resolved moment → c.Backed s moment

omit [Runtime] in
theorem keyOf_injective {tenantId a b : String} (h : keyOf tenantId a = keyOf tenantId b) : a = b := by
  have htoList := congrArg String.toList h
  simpa [keyOf, String.toList_append, String.toList_inj] using htoList

theorem Verified.mono {checks checks' : List Check} {twinId subscriptionId : String} {moment : Nat}
    (h : Verified checks twinId subscriptionId moment) (hsub : checks ⊆ checks') :
    Verified checks' twinId subscriptionId moment := by
  obtain ⟨k, hk, hrest⟩ := h
  exact ⟨k, hsub hk, hrest⟩

theorem Kept.initial (tenantId : String) (now : Nat) : Kept tenantId { now } where
  tenant := fun w h => absurd h List.not_mem_nil
  cached := fun key e h => by cases h
  shared := fun key v h => by cases h
  fresh := fun w h => absurd h List.not_mem_nil
  waiting := fun c h => absurd h List.not_mem_nil
  resolved := fun c h => absurd h List.not_mem_nil

/-- What the cache admits now was checked at most a minute ago. -/
theorem Kept.backed_of_admits {tenantId twinId subscriptionId : String} (hs : Kept tenantId s)
    (h : s.admits (keyOf tenantId twinId) subscriptionId = true) :
    ∃ m, Verified s.checks twinId subscriptionId m ∧ m ≤ s.now ∧ s.now ≤ m + CONNECTOR_TWIN_AUTH_CACHE_MS := by
  rw [State.admits] at h
  split at h
  · rename_i cached hcached
    simp only [Bool.and_eq_true, beq_iff_eq, decide_eq_true_eq] at h
    obtain ⟨twinId', m, hkey, hverified, hm, hexpires⟩ := hs.cached _ _ hcached
    obtain rfl := keyOf_injective hkey
    rw [h.1] at hverified
    exact ⟨m, hverified, hm, by omega⟩
  · cases h

/-! ## One step -/

variable {tenantId : String} {c : Call} {stage : Stage}

theorem Kept.note (hs : Kept tenantId s) (k : Check) : Kept tenantId { s with checks := s.checks ++ [k] } where
  tenant := hs.tenant
  cached := fun key e h => by
    obtain ⟨twinId, m, hkey, hverified, hm⟩ := hs.cached key e h
    exact ⟨twinId, m, hkey, hverified.mono (List.subset_append_left _ _), hm⟩
  shared := hs.shared
  fresh := fun w hw hstage => (hs.fresh w hw hstage).mono (List.subset_append_left _ _)
  waiting := fun c hc v hv => by
    obtain ⟨w, hw, hwaits⟩ := hs.waiting c hc v hv
    exact ⟨w, hw, hwaits.twin, hwaits.subscription,
      fun h => (hwaits.fresh h).mono (List.subset_append_left _ _)⟩
  resolved := fun c hc moment h => by
    obtain ⟨m, hverified, hm⟩ := hs.resolved c hc moment h
    exact ⟨m, hverified.mono (List.subset_append_left _ _), hm⟩

theorem Kept.add_call (hs : Kept tenantId s)
    (hwaiting : ∀ v, c.progress = .waiting v → ∃ w, s.verifications[v]? = some w ∧ c.Waits w s.checks s.now)
    (hresolved : ∀ moment, c.progress = .resolved moment → c.Backed s moment) :
    Kept tenantId { s with calls := s.calls ++ [c] } where
  tenant := hs.tenant
  cached := hs.cached
  shared := hs.shared
  fresh := hs.fresh
  waiting := fun c' hc' v hv => by
    rcases List.mem_append.mp hc' with hc' | hc'
    · exact hs.waiting c' hc' v hv
    · obtain rfl := List.mem_singleton.mp hc'
      exact hwaiting v hv
  resolved := fun c' hc' moment h => by
    rcases List.mem_append.mp hc' with hc' | hc'
    · exact hs.resolved c' hc' moment h
    · obtain rfl := List.mem_singleton.mp hc'
      exact hresolved moment h

/-- A reading is begun when none is shared under its key. -/
theorem Kept.begin (hs : Kept tenantId s) (w : Verification) (htenant : w.accounting.tenantId = tenantId)
    (hstage : w.stage = .reading) :
    Kept tenantId { s with
      verifications := s.verifications ++ [w]
      connectorTwinAuthInflight := s.connectorTwinAuthInflight.set w.key s.verifications.length } where
  tenant := fun w' hw' => by
    rcases List.mem_append.mp hw' with hw' | hw'
    · exact hs.tenant w' hw'
    · obtain rfl := List.mem_singleton.mp hw'
      exact htenant
  cached := hs.cached
  shared := fun key v h => by
    rw [Map.get?_set] at h
    split at h
    · obtain rfl := Option.some.inj h
      refine ⟨w, List.getElem?_concat_length, (‹key = w.key›).symm, ?_⟩
      rw [hstage]
      rfl
    · obtain ⟨w', hw', hrest⟩ := hs.shared key v h
      exact ⟨w', List.getElem?_append_left (List.getElem?_eq_some_iff.mp hw').1 ▸ hw', hrest⟩
  fresh := fun w' hw' hchecked => by
    rcases List.mem_append.mp hw' with hw' | hw'
    · exact hs.fresh w' hw' hchecked
    · obtain rfl := List.mem_singleton.mp hw'
      rw [hstage] at hchecked
      rcases hchecked with h | h <;> cases h
  waiting := fun c hc v hv => by
    obtain ⟨w', hw', hwaits⟩ := hs.waiting c hc v hv
    exact ⟨w', List.getElem?_append_left (List.getElem?_eq_some_iff.mp hw').1 ▸ hw', hwaits⟩
  resolved := hs.resolved

/-- A verification comes to its next stage: to a checked one in the turn of the check, and to a settled one
when it is not shared any more. -/
theorem Kept.move (hs : Kept tenantId s) (hw : s.verifications[v]? = some w)
    (hchecked : stage = .checked ∨ stage = .stored ∨ stage = .fulfilled → w.Fresh s.checks s.now)
    (hsettled : stage.settled = true → ∀ key, s.connectorTwinAuthInflight.get? key ≠ some v) :
    Kept tenantId (s.move v w stage) := by
  have hlt : v < s.verifications.length := (List.getElem?_eq_some_iff.mp hw).1
  -- the verification at an index afterwards, with the part of it that does not move
  have hget : ∀ i w', s.verifications[i]? = some w' →
      ∃ stage', (s.verifications.set v { w with stage })[i]? = some { w' with stage := stage' } ∧
        (i = v ∧ stage' = stage ∧ w' = w ∨ i ≠ v ∧ stage' = w'.stage) := by
    intro i w' hw'
    by_cases hi : i = v
    · subst hi
      obtain rfl := Option.some.inj (hw.symm.trans hw')
      exact ⟨stage, List.getElem?_set_self hlt, .inl ⟨rfl, rfl, rfl⟩⟩
    · exact ⟨w'.stage, by rw [List.getElem?_set_ne (Ne.symm hi), hw'], .inr ⟨hi, rfl⟩⟩
  refine ⟨fun w' hw' => ?_, hs.cached, fun key i h => ?_, fun w' hw' hstage => ?_, fun c hc i hi => ?_, hs.resolved⟩
  · rcases List.mem_or_eq_of_mem_set hw' with hw' | rfl
    · exact hs.tenant w' hw'
    · exact hs.tenant w (List.mem_of_getElem? hw)
  · obtain ⟨w', hw', hkey, hunsettled⟩ := hs.shared key i h
    obtain ⟨stage', hset, hcase⟩ := hget i w' hw'
    refine ⟨_, hset, hkey, ?_⟩
    rcases hcase with ⟨rfl, rfl, rfl⟩ | ⟨-, rfl⟩
    · cases hsettle : stage'.settled with
      | true => exact absurd h (hsettled hsettle key)
      | false => rfl
    · exact hunsettled
  · rcases List.mem_or_eq_of_mem_set hw' with hw' | rfl
    · exact hs.fresh w' hw' hstage
    · exact hchecked (hstage.imp_right .inl)
  · obtain ⟨w', hw', hwaits⟩ := hs.waiting c hc i hi
    obtain ⟨stage', hset, hcase⟩ := hget i w' hw'
    refine ⟨_, hset, hwaits.twin, hwaits.subscription, fun hfulfilled => ?_⟩
    rcases hcase with ⟨rfl, rfl, rfl⟩ | ⟨-, rfl⟩
    · exact hchecked (.inr (.inr hfulfilled))
    · exact hwaits.fresh hfulfilled

theorem Kept.call (hs : Kept tenantId s) {accounting : AccountingContext} {twinId : String}
    (hof : accounting.tenantId = tenantId) (hshares : Event.Shares s (.call accounting twinId)) :
    Kept tenantId (s.assertConnectorAccountingTwin accounting twinId) := by
  rw [State.assertConnectorAccountingTwin]
  split
  · -- the cache admits the subscription
    rename_i hadmits
    subst hof
    refine hs.add_call (fun v h => ?_) fun moment h => ?_
    · cases h
    · obtain rfl := Progress.resolved.inj h
      exact hs.backed_of_admits hadmits
  · rename_i hmiss
    split
    · -- another call reads the Twin
      rename_i existing hexisting
      refine hs.add_call (fun v h => ?_) fun moment h => ?_
      · obtain rfl := Progress.waiting.inj h
        obtain ⟨w, hw, hkey, hunsettled⟩ := hs.shared _ _ hexisting
        have htwin : w.normalizedTwinId = toLowerCase twinId := by
          rw [Verification.key, hs.tenant w (List.mem_of_getElem? hw), ← hof] at hkey
          exact keyOf_injective hkey
        refine ⟨w, hw, htwin, ?_, fun hfulfilled => ?_⟩
        · exact (hshares.resolve_left hmiss) _ w hexisting hw
        · rw [hfulfilled] at hunsettled
          cases hunsettled
      · cases h
    · -- the call reads the Twin itself
      let w : Verification := ⟨accounting, toLowerCase twinId, .reading⟩
      refine (hs.begin w hof rfl).add_call (fun v h => ?_) fun moment h => ?_
      · obtain rfl := Progress.waiting.inj h
        exact ⟨w, List.getElem?_concat_length, rfl, rfl, fun h => by cases h⟩
      · cases h

theorem Kept.answer (hs : Kept tenantId s) (hw : s.verifications[v]? = some w)
    (twin : Except Thrown (Option Json)) : Kept tenantId (s.answer v w twin) := by
  rw [State.answer]
  split
  · rename_i subscriptionId hok
    have hnote := hs.note ⟨w.normalizedTwinId, subscriptionId, s.now⟩
    refine Kept.move hnote hw (fun _ => ?_) fun h => by cases h
    exact ⟨_, List.mem_append_right _ List.mem_cons_self, rfl, assertAccountingTwin_eq_ok hok, rfl⟩
  · exact hs.move hw (fun h => by rcases h with h | h | h <;> cases h) fun h => by cases h

theorem Kept.store (hs : Kept tenantId s) (hw : s.verifications[v]? = some w) (hstage : w.stage = .checked) :
    Kept tenantId (s.store v w) := by
  have hfresh : w.Fresh s.checks s.now := hs.fresh w (List.mem_of_getElem? hw) (.inl hstage)
  have hmove : Kept tenantId (s.move v w .stored) := hs.move hw (fun _ => hfresh) fun h => by cases h
  refine ⟨hmove.tenant, fun key e h => ?_, hmove.shared, hmove.fresh, hmove.waiting, hmove.resolved⟩
  rw [State.store, Map.get?_set] at h
  split at h
  · obtain rfl := Option.some.inj h
    refine ⟨w.normalizedTwinId, s.now, ?_, hfresh, Nat.le_refl _, rfl⟩
    rw [‹key = w.key›, Verification.key, hs.tenant w (List.mem_of_getElem? hw)]
  · exact hs.cached key e h

theorem Kept.release (hs : Kept tenantId s) (hw : s.verifications[v]? = some w)
    (hstage : w.stage = .stored ∧ stage = .fulfilled ∨ ∃ error, stage = .rejected error) :
    Kept tenantId (s.release v w stage) := by
  have hdelete : Kept tenantId
      { s with connectorTwinAuthInflight := s.connectorTwinAuthInflight.delete w.key } := by
    refine ⟨hs.tenant, hs.cached, fun key i h => ?_, hs.fresh, hs.waiting, hs.resolved⟩
    rw [Map.get?_delete] at h
    split at h
    · cases h
    · exact hs.shared key i h
  refine Kept.move hdelete hw (fun h => ?_) fun _ key h => ?_
  · rcases hstage with ⟨hstored, -⟩ | ⟨error, rfl⟩
    · exact hs.fresh w (List.mem_of_getElem? hw) (.inr hstored)
    · rcases h with h | h | h <;> cases h
  · -- what the map led to the verification under is its key
    rw [Map.get?_delete] at h
    split at h
    · cases h
    · rename_i hne
      obtain ⟨w', hw', hkey, -⟩ := hs.shared key v h
      obtain rfl := Option.some.inj (hw.symm.trans hw')
      exact hne hkey.symm

theorem Kept.settle (hs : Kept tenantId s) {progress : Progress} (hc : s.calls[n]? = some c)
    (hwaiting : c.progress = .waiting v) (hw : s.verifications[v]? = some w)
    (hprogress : w.stage = .fulfilled ∧ progress = .resolved s.now ∨ ∃ error, progress = .rejected error) :
    Kept tenantId { s with calls := s.calls.set n { c with progress } } := by
  obtain ⟨w', hw', hwaits⟩ := hs.waiting c (List.mem_of_getElem? hc) v hwaiting
  obtain rfl := Option.some.inj (hw.symm.trans hw')
  refine ⟨hs.tenant, hs.cached, hs.shared, hs.fresh, fun c' hc' i hi => ?_, fun c' hc' moment h => ?_⟩
  · rcases List.mem_or_eq_of_mem_set hc' with hc' | rfl
    · exact hs.waiting c' hc' i hi
    · rcases hprogress with ⟨-, rfl⟩ | ⟨error, rfl⟩ <;> cases hi
  · rcases List.mem_or_eq_of_mem_set hc' with hc' | rfl
    · exact hs.resolved c' hc' moment h
    · rcases hprogress with ⟨hfulfilled, rfl⟩ | ⟨error, rfl⟩
      · obtain rfl := Progress.resolved.inj h
        have hfresh : Verified s.checks _ _ s.now := hwaits.fresh hfulfilled
        rw [hwaits.twin, hwaits.subscription] at hfresh
        exact ⟨s.now, hfresh, Nat.le_refl _, Nat.le_add_right _ _⟩
      · cases h

/-- The clock goes on when nothing waits for a check of this turn. -/
theorem Kept.advance (hs : Kept tenantId s) (hidle : s.idle = true) (ms : Nat) :
    Kept tenantId { s with now := s.now + ms } := by
  simp only [State.idle, Bool.and_eq_true, List.all_eq_true] at hidle
  refine ⟨hs.tenant, fun key e h => ?_, hs.shared, fun w hw hstage => ?_, fun c hc v hv => ?_, hs.resolved⟩
  · obtain ⟨twinId, m, hkey, hverified, hm, hexpires⟩ := hs.cached key e h
    exact ⟨twinId, m, hkey, hverified, Nat.le_add_right_of_le hm, hexpires⟩
  · have hpending := hidle.1 w hw
    rcases hstage with h | h <;> simp [h, Stage.pending] at hpending
  · obtain ⟨w, hw, hwaits⟩ := hs.waiting c hc v hv
    refine ⟨w, hw, hwaits.twin, hwaits.subscription, fun hfulfilled => ?_⟩
    have hwakes := hidle.2 c hc
    simp [State.wakes, hv, hw, hfulfilled, Stage.settled] at hwakes

theorem Kept.step {e : Event} (hs : Kept tenantId s) (hof : e.Of tenantId) (hshares : e.Shares s)
    (h : step s e = some t) : Kept tenantId t := by
  cases e with
  | call accounting twinId =>
      obtain rfl := Option.some.inj h
      exact hs.call hof hshares
  | answer v twin =>
      obtain ⟨w, hw, -, rfl⟩ := step_answer h
      exact hs.answer hw twin
  | store v =>
      obtain ⟨w, hw, hstage, rfl⟩ := step_store h
      exact hs.store hw hstage
  | release v =>
      obtain ⟨w, stage, hw, hstage, rfl⟩ := step_release h
      exact hs.release hw hstage
  | settle n =>
      obtain ⟨c, v, w, progress, hc, hwaiting, hw, hprogress, rfl⟩ := step_settle h
      exact hs.settle hc hwaiting hw hprogress
  | advance ms =>
      obtain ⟨hidle, rfl⟩ := step_advance h
      exact hs.advance hidle ms

/-! ## Runs -/

/-- The steps of the calls for one tenant. -/
def Moves (tenantId : String) (s t : State) : Prop := ∃ e : Event, e.Of tenantId ∧ step s e = some t

/-- The steps among them in which a call waits for no reading of another subscription. -/
def Shares (tenantId : String) (s t : State) : Prop :=
  ∃ e : Event, e.Of tenantId ∧ e.Shares s ∧ step s e = some t

/-- Every call that was resolved has a check of its Twin that found its subscription, at most
`CONNECTOR_TWIN_AUTH_CACHE_MS` earlier. -/
def Sound (s : State) : Prop :=
  ∀ c ∈ s.calls, ∀ moment, c.progress = .resolved moment →
    ∃ k ∈ s.checks, k.twinId = toLowerCase c.twinId ∧
      toLowerCase k.subscriptionId = toLowerCase c.accounting.subscriptionId ∧
      k.moment ≤ moment ∧ moment ≤ k.moment + CONNECTOR_TWIN_AUTH_CACHE_MS

theorem Kept.sound (hs : Kept tenantId s) : Sound s := by
  intro c hc moment h
  obtain ⟨m, ⟨k, hk, htwin, hsubscription, rfl⟩, hle⟩ := hs.resolved c hc moment h
  exact ⟨k, hk, htwin, hsubscription, hle⟩

/-- The cache and the shared readings admit what the direct check admitted within the minute, in every run in
which no call waits for a reading that was begun for another subscription. -/
theorem admits_verified {now : Nat} (hrun : Steps.Run (Shares tenantId) n { now } s) : Sound s := by
  apply Kept.sound
  refine hrun.invariant (I := Kept tenantId) (fun s t hs ⟨e, hof, hshares, h⟩ => ?_) (Kept.initial tenantId now)
  exact hs.step hof hshares h

/-! ## A subscription that is not replaced -/

/-- A call is for an account of the subscription. -/
def Event.For (subscription : String) : Event → Prop
  | .call accounting _ => toLowerCase accounting.subscriptionId = subscription
  | _ => True

/-- Every reading was begun for the subscription. -/
def AllFor (subscription : String) (s : State) : Prop :=
  ∀ w ∈ s.verifications, toLowerCase w.accounting.subscriptionId = subscription

variable {e : Event} {subscription : String}

theorem Event.shares_of_for (he : e.For subscription) (hs : AllFor subscription s) : e.Shares s := by
  cases e with
  | call accounting twinId =>
      refine .inr fun v w _ hw => ?_
      rw [hs w (List.mem_of_getElem? hw)]
      exact he.symm
  | _ => trivial

theorem AllFor.move (hs : AllFor subscription s) (hw : s.verifications[v]? = some w) (stage : Stage) :
    AllFor subscription (s.move v w stage) := by
  intro w' hw'
  rcases List.mem_or_eq_of_mem_set hw' with hw' | rfl
  · exact hs w' hw'
  · exact hs w (List.mem_of_getElem? hw)

theorem AllFor.step (hs : AllFor subscription s) (he : e.For subscription) (h : step s e = some t) :
    AllFor subscription t := by
  cases e with
  | call accounting twinId =>
      obtain rfl := Option.some.inj h
      rw [State.assertConnectorAccountingTwin]
      split
      · exact hs
      · split
        · exact hs
        · intro w hw
          rcases List.mem_append.mp hw with hw | hw
          · exact hs w hw
          · obtain rfl := List.mem_singleton.mp hw
            exact he
  | answer v twin =>
      obtain ⟨w, hw, -, rfl⟩ := step_answer h
      rw [State.answer]
      split
      · exact hs.move hw .checked
      · exact hs.move hw (.failed _)
  | store v =>
      obtain ⟨w, hw, -, rfl⟩ := step_store h
      exact hs.move hw .stored
  | release v =>
      obtain ⟨w, stage, hw, -, rfl⟩ := step_release h
      exact hs.move hw stage
  | settle n =>
      obtain ⟨c, v, w, progress, -, -, -, -, rfl⟩ := step_settle h
      exact hs
  | advance ms =>
      obtain ⟨-, rfl⟩ := step_advance h
      exact hs

/-- As long as the subscription of a tenant is not replaced, every call is sound. -/
theorem sound_of_unreplaced {now : Nat}
    (hrun : Steps.Run (fun s t => ∃ e : Event, (e.Of tenantId ∧ e.For subscription) ∧ step s e = some t) n { now } s) :
    Sound s := by
  have hkept := hrun.invariant (I := fun s => Kept tenantId s ∧ AllFor subscription s)
    (fun s t ⟨hs, hall⟩ ⟨e, ⟨hof, hfor⟩, h⟩ =>
      ⟨hs.step hof (Event.shares_of_for hfor hall) h, hall.step hfor h⟩)
    ⟨Kept.initial tenantId now, fun w h => absurd h List.not_mem_nil⟩
  exact hkept.1.sound

/-! ## Runs of given events -/

/-- The state after some events. -/
def after (s : State) (events : List Event) : Option State := events.foldlM step s

theorem exists_run_of_after {R : State → State → Prop} {I : State → Prop} {events : List Event}
    (hmoves : ∀ s t, I s → ∀ e ∈ events, step s e = some t → R s t ∧ I t) (hs : I s)
    (h : after s events = some t) : ∃ n, Steps.Run R n s t := by
  induction events generalizing s with
  | nil =>
      obtain rfl := Option.some.inj h
      exact ⟨0, .refl s⟩
  | cons e events ih =>
      obtain ⟨u, hu, h⟩ := Option.bind_eq_some_iff.mp h
      obtain ⟨hstep, hinvariant⟩ := hmoves s u hs e List.mem_cons_self hu
      obtain ⟨n, hrun⟩ := ih (fun s t hs e he => hmoves s t hs e (List.mem_cons_of_mem _ he)) hinvariant h
      exact ⟨n + 1, .head hstep hrun⟩

end

/-! ## The subscription is replaced -/

/-- The account of a tenant before and after its subscription is replaced. -/
def accountOf (subscriptionId : String) : AccountingContext := ⟨"t", "c", "did:iota:0x1", subscriptionId⟩

/-- The Twin is read for the old subscription, which it still has, and the call of the new one waits for
that reading. -/
def replacement : List Event :=
  [.call (accountOf "0xa") "0x7", .call (accountOf "0xb") "0x7",
    .answer 0 (.ok (some (.object [("subscription_id", .string "0xa")]))),
    .store 0, .release 0, .settle 0, .settle 1]

def Progress.isResolved : Progress → Bool
  | .resolved _ => true
  | _ => false

theorem replaced_subscription_admitted :
    ¬ ∀ [Runtime] (tenantId : String) (now n : Nat) (s : State), Steps.Run (Moves tenantId) n { now } s → Sound s := by
  intro hall
  let _ := Runtime.ascii
  -- at the end the call of the new subscription is resolved, and no check has found it
  have hend : (after { now := 5 } replacement).any (fun s =>
      s.calls.any (fun c => c.progress.isResolved && toLowerCase c.accounting.subscriptionId == "0xb") &&
        s.checks.all (fun k => toLowerCase k.subscriptionId != "0xb")) = true := by
    decide
  cases hafter : after { now := 5 } replacement with
  | none =>
      rw [hafter] at hend
      cases hend
  | some s =>
      rw [hafter, Option.any_some, Bool.and_eq_true, List.any_eq_true, List.all_eq_true] at hend
      obtain ⟨⟨c, hc, hprogress⟩, hchecks⟩ := hend
      rw [Bool.and_eq_true, beq_iff_eq] at hprogress
      have hmoves : ∀ s t, True → ∀ e ∈ replacement, step s e = some t → Moves "t" s t ∧ True := by
        intro s t _ e he h
        refine ⟨⟨e, ?_, h⟩, trivial⟩
        simp only [replacement, List.mem_cons, List.not_mem_nil, or_false] at he
        rcases he with rfl | rfl | rfl | rfl | rfl | rfl | rfl <;> trivial
      obtain ⟨n, hrun⟩ := exists_run_of_after hmoves trivial hafter
      cases hresolved : c.progress with
      | resolved moment =>
          obtain ⟨k, hk, -, hsubscription, -⟩ := hall "t" 5 n s hrun c hc moment hresolved
          have hother := hchecks k hk
          rw [hsubscription, hprogress.2] at hother
          cases hother
      | waiting v =>
          rw [hresolved] at hprogress
          cases hprogress.1
      | rejected error =>
          rw [hresolved] at hprogress
          cases hprogress.1

/-- One call is admitted by a check, the next one by the cache in the last millisecond of its entry. -/
def reuse : List Event :=
  [.call (accountOf "0xa") "0x7", .answer 0 (.ok (some (.object [("subscription_id", .string "0xA")]))),
    .store 0, .release 0, .settle 0, .advance 59999, .call (accountOf "0xA") "0x7"]

theorem admits_verified_reuse :
    ∃ s : State, @Sound Runtime.ascii s ∧ s.calls.length = 2 ∧ s.verifications.length = 1 := by
  let _ := Runtime.ascii
  have hend : (after { now := 5 } reuse).any (fun s =>
      s.calls.length == 2 && s.verifications.length == 1) = true := by
    decide
  cases hafter : after { now := 5 } reuse with
  | none =>
      rw [hafter] at hend
      cases hend
  | some s =>
      have hmoves : ∀ s t, AllFor "0xa" s → ∀ e ∈ reuse, step s e = some t → Shares "t" s t ∧ AllFor "0xa" t := by
        intro s t hs e he h
        have hfor : e.Of "t" ∧ e.For "0xa" := by
          simp only [reuse, List.mem_cons, List.not_mem_nil, or_false] at he
          rcases he with rfl | rfl | rfl | rfl | rfl | rfl | rfl
          case inl => exact ⟨rfl, (by decide : toLowerCase "0xa" = "0xa")⟩
          case inr.inr.inr.inr.inr.inr => exact ⟨rfl, (by decide : toLowerCase "0xA" = "0xa")⟩
          all_goals exact ⟨trivial, trivial⟩
        exact ⟨⟨e, hfor.1, Event.shares_of_for hfor.2 hs, h⟩, hs.step hfor.2 h⟩
      obtain ⟨n, hrun⟩ := exists_run_of_after hmoves (fun w h => absurd h List.not_mem_nil) hafter
      rw [hafter, Option.any_some, Bool.and_eq_true, beq_iff_eq, beq_iff_eq] at hend
      exact ⟨s, admits_verified hrun, hend⟩

end ConnectorAccess
