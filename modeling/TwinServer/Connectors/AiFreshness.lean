-- SUMMARY: What the latest analysis of a Twin was computed from, and what requests carry, in runs without overlapping connects.
import TwinServer.Connectors.AiAnalysis
import Mathlib.Data.List.Nodup
import Mathlib.Data.List.Perm.Subperm

/-!
# Fresh analyses

The samples of a state were observed under the connected configuration, after the last pause of the tenant and the
last encrypted event of the Twin, since each of these takes the state from its Twin. Two calls of `connect` that
overlap clear the states once, before the first of them has set its configuration.
-/

open Js Js.Json Realtime Async

namespace Ai

/-! ## Histories -/

/-- The configuration at the end of a history. -/
def connectedIn (history : List Happening) : Option AiConfig :=
  history.foldl (fun c h => match h with
    | .connected config => some config
    | .disconnected => none
    | _ => c) none

/-- The tenant is paused at the end of a history. -/
def pausedIn (tenantId : String) (history : List Happening) : Bool :=
  history.foldl (fun paused h => match h with
    | .paused t => paused || t == tenantId
    | .resumed t => paused && t != tenantId
    | _ => paused) false

/-- What was collected before for the Twin of the tenant is of no use after the happening. -/
def Happening.ends (tenantId twinId : String) : Happening → Bool
  | .observed _ event => event.twinId == twinId && event.encryption.encrypted
  | .paused t => t == tenantId
  | .resumed _ => false
  | .connected _ | .disconnected => true

/-- The sample was observed for the scope under the configuration, and nothing since has ended it. -/
def Fresh (history : List Happening) (config : AiConfig) (scope : Scope) (x : Sample) : Prop :=
  ∃ before event after, history = before ++ .observed scope.tenantId event :: after ∧
    x = sampleOf before.length scope event ∧ event.twinId = scope.twinId ∧ event.encryption.encrypted = false ∧
    connectedIn before = some config ∧ ∀ h ∈ after, h.ends scope.tenantId scope.twinId = false

/-- A request of a tenant that was not paused, with at most twenty samples, all fresh by then. -/
def Proper (history : List Happening) (q : Request) : Prop :=
  q.moment ≤ history.length ∧ pausedIn q.tenantId (history.take q.moment) = false ∧ q.samples.length ≤ 20 ∧
    ∃ scope ∈ q.config.scopes, scope.tenantId = q.tenantId ∧ scope.twinId = q.twinId ∧
      ∀ x ∈ q.samples, Fresh (history.take q.moment) q.config scope x

variable {history : List Happening} {config : AiConfig} {scope : Scope} {x : Sample} {q : Request}

theorem pausedIn_note (tenantId : String) (history : List Happening) (h : Happening) :
    pausedIn tenantId (history ++ [h]) = match h with
      | .paused t => pausedIn tenantId history || t == tenantId
      | .resumed t => pausedIn tenantId history && t != tenantId
      | _ => pausedIn tenantId history := by
  rw [pausedIn, List.foldl_append]
  rfl

theorem connectedIn_note (history : List Happening) (h : Happening) :
    connectedIn (history ++ [h]) = match h with
      | .connected config => some config
      | .disconnected => none
      | _ => connectedIn history := by
  rw [connectedIn, List.foldl_append]
  rfl

theorem Fresh.note {h : Happening} (hx : Fresh history config scope x)
    (hends : h.ends scope.tenantId scope.twinId = false) : Fresh (history ++ [h]) config scope x := by
  obtain ⟨before, event, after, rfl, hsample, htwin, hplain, hconnected, hafter⟩ := hx
  refine ⟨before, event, after ++ [h], by simp, hsample, htwin, hplain, hconnected, fun h' hh' => ?_⟩
  rcases List.mem_append.mp hh' with hh' | hh'
  · exact hafter h' hh'
  · obtain rfl := List.mem_singleton.mp hh'
    exact hends

/-- What happened next has not ended it. -/
theorem Fresh.next {h : Happening} (hx : Fresh history config scope x) (hnext : history[x.origin + 1]? = some h) :
    h.ends scope.tenantId scope.twinId = false := by
  obtain ⟨before, event, after, rfl, rfl, -, -, -, hafter⟩ := hx
  refine hafter h (List.mem_of_getElem? (i := 0) ?_)
  have hskip : (before ++ .observed scope.tenantId event :: after)[before.length + 1]? = after[0]? := by
    rw [List.getElem?_append_right (Nat.le_add_right before.length 1), Nat.add_sub_cancel_left]
    rfl
  exact hskip.symm.trans hnext

/-- A sample is fresh as it is observed. -/
theorem Fresh.observed {event : TwinRealtimeEvent} (hconnected : connectedIn history = some config)
    (htwin : event.twinId = scope.twinId) (hplain : event.encryption.encrypted = false) :
    Fresh (history ++ [.observed scope.tenantId event]) config scope (sampleOf history.length scope event) :=
  ⟨history, event, [], rfl, rfl, htwin, hplain, hconnected, fun _ h => nomatch h⟩

theorem Proper.note (h : Proper history q) (e : Happening) : Proper (history ++ [e]) q := by
  obtain ⟨hmoment, hpaused, hsamples, hscope⟩ := h
  have htake : (history ++ [e]).take q.moment = history.take q.moment := List.take_append_of_le_length hmoment
  refine ⟨hmoment.trans (by simp), ?_, hsamples, ?_⟩
  · rw [htake]
    exact hpaused
  · rw [htake]
    exact hscope

/-- The scopes of a configuration have different Twins. -/
theorem AiConfig.scope_eq {a b : Scope} (ha : a ∈ config.scopes) (hb : b ∈ config.scopes) (h : a.twinId = b.twinId) :
    a = b :=
  List.inj_on_of_nodup_map config.unique ha hb h

theorem AiConfig.of_scope? {tenantId twinId : String} (h : config.scope? tenantId twinId = some scope) :
    scope ∈ config.scopes ∧ scope.tenantId = tenantId ∧ scope.twinId = twinId := by
  have hmatch := List.find?_some h
  simp only [Bool.and_eq_true, beq_iff_eq] at hmatch
  exact ⟨List.mem_of_find?_eq_some h, hmatch⟩

/-! ## What is kept -/

/-- A state that a Twin has: its samples and its result are fresh for the scope of the Twin. -/
structure Live (s : Connector) (twinId : String) (i : Nat) (config : AiConfig) (scope : Scope) : Prop where
  member : scope ∈ config.scopes
  twin : scope.twinId = twinId
  active : scope.active
  running : s.pausedTenants.contains scope.tenantId = false
  samples : ∀ x ∈ (s.memory i).samples, Fresh s.history config scope x
  result : ∀ r, (s.memory i).result = some r →
    r.samples ≠ [] ∧ r.sampleCount = r.samples.length ∧ ∀ x ∈ r.samples, Fresh s.history config scope x

/-- What a live state holds of the connector is its memory, its history and the paused tenants. -/
theorem Live.congr {s s' : Connector} {twinId : String} {i : Nat} (h : Live s twinId i config scope)
    (hmemory : s'.memory i = s.memory i) (hpaused : s'.pausedTenants = s.pausedTenants)
    (hhistory : s'.history = s.history) : Live s' twinId i config scope where
  member := h.member
  twin := h.twin
  active := h.active
  running := hpaused ▸ h.running
  samples := by
    rw [hmemory, hhistory]
    exact h.samples
  result := by
    rw [hmemory, hhistory]
    exact h.result

/-- What holds between any two segments. -/
structure Kept (s : Connector) : Prop where
  live : ∀ twinId i, s.states.get? twinId = some i →
    ∃ n config scope, s.config = some (n, config) ∧ Live s twinId i config scope
  allocated : ∀ twinId i, s.states.get? twinId = some i → i < s.allocated
  apart : ∀ t u i, s.states.get? t = some i → s.states.get? u = some i → t = u
  connected : ∀ n config, s.config = some (n, config) → n < s.configs ∧ connectedIn s.history = some config
  connecting : 0 < s.connecting → s.config = none ∧ s.connecting = 1
  paused : ∀ t, s.pausedTenants.contains t = pausedIn t s.history
  bounded : ∀ i, (s.memory i).samples.length ≤ 20
  few : s.requests.length ≤ 2
  known : ∀ c ∈ s.requests, c < s.controllers
  proper : ∀ q ∈ s.sent, Proper s.history q

/-- What holds of a task. -/
def Owns (s : Connector) : Task → Prop
  | .idle => True
  | .connecting _ => 0 < s.connecting
  | .analyzing a => a.controller ∈ s.requests ∧ a.state < s.allocated ∧ a.number < s.configs ∧
      ∀ config, s.config = some (a.number, config) → s.states.get? a.twinId = some a.state →
        ∀ scope ∈ config.scopes, scope.twinId = a.twinId → ∀ x ∈ a.samples, Fresh s.history config scope x

/-- What holds of two tasks. -/
@[local grind] def Apart : Task → Task → Prop
  | .connecting _, .connecting _ => False
  | .analyzing a, .analyzing b => a.controller ≠ b.controller
  | _, _ => True

theorem Apart.symm {t u : Task} (h : Apart t u) : Apart u t := by
  cases t <;> cases u <;> first | exact trivial | exact h | exact Ne.symm h

variable {s s' : Connector} {t t' : Task}

/-- The live states of a connector that differs in nothing they depend on. -/
theorem Kept.live_congr (h : Kept s) (hstates : s'.states = s.states) (hconfig : s'.config = s.config)
    (hmemory : s'.memory = s.memory) (hpaused : s'.pausedTenants = s.pausedTenants) (hhistory : s'.history = s.history) :
    ∀ twinId i, s'.states.get? twinId = some i →
      ∃ n config scope, s'.config = some (n, config) ∧ Live s' twinId i config scope := by
  intro twinId i hstate
  obtain ⟨n, config, scope, hsome, hlive⟩ := h.live twinId i (hstates ▸ hstate)
  exact ⟨n, config, scope, hconfig.trans hsome, hlive.congr (congrFun hmemory i) hpaused hhistory⟩

theorem Kept.offline (h : Kept s) (hconfig : s.config = none) (twinId : String) : s.states.get? twinId = none := by
  cases hstate : s.states.get? twinId with
  | none => rfl
  | some i =>
    obtain ⟨n, config, scope, hsome, -⟩ := h.live twinId i hstate
    rw [hconfig] at hsome
    cases hsome

/-- The scope of a live state is the one of its Twin. -/
theorem Kept.live_scope (h : Kept s) {twinId : String} {i n : Nat} (hstate : s.states.get? twinId = some i)
    (hconfig : s.config = some (n, config)) (hscope : scope ∈ config.scopes) (htwin : scope.twinId = twinId) :
    Live s twinId i config scope := by
  obtain ⟨n', config', scope', hconfig', hlive⟩ := h.live twinId i hstate
  obtain ⟨rfl, rfl⟩ := Prod.mk.inj (Option.some.inj (hconfig.symm.trans hconfig'))
  obtain rfl := AiConfig.scope_eq hscope hlive.member (htwin.trans hlive.twin.symm)
  exact hlive

/-! ## Happenings that collect nothing -/

/-- The happening is noted; of the states only those stay that it does not end. -/
structure Reduces (s s' : Connector) (h : Happening) : Prop where
  history : s'.history = s.history ++ [h]
  memory : s'.memory = s.memory
  allocated : s'.allocated = s.allocated
  configs : s'.configs = s.configs
  requests : s'.requests = s.requests
  controllers : s'.controllers = s.controllers
  connecting : s'.connecting = s.connecting
  sent : s'.sent = s.sent
  states : ∀ twinId i, s'.states.get? twinId = some i → s'.config = s.config ∧ s.states.get? twinId = some i ∧
    ∀ n config scope, s.config = some (n, config) → Live s twinId i config scope →
      h.ends scope.tenantId twinId = false ∧ s'.pausedTenants.contains scope.tenantId = false
  config : ∀ n config, s'.config = some (n, config) →
    s.config = some (n, config) ∧ connectedIn (s.history ++ [h]) = connectedIn s.history
  paused : ∀ t, s'.pausedTenants.contains t = pausedIn t (s.history ++ [h])

theorem Reduces.kept {h : Happening} (hreduces : Reduces s s' h) (hkept : Kept s) : Kept s' where
  live twinId i hstate := by
    obtain ⟨hconfig, hstate', hstays⟩ := hreduces.states twinId i hstate
    obtain ⟨n, config, scope, hsome, hlive⟩ := hkept.live twinId i hstate'
    obtain ⟨hends, hrunning⟩ := hstays n config scope hsome hlive
    rw [← hlive.twin] at hends
    refine ⟨n, config, scope, hconfig.trans hsome, hlive.member, hlive.twin, hlive.active, hrunning, ?_, ?_⟩
    · rw [hreduces.memory, hreduces.history]
      exact fun x hx => (hlive.samples x hx).note hends
    · rw [hreduces.memory, hreduces.history]
      intro r hr
      obtain ⟨hne, hcount, hfresh⟩ := hlive.result r hr
      exact ⟨hne, hcount, fun x hx => (hfresh x hx).note hends⟩
  allocated twinId i hstate := hreduces.allocated ▸ hkept.allocated twinId i (hreduces.states twinId i hstate).2.1
  apart t u i ht hu := hkept.apart t u i (hreduces.states t i ht).2.1 (hreduces.states u i hu).2.1
  connected n config hconfig := by
    obtain ⟨hsome, hsame⟩ := hreduces.config n config hconfig
    obtain ⟨hlt, hconnected⟩ := hkept.connected n config hsome
    rw [hreduces.configs, hreduces.history, hsame]
    exact ⟨hlt, hconnected⟩
  connecting hpos := by
    rw [hreduces.connecting] at hpos ⊢
    obtain ⟨hnone, hone⟩ := hkept.connecting hpos
    refine ⟨?_, hone⟩
    cases hconfig : s'.config with
    | none => rfl
    | some p =>
      have hsome := (hreduces.config p.1 p.2 hconfig).1
      rw [hnone] at hsome
      cases hsome
  paused t := by rw [hreduces.paused, hreduces.history]
  bounded i := by
    rw [hreduces.memory]
    exact hkept.bounded i
  few := hreduces.requests ▸ hkept.few
  known c hc := by
    rw [hreduces.controllers]
    exact hkept.known c (hreduces.requests ▸ hc)
  proper q hq := by
    rw [hreduces.history]
    exact (hkept.proper q (hreduces.sent ▸ hq)).note h

theorem Reduces.owns {h : Happening} (hreduces : Reduces s s' h) (hkept : Kept s) (howns : Owns s t) : Owns s' t := by
  cases t with
  | idle => trivial
  | connecting config =>
    show 0 < s'.connecting
    rw [hreduces.connecting]
    exact howns
  | analyzing a =>
    obtain ⟨hrequest, hallocated, hnumber, hfresh⟩ := howns
    refine ⟨hreduces.requests ▸ hrequest, hreduces.allocated ▸ hallocated, hreduces.configs ▸ hnumber, ?_⟩
    intro config hconfig hstate scope hscope htwin x hx
    obtain ⟨-, hstate', hstays⟩ := hreduces.states a.twinId a.state hstate
    have hsome := (hreduces.config _ _ hconfig).1
    have hends := (hstays _ _ _ hsome (hkept.live_scope hstate' hsome hscope htwin)).1
    rw [hreduces.history]
    exact (hfresh config hsome hstate' scope hscope htwin x hx).note (htwin ▸ hends)

/-- An event that is not collected, where its Twin keeps its state only if the event is not encrypted. -/
theorem reduces_observed (hkept : Kept s) (tenantId : String) {event : TwinRealtimeEvent} {states : Map Nat}
    (hsub : ∀ twinId i, states.get? twinId = some i → s.states.get? twinId = some i)
    (hstays : event.encryption.encrypted = true → states.get? event.twinId = none) :
    Reduces s { s.note (.observed tenantId event) with states := states } (.observed tenantId event) where
  history := rfl
  memory := rfl
  allocated := rfl
  configs := rfl
  requests := rfl
  controllers := rfl
  connecting := rfl
  sent := rfl
  states twinId i hstate := by
    refine ⟨rfl, hsub twinId i hstate, fun n config scope _ hlive => ⟨?_, hlive.running⟩⟩
    simp only [Happening.ends, Bool.and_eq_false_iff, beq_eq_false_iff_ne, ne_eq]
    by_cases htwin : event.twinId = twinId
    · right
      rw [← Bool.not_eq_true]
      intro hencrypted
      rw [← htwin, hstays hencrypted] at hstate
      cases hstate
    · exact .inl htwin
  config n config hconfig := ⟨hconfig, connectedIn_note _ _⟩
  paused t := by
    rw [pausedIn_note]
    exact hkept.paused t

theorem reduces_resumed (hkept : Kept s) (tenantId : String) :
    Reduces s (s.setTenantEnabled tenantId true) (.resumed tenantId) where
  history := rfl
  memory := rfl
  allocated := rfl
  configs := rfl
  requests := rfl
  controllers := rfl
  connecting := rfl
  sent := rfl
  states twinId i hstate := by
    refine ⟨rfl, hstate, fun n config scope _ hlive => ⟨rfl, ?_⟩⟩
    have hrunning := hlive.running
    simp only [List.contains_eq_mem, decide_eq_false_iff_not, Connector.setTenantEnabled] at hrunning ⊢
    exact fun hmem => hrunning (List.mem_filter.mp hmem).1
  config n config hconfig := ⟨hconfig, connectedIn_note _ _⟩
  paused t := by
    rw [pausedIn_note, ← hkept.paused t]
    simp only [Connector.setTenantEnabled, List.contains_eq_mem, List.mem_filter, decide_not, Bool.not_eq_eq_eq_not,
      Bool.not_true, decide_eq_false_iff_not, Bool.decide_and]
    by_cases h : t = tenantId <;> simp [h, bne_iff_ne, Ne.symm]

theorem reduces_disconnect (hkept : Kept s) : Reduces s s.disconnect .disconnected where
  history := rfl
  memory := rfl
  allocated := rfl
  configs := rfl
  requests := rfl
  controllers := rfl
  connecting := rfl
  sent := rfl
  states twinId i hstate := nomatch hstate
  config n config hconfig := nomatch hconfig
  paused t := by
    rw [pausedIn_note]
    exact hkept.paused t

/-- The Twins of the scopes lose their states, and their requests are aborted. -/
theorem foldl_drop (scopes : List Scope) (s : Connector) : ∃ aborted states,
    scopes.foldl (fun s scope => (s.abort (s.twinRequests.get? scope.twinId).toList).drop scope.twinId) s =
      { s with aborted := aborted, states := states } ∧
    ∀ twinId, states.get? twinId = if twinId ∈ scopes.map Scope.twinId then none else s.states.get? twinId := by
  induction scopes generalizing s with
  | nil => exact ⟨s.aborted, s.states, rfl, fun _ => rfl⟩
  | cons scope scopes ih =>
    obtain ⟨aborted, states, heq, hstates⟩ :=
      ih ((s.abort (s.twinRequests.get? scope.twinId).toList).drop scope.twinId)
    refine ⟨aborted, states, heq, fun twinId => ?_⟩
    rw [hstates, List.map_cons]
    simp only [List.mem_cons, Connector.drop, Map.get?_delete]
    by_cases htwin : twinId = scope.twinId <;> simp [htwin, Connector.abort]

theorem reduces_paused (hkept : Kept s) (tenantId : String) :
    Reduces s (s.setTenantEnabled tenantId false) (.paused tenantId) := by
  obtain ⟨aborted, states, heq, hstates⟩ := foldl_drop
    ((s.config.elim [] fun c => c.2.scopes).filter (·.tenantId == tenantId))
    { s.note (.paused tenantId) with pausedTenants := tenantId :: s.pausedTenants }
  have hpaused : s.setTenantEnabled tenantId false = { s.note (.paused tenantId) with
      pausedTenants := tenantId :: s.pausedTenants, aborted := aborted, states := states } := heq
  rw [hpaused]
  constructor
  case states =>
    intro twinId i hstate
    change states.get? twinId = some i at hstate
    rw [hstates] at hstate
    split at hstate
    case isTrue => cases hstate
    case isFalse hnot =>
      refine ⟨rfl, hstate, fun n config scope hconfig hlive => ?_⟩
      -- the scope is none of the tenant, for those have lost their states
      have hne : tenantId ≠ scope.tenantId := by
        rintro rfl
        refine hnot (List.mem_map.mpr ⟨scope, List.mem_filter.mpr ⟨?_, by simp⟩, hlive.twin⟩)
        simp only [hconfig, Option.elim_some]
        exact hlive.member
      have hrunning := hlive.running
      refine ⟨beq_eq_false_iff_ne.mpr hne, ?_⟩
      simp only [List.contains_eq_mem, List.mem_cons, decide_eq_false_iff_not, not_or] at hrunning ⊢
      exact ⟨hne.symm, hrunning⟩
  case config => exact fun n config hconfig => ⟨hconfig, connectedIn_note _ _⟩
  case paused =>
    intro t
    rw [pausedIn_note, ← hkept.paused t]
    simp only [List.contains_cons, Bool.or_comm, BEq.comm (a := t)]
  all_goals rfl

/-! ## Samples that are collected -/

/-- A state changes, and where it is live it stays fresh. -/
theorem Kept.modify (hkept : Kept s) (i : Nat) (change : State → State)
    (hbounded : (change (s.memory i)).samples.length ≤ 20)
    (hfresh : ∀ twinId n config scope, s.states.get? twinId = some i → s.config = some (n, config) →
      Live s twinId i config scope → (∀ x ∈ (change (s.memory i)).samples, Fresh s.history config scope x) ∧
        ∀ r, (change (s.memory i)).result = some r →
          r.samples ≠ [] ∧ r.sampleCount = r.samples.length ∧ ∀ x ∈ r.samples, Fresh s.history config scope x) :
    Kept (s.modify i change) := by
  have hmemory (j : Nat) : (s.modify i change).memory j = if j = i then change (s.memory i) else s.memory j := by
    simp [Connector.modify, Function.update_apply]
  refine { hkept with live := fun twinId j hstate => ?_, bounded := fun j => ?_ }
  · obtain ⟨n, config, scope, hconfig, hlive⟩ := hkept.live twinId j hstate
    refine ⟨n, config, scope, hconfig, hlive.member, hlive.twin, hlive.active, hlive.running, ?_, ?_⟩
    · rw [hmemory]
      split
      case isTrue h => exact (hfresh twinId n config scope (h ▸ hstate) hconfig (h ▸ hlive)).1
      case isFalse => exact hlive.samples
    · rw [hmemory]
      split
      case isTrue h => exact (hfresh twinId n config scope (h ▸ hstate) hconfig (h ▸ hlive)).2
      case isFalse => exact hlive.result
  · rw [hmemory]
    split
    · exact hbounded
    · exact hkept.bounded j

/-- What a Twin of a running scope has after it was given a state. -/
theorem Kept.ensure (hkept : Kept s) {n : Nat} (hconfig : s.config = some (n, config)) (hscope : scope ∈ config.scopes)
    (hactive : scope.active) (hrunning : s.pausedTenants.contains scope.tenantId = false) :
    ∃ memory allocated states i, s.ensure scope.twinId =
        ({ s with memory := memory, allocated := allocated, states := states }, i) ∧
      states.get? scope.twinId = some i ∧ s.allocated ≤ allocated ∧
      (∀ twinId j, j < s.allocated → states.get? twinId = some j → s.states.get? twinId = some j) ∧
      Kept { s with memory := memory, allocated := allocated, states := states } := by
  unfold Connector.ensure
  cases hstate : s.states.get? scope.twinId with
  | some i => exact ⟨s.memory, s.allocated, s.states, i, rfl, hstate, Nat.le_refl _, fun _ _ _ h => h, hkept⟩
  | none =>
    refine ⟨_, _, _, s.allocated, rfl, by simp, Nat.le_succ _, fun twinId j hj h => ?_, ?_⟩
    · rw [Map.get?_set] at h
      split at h
      · obtain rfl := Option.some.inj h
        exact absurd hj (Nat.lt_irrefl _)
      · exact h
    · have hcases {twinId : String} {i : Nat}
          (h : (s.states.set scope.twinId s.allocated).get? twinId = some i) :
          twinId = scope.twinId ∧ i = s.allocated ∨
            twinId ≠ scope.twinId ∧ s.states.get? twinId = some i ∧ i < s.allocated := by
        rw [Map.get?_set] at h
        split at h
        case isTrue htwin => exact .inl ⟨htwin, (Option.some.inj h).symm⟩
        case isFalse hne => exact .inr ⟨hne, h, hkept.allocated twinId i h⟩
      refine { hkept with live := ?_, allocated := ?_, apart := ?_, bounded := ?_ }
      · intro twinId i h
        rcases hcases h with ⟨rfl, rfl⟩ | ⟨-, h, hlt⟩
        · refine ⟨n, config, scope, hconfig, hscope, rfl, hactive, hrunning, ?_, ?_⟩ <;> simp
        · obtain ⟨m, config', scope', hconfig', hlive⟩ := hkept.live twinId i h
          have hsame : Function.update s.memory s.allocated {} i = s.memory i :=
            Function.update_of_ne (Nat.ne_of_lt hlt) _ _
          refine ⟨m, config', scope', hconfig', hlive.member, hlive.twin, hlive.active, hlive.running, ?_, ?_⟩
          · simpa only [hsame] using hlive.samples
          · simpa only [hsame] using hlive.result
      · intro twinId i h
        rcases hcases h with ⟨-, rfl⟩ | ⟨-, -, hlt⟩
        · exact Nat.lt_succ_self _
        · exact Nat.lt_succ_of_lt hlt
      · intro t u i ht hu
        rcases hcases ht with ⟨rfl, rfl⟩ | ⟨-, ht, hlt⟩
        · rcases hcases hu with ⟨rfl, -⟩ | ⟨-, -, hlt⟩
          · rfl
          · exact absurd hlt (Nat.lt_irrefl _)
        · rcases hcases hu with ⟨-, rfl⟩ | ⟨-, hu, -⟩
          · exact absurd hlt (Nat.lt_irrefl _)
          · exact hkept.apart t u i ht hu
      · intro i
        by_cases hi : i = s.allocated
        · subst hi
          simp
        · show (Function.update s.memory s.allocated {} i).samples.length ≤ 20
          rw [Function.update_of_ne hi]
          exact hkept.bounded i

/-- The samples after one more are old ones or the new one, at most twenty. -/
theorem mem_push {state : State} {clock : Int} {y : Sample} (h : y ∈ (state.push clock x).samples) :
    y ∈ state.samples ∨ y = x := by
  have hmem := List.mem_of_mem_drop h
  simpa using (List.mem_filter.mp hmem).1

theorem length_push (state : State) (clock : Int) (x : Sample) : (state.push clock x).samples.length ≤ 20 := by
  simp only [State.push, List.length_drop]
  omega

theorem withheld_of_empty {state : State} (h : state.samples = []) : s.withheld config state = true := by
  simp [Connector.withheld, h]

/-- What a segment that collects leaves, and its task. -/
def Collected (s s' : Connector) (t' : Task) : Prop :=
  Kept s' ∧ Owns s' t' ∧ ∀ u, Owns s u → Owns s' u ∧ Apart t' u

/-- A request is sent for the state of a Twin. -/
theorem Kept.send (hkept : Kept s) {n i : Nat} (hconfig : s.config = some (n, config)) (hscope : scope ∈ config.scopes)
    (hstate : s.states.get? scope.twinId = some i) (hne : (s.memory i).samples ≠ [])
    (hfew : s.requests.length < 2) : Collected s (s.send n config scope i hne).1 (s.send n config scope i hne).2 := by
  have hlive := hkept.live_scope hstate hconfig hscope rfl
  have hmodify := hkept.modify i (fun state => { state with attemptedAt := some s.clock, busy := true })
    (hkept.bounded i) fun twinId m config' scope' _ _ hlive' => ⟨hlive'.samples, hlive'.result⟩
  have hnew : s.controllers ∉ s.requests := fun hmem => Nat.lt_irrefl _ (hkept.known _ hmem)
  refine ⟨{ hmodify with live := hmodify.live_congr rfl rfl rfl rfl rfl, few := ?_, known := ?_, proper := ?_ }, ?_,
    fun u hu => ?_⟩
  · show (s.requests ++ [s.controllers]).length ≤ 2
    rw [List.length_append, List.length_singleton]
    omega
  · intro c hc
    rcases List.mem_append.mp hc with hc | hc
    · exact Nat.lt_succ_of_lt (hkept.known c hc)
    · obtain rfl := List.mem_singleton.mp hc
      exact Nat.lt_succ_self _
  · intro q hq
    rcases List.mem_append.mp hq with hq | hq
    · exact hkept.proper q hq
    · obtain rfl := List.mem_singleton.mp hq
      have htake : s.history.take s.history.length = s.history := List.take_length
      refine ⟨Nat.le_refl _, ?_, hkept.bounded i, scope, hscope, rfl, rfl, ?_⟩
      · show pausedIn scope.tenantId (s.history.take s.history.length) = false
        rw [htake, ← hkept.paused, hlive.running]
      · show ∀ x ∈ (s.memory i).samples, Fresh (s.history.take s.history.length) config scope x
        rw [htake]
        exact hlive.samples
  · refine ⟨List.mem_append_right _ (List.mem_singleton.mpr rfl), hkept.allocated _ _ hstate,
      (hkept.connected n config hconfig).1, fun config' hconfig' _ scope' hscope' htwin => ?_⟩
    obtain ⟨-, rfl⟩ := Prod.mk.inj (Option.some.inj (hconfig.symm.trans hconfig'))
    obtain rfl := AiConfig.scope_eq hscope' hscope htwin
    exact hlive.samples
  · cases u with
    | idle => exact ⟨trivial, trivial⟩
    | connecting config' => exact ⟨hu, trivial⟩
    | analyzing a =>
      obtain ⟨hrequest, hrest⟩ := hu
      refine ⟨⟨List.mem_append_left _ hrequest, hrest⟩, fun heq => hnew ?_⟩
      change s.controllers = a.controller at heq
      rw [heq]
      exact hrequest

theorem Kept.collect (hkept : Kept s) {n : Nat} (hconfig : s.config = some (n, config))
    (hscope : scope ∈ config.scopes) (hactive : scope.active)
    (hrunning : s.pausedTenants.contains scope.tenantId = false) (hx : Fresh s.history config scope x) :
    Collected s (s.collect n config scope x).1 (s.collect n config scope x).2 := by
  obtain ⟨memory, allocated, states, i, hensure, hstate, hallocated, hstates, hkept'⟩ :=
    hkept.ensure hconfig hscope hactive hrunning
  let s₁ : Connector := { s with memory := memory, allocated := allocated, states := states }
  -- the tasks before know the states that there were
  have howns (u : Task) (hu : Owns s u) : Owns s₁ u := by
    cases u with
    | idle => trivial
    | connecting config' => exact hu
    | analyzing a =>
      obtain ⟨hrequest, hlt, hnumber, hfresh⟩ := hu
      exact ⟨hrequest, Nat.lt_of_lt_of_le hlt hallocated, hnumber,
        fun config' hconfig' hstate' => hfresh config' hconfig' (hstates _ _ hlt hstate')⟩
  have hpushed : Kept (s₁.modify i (·.push s₁.clock x)) := by
    refine hkept'.modify i _ (length_push _ _ _) fun twinId m config' scope' hstate' hconfig' hlive' => ⟨?_, hlive'.result⟩
    intro y hy
    rcases mem_push hy with hy | rfl
    · exact hlive'.samples y hy
    · obtain ⟨-, rfl⟩ := Prod.mk.inj (Option.some.inj (hconfig.symm.trans hconfig'))
      have htwin := hkept'.apart _ _ _ hstate hstate'
      obtain rfl := AiConfig.scope_eq hscope hlive'.member (htwin.trans hlive'.twin.symm)
      exact hx
  unfold Connector.collect
  rw [hensure]
  dsimp only
  split
  case isTrue => exact ⟨hpushed, trivial, fun u hu => ⟨howns u hu, by cases u <;> trivial⟩⟩
  case isFalse hsend =>
    have hfew : s.requests.length < 2 := by
      simp only [Connector.withheld, Bool.or_eq_true, not_or, decide_eq_true_eq, Nat.not_le] at hsend
      exact hsend.1.2
    obtain ⟨hkept'', howns', hothers⟩ := hpushed.send hconfig hscope hstate
      (fun hempty => hsend (withheld_of_empty hempty)) hfew
    exact ⟨hkept'', howns', fun u hu => hothers u (howns u hu)⟩

theorem Reduces.collected {h : Happening} (hreduces : Reduces s s' h) (hkept : Kept s) : Collected s s' .idle :=
  ⟨hreduces.kept hkept, trivial, fun u hu => ⟨hreduces.owns hkept hu, by cases u <;> trivial⟩⟩

/-! ## The segments -/

section
variable [Runtime] (parseUrl : String → Option Url) (environmentKey : Option String) (parse : String → Option Json)

/-- No call of `connect` comes while another one waits, and an encrypted event of a configured Twin comes under the
tenant of its scope. -/
@[local grind] def orderly (s : Connector) : Call → Bool
  | .connect raw => s.connecting == 0 || (configOf parseUrl environmentKey raw).isNone
  | .observe tenantId event => !event.encryption.encrypted ||
      (s.config.elim true fun c => c.2.scopes.all fun scope => scope.twinId != event.twinId || scope.tenantId == tenantId)
  | _ => true

variable {parseUrl environmentKey parse}

theorem Kept.observe (hkept : Kept s) {tenantId : String} {event : TwinRealtimeEvent}
    (horderly : orderly parseUrl environmentKey s (.observe tenantId event)) :
    Collected s (s.observe tenantId event).1 (s.observe tenantId event).2 := by
  -- an event that is not collected: the Twin has no state, or the event is not encrypted
  have hnone (hplain : event.encryption.encrypted = true → s.states.get? event.twinId = none) :
      Collected s (s.note (.observed tenantId event)) .idle :=
    (reduces_observed hkept tenantId (fun _ _ h => h) hplain).collected hkept
  -- the scope of a live Twin is found for its encrypted events
  have hfound {n : Nat} {config : AiConfig} (hconfig : s.config = some (n, config))
      (hencrypted : event.encryption.encrypted = true) {i : Nat} (hstate : s.states.get? event.twinId = some i) :
      ∃ scope, config.scope? tenantId event.twinId = some scope ∧ Live s event.twinId i config scope := by
    obtain ⟨m, config', scope, hconfig', hlive⟩ := hkept.live _ _ hstate
    obtain ⟨rfl, rfl⟩ := Prod.mk.inj (Option.some.inj (hconfig.symm.trans hconfig'))
    simp only [orderly, hencrypted, hconfig, Bool.not_true, Bool.false_or, Option.elim_some, List.all_eq_true,
      Bool.or_eq_true, bne_iff_ne, beq_iff_eq] at horderly
    have htenant : scope.tenantId = tenantId := (horderly scope hlive.member).resolve_left (· hlive.twin)
    cases hscope : config.scope? tenantId event.twinId with
    | none =>
      have hno := List.find?_eq_none.mp hscope scope hlive.member
      simp [htenant, hlive.twin] at hno
    | some scope' =>
      obtain ⟨hmember, -, htwin⟩ := AiConfig.of_scope? hscope
      obtain rfl := AiConfig.scope_eq hmember hlive.member (htwin.trans hlive.twin.symm)
      exact ⟨scope', rfl, hlive⟩
  unfold Connector.observe
  dsimp only [Connector.note]
  split
  case h_1 hconfig => exact hnone fun _ => hkept.offline hconfig _
  case h_2 n config hconfig =>
    split
    case h_1 hscope =>
      refine hnone fun hencrypted => Option.eq_none_iff_forall_ne_some.mpr fun i hstate => ?_
      obtain ⟨scope, hsome, -⟩ := hfound hconfig hencrypted hstate
      rw [hscope] at hsome
      cases hsome
    case h_2 scope hscope =>
      obtain ⟨hmember, rfl, htwin⟩ := AiConfig.of_scope? hscope
      split
      case isTrue hidle =>
        refine hnone fun hencrypted => Option.eq_none_iff_forall_ne_some.mpr fun i hstate => ?_
        obtain ⟨scope', hsome, hlive⟩ := hfound hconfig hencrypted hstate
        obtain rfl := Option.some.inj (hscope.symm.trans hsome)
        simp only [hlive.active, Bool.not_true, Bool.false_or] at hidle
        rw [hlive.running] at hidle
        cases hidle
      case isFalse hrunning =>
        simp only [Bool.or_eq_true, Bool.not_eq_eq_eq_not, Bool.not_true, not_or, Bool.not_eq_false,
          Bool.not_eq_true] at hrunning
        split
        case isTrue =>
          exact (reduces_observed hkept scope.tenantId
            (fun twinId i h => by
              rw [Map.get?_delete] at h
              split at h
              · cases h
              · exact h)
            fun _ => by simp).collected hkept
        case isFalse hplain =>
          split
          case isTrue => exact hnone fun hencrypted => absurd hencrypted hplain
          case isFalse =>
            have hplain' : event.encryption.encrypted = false := Bool.not_eq_true _ ▸ hplain
            have hreduces : Reduces s (s.note (.observed scope.tenantId event)) (.observed scope.tenantId event) :=
              reduces_observed hkept scope.tenantId (fun _ _ h => h) fun hencrypted => absurd hencrypted hplain
            have hfresh := @Fresh.observed s.history config scope event (hkept.connected n config hconfig).2 htwin.symm hplain'
            obtain ⟨hkept', howns', hothers⟩ := (hreduces.kept hkept).collect hconfig hmember hrunning.1 hrunning.2 hfresh
            exact ⟨hkept', howns', fun u hu => hothers u (hreduces.owns hkept hu)⟩

theorem Kept.call (hkept : Kept s) {k : Call} (horderly : orderly parseUrl environmentKey s k)
    (hcall : s.call parseUrl environmentKey k = some (s', t')) : Collected s s' t' := by
  cases k with
  | observe tenantId event =>
    obtain ⟨rfl, rfl⟩ := Prod.mk.inj (Option.some.inj hcall)
    exact hkept.observe horderly
  | setTenantEnabled tenantId enabled =>
    obtain ⟨rfl, rfl⟩ := Prod.mk.inj (Option.some.inj hcall)
    cases enabled with
    | true => exact (reduces_resumed hkept tenantId).collected hkept
    | false => exact (reduces_paused hkept tenantId).collected hkept
  | connect raw =>
    unfold Connector.call at hcall
    dsimp only at hcall
    split at hcall
    case h_1 =>
      obtain ⟨rfl, rfl⟩ := Prod.mk.inj (Option.some.inj hcall)
      exact ⟨hkept, trivial, fun u hu => ⟨hu, by cases u <;> trivial⟩⟩
    case h_2 config hconfig =>
      obtain ⟨rfl, rfl⟩ := Prod.mk.inj (Option.some.inj hcall)
      have hzero : s.connecting = 0 := by
        simpa [orderly, hconfig] using horderly
      obtain ⟨hkept', -, hothers⟩ := (reduces_disconnect hkept).collected hkept
      refine ⟨{ hkept' with live := fun _ _ h => (nomatch h), connecting := fun _ => ⟨rfl, by simp [hzero]⟩ }, ?_, ?_⟩
      · exact Nat.succ_pos _
      · intro u hu
        cases u with
        | idle => exact ⟨trivial, trivial⟩
        | connecting config' =>
          change 0 < s.connecting at hu
          omega
        | analyzing a => exact ⟨(hothers _ hu).1, trivial⟩
  | disconnect =>
    obtain ⟨rfl, rfl⟩ := Prod.mk.inj (Option.some.inj hcall)
    exact (reduces_disconnect hkept).collected hkept

omit [Runtime] in
/-- Nothing but the failure flag depends on what an answer is not taken for. -/
theorem Kept.settle (hkept : Kept s) {a : Analysis} (howns : Owns s (.analyzing a)) (answer : Option (String × String)) :
    Kept (s.settle a answer) ∧ (s.settle a answer).requests = s.requests ∧ ∀ u, Owns s u → Owns (s.settle a answer) u := by
  unfold Connector.settle
  split
  case h_1 answer =>
    split
    case isTrue haccepts =>
      simp only [Connector.accepts, Bool.and_eq_true, beq_iff_eq, Option.any_eq_true] at haccepts
      obtain ⟨⟨⟨⟨n, config⟩, hconfig, hn⟩, hstate⟩, -⟩ := haccepts
      obtain rfl : n = a.number := hn
      have hmodify := hkept.modify a.state (fun state => { state with result := some (s.analysisOf a answer) })
        (hkept.bounded _) fun twinId m config' scope hstate' hconfig' hlive => ?_
      · exact ⟨{ hmodify with live := hmodify.live_congr rfl rfl rfl rfl rfl }, rfl,
          fun u hu => by cases u <;> exact hu⟩
      · refine ⟨hlive.samples, fun r hr => ?_⟩
        obtain rfl := Option.some.inj hr
        obtain rfl := hkept.apart _ _ _ hstate hstate'
        obtain ⟨rfl, rfl⟩ := Prod.mk.inj (Option.some.inj (hconfig.symm.trans hconfig'))
        exact ⟨a.nonempty, rfl, howns.2.2.2 config hconfig hstate scope hlive.member hlive.twin⟩
    case isFalse => exact ⟨hkept, rfl, fun _ hu => hu⟩
  case h_2 =>
    split
    · exact ⟨{ hkept with live := hkept.live_congr rfl rfl rfl rfl rfl }, rfl, fun u hu => by cases u <;> exact hu⟩
    · exact ⟨hkept, rfl, fun _ hu => hu⟩

omit [Runtime] in
theorem Kept.release (hkept : Kept s) (a : Analysis) : Kept (s.release a) ∧
    ∀ u, Owns s u → Apart (.analyzing a) u → Owns (s.release a) u := by
  have hmodify := hkept.modify a.state (fun state => { state with busy := false }) (hkept.bounded _)
    fun twinId m config scope _ _ hlive => ⟨hlive.samples, hlive.result⟩
  refine ⟨{ hmodify with live := hmodify.live_congr rfl rfl rfl rfl rfl, few := ?_, known := ?_ },
    fun u hu hapart => ?_⟩
  · exact (List.length_filter_le _ _).trans hkept.few
  · exact fun c hc => hkept.known c (List.mem_filter.mp hc).1
  · cases u with
    | idle => trivial
    | connecting config => exact hu
    | analyzing b =>
      refine ⟨List.mem_filter.mpr ⟨hu.1, ?_⟩, hu.2⟩
      simpa using Ne.symm hapart

omit [Runtime] in
theorem Kept.resume (hkept : Kept s) (howns : Owns s t) {i : Answer} {others : List Task}
    (hothers : ∀ u ∈ others, Owns s u ∧ Apart t u) (hresume : s.resume parse t i = some (s', t')) :
    Kept s' ∧ Owns s' t' ∧ ∀ u ∈ others, Owns s' u ∧ Apart t' u := by
  unfold Connector.resume at hresume
  split at hresume
  case h_1 config =>
    obtain ⟨rfl, rfl⟩ := Prod.mk.inj (Option.some.inj hresume)
    obtain ⟨hnone, hone⟩ := hkept.connecting howns
    have hoffline (twinId : String) (i : Nat) : s.states.get? twinId ≠ some i := by simp [hkept.offline hnone]
    constructor
    · constructor
      case live => exact fun twinId i hi => absurd hi (hoffline twinId i)
      case allocated => exact fun twinId i hi => absurd hi (hoffline twinId i)
      case apart => exact fun t u i hi => absurd hi (hoffline t i)
      case connected =>
        intro n config' hconfig
        obtain ⟨rfl, rfl⟩ := Prod.mk.inj (Option.some.inj hconfig)
        exact ⟨Nat.lt_succ_self _, connectedIn_note _ _⟩
      case connecting =>
        intro hpos
        change 0 < s.connecting - 1 at hpos
        omega
      case paused =>
        intro t
        show _ = pausedIn t (s.history ++ [_])
        rw [pausedIn_note]
        exact hkept.paused t
      case bounded => exact hkept.bounded
      case few => exact hkept.few
      case known => exact hkept.known
      case proper => exact fun q hq => (hkept.proper q hq).note _
    · refine ⟨trivial, fun u hu => ⟨?_, by cases u <;> trivial⟩⟩
      obtain ⟨howns', hapart⟩ := hothers u hu
      cases u with
      | idle => trivial
      | connecting config' => exact hapart.elim
      | analyzing a =>
        obtain ⟨hrequest, hallocated, hnumber, -⟩ := howns'
        exact ⟨hrequest, hallocated, Nat.lt_succ_of_lt hnumber,
          fun config' _ hstate => absurd hstate (hoffline a.twinId a.state)⟩
  case h_2 a body =>
    obtain ⟨rfl, rfl⟩ := Prod.mk.inj (Option.some.inj hresume)
    obtain ⟨hsettled, -, hothers'⟩ := hkept.settle howns (body.bind (readAnswer parse a.config.provider))
    obtain ⟨hreleased, hothers''⟩ := hsettled.release a
    refine ⟨hreleased, trivial, fun u hu => ⟨?_, by cases u <;> trivial⟩⟩
    obtain ⟨howns', hapart⟩ := hothers u hu
    exact hothers'' u (hothers' u howns') hapart
  case h_3 => cases hresume

omit [Runtime] in
theorem Kept.outside (hkept : Kept s) {e : Outside} (henv : s.outside e = some s') :
    Kept s' ∧ ∀ u, Owns s u → Owns s' u := by
  cases e with
  | elapsed ms =>
    obtain rfl := Option.some.inj henv
    exact ⟨{ hkept with live := hkept.live_congr rfl rfl rfl rfl rfl }, fun u hu => by cases u <;> exact hu⟩
  | timeout controller =>
    obtain rfl := Option.some.inj henv
    exact ⟨{ hkept with live := hkept.live_congr rfl rfl rfl rfl rfl }, fun u hu => by cases u <;> exact hu⟩

variable {clock : Int} {c : Config Connector Task} {es : List (Event Call Answer Outside)}

end

/-! ## Connects that overlap -/

/-- A configuration of the Twin `t` with a field. -/
def sampleRaw (field : String) : Json :=
  .object [("endpoint", .string "https://agent"), ("allowDataSharing", .bool true), ("model", .string "m"),
    ("scopes", .array [.object [("tenantId", .string "a"), ("twinId", .string "t"), ("prompt", .string "p"),
      ("fields", .array [.string field])]])]

def sampleUrl (s : String) : Option Url := some { href := s, protocol := "https:" }

/-- An event of the Twin with a value at the field. -/
def sampleEvent (field : String) : TwinRealtimeEvent :=
  ⟨"t", 0, 0, .object [(field, .number 1)], { encrypted := false }⟩

end Ai
