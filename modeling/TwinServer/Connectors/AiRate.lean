-- SUMMARY: How often requests of a Twin are sent, and how many are in flight, where no state is taken from a busy Twin.
import TwinServer.Connectors.AiFreshness

/-!
# The rate of requests

The time of the last attempt and the mark of a request in flight are kept in the state of a Twin. A pause and an
encrypted event take the state from the Twin and both with it; the next event makes a new state, without either.
-/

open Js Js.Json Realtime Async

namespace Ai

/-! ## The rate -/

namespace Connector

/-- Any two requests of a Twin under one configuration are its interval apart. -/
def Spaced (s : Connector) : Prop :=
  s.sent.Pairwise fun q r => q.twinId = r.twinId → q.number = r.number →
    q.config.intervalMs ≤ ((r.sentAt - q.sentAt : Int) : Dyadic)

/-- The configuration of this number is the connected one. -/
def current (s : Connector) (n : Nat) : Bool := s.config.any (·.1 == n)

/-- A request under the connected configuration that is in flight, or that was sent less than the interval ago. -/
def engages (s : Connector) (q : Request) : Bool :=
  s.current q.number && (s.requests.contains q.controller || ((s.clock - q.sentAt : Int) : Dyadic) < q.config.intervalMs)

/-- No request of the Twin is in flight or was sent less than the interval ago. -/
def quiet (s : Connector) (twinId : String) : Bool := s.sent.all fun q => q.twinId != twinId || !s.engages q

/-- The Twins that a pause or an encrypted event takes the state from. -/
def deletes (s : Connector) : Call → List String
  | .observe tenantId event =>
    if event.encryption.encrypted && s.config.any (fun c => (c.2.scope? tenantId event.twinId).any Scope.active) &&
      !s.pausedTenants.contains tenantId then [event.twinId] else []
  | .setTenantEnabled tenantId false =>
    ((s.config.elim [] fun c => c.2.scopes).filter (·.tenantId == tenantId)).map Scope.twinId
  | _ => []

/-- The call takes no state from a Twin that is not quiet. -/
def spares (s : Connector) (k : Call) : Bool := (s.deletes k).all s.quiet

end Connector

/-- Of one Twin and configuration at most one request is in flight. -/
def OneEach (tasks : List Task) : Prop :=
  tasks.Pairwise fun t u => ∀ a b, t = .analyzing a → u = .analyzing b → a.twinId = b.twinId → a.number ≠ b.number

variable {s s' : Connector} {t t' : Task} {config : AiConfig} {scope : Scope}

theorem Connector.current_iff {n : Nat} : s.current n = true ↔ ∃ config, s.config = some (n, config) := by
  simp only [Connector.current, Option.any_eq_true, beq_iff_eq]
  constructor
  · rintro ⟨⟨m, config⟩, hconfig, rfl⟩
    exact ⟨config, hconfig⟩
  · rintro ⟨config, hconfig⟩
    exact ⟨_, hconfig, rfl⟩

/-- What a quiet Twin says of its requests under the connected configuration. -/
theorem Connector.quiet_spec {twinId : String} (h : s.quiet twinId = true) {q : Request} (hq : q ∈ s.sent)
    (htwin : q.twinId = twinId) (hcurrent : s.current q.number = true) :
    q.controller ∉ s.requests ∧ q.config.intervalMs ≤ ((s.clock - q.sentAt : Int) : Dyadic) := by
  have hq' := List.all_eq_true.mp h q hq
  simp only [htwin, bne_self_eq_false, Bool.false_or, Connector.engages, hcurrent, Bool.true_and,
    Bool.not_eq_eq_eq_not, Bool.not_true, Bool.or_eq_false_iff, List.contains_eq_mem, decide_eq_false_iff_not] at hq'
  exact ⟨hq'.1, Dyadic.not_le.mp hq'.2⟩

/-! ## What is kept -/

/-- The state of the Twin remembers that the request was sent, or its interval has passed. -/
def Remembered (s : Connector) (q : Request) : Prop :=
  (∃ i t, s.states.get? q.twinId = some i ∧ (s.memory i).attemptedAt = some t ∧ q.sentAt ≤ t) ∨
    q.config.intervalMs ≤ ((s.clock - q.sentAt : Int) : Dyadic)

structure Timed (s : Connector) : Prop where
  allocated : ∀ twinId i, s.states.get? twinId = some i → i < s.allocated
  numbered : ∀ n config, s.config = some (n, config) → n < s.configs
  known : ∀ c ∈ s.requests, c < s.controllers
  before : ∀ q ∈ s.sent, q.number < s.configs ∧ q.sentAt ≤ s.clock
  remembered : ∀ q ∈ s.sent, ∀ config, s.config = some (q.number, config) → q.config = config ∧ Remembered s q
  spaced : s.Spaced

/-- A request in flight marks its state, which stays that of the Twin under the configuration. -/
def Marks (s : Connector) : Task → Prop
  | .analyzing a => a.controller ∈ s.requests ∧ a.state < s.allocated ∧ (s.memory a.state).busy = true ∧
      a.number < s.configs ∧ (∃ q ∈ s.sent, q.twinId = a.twinId ∧ q.controller = a.controller ∧ q.number = a.number) ∧
      (s.current a.number = true → s.states.get? a.twinId = some a.state)
  | _ => True

/-- Two requests in flight have different states, and are not of one Twin and configuration. -/
def Distinct : Task → Task → Prop
  | .analyzing a, .analyzing b =>
    a.controller ≠ b.controller ∧ a.state ≠ b.state ∧ (a.twinId = b.twinId → a.number ≠ b.number)
  | _, _ => True

theorem Distinct.symm {t u : Task} (h : Distinct t u) : Distinct u t := by
  cases t <;> cases u <;> first | trivial | exact ⟨h.1.symm, h.2.1.symm, fun htwin => (h.2.2 htwin.symm).symm⟩

/-! ## Segments that send nothing -/

/-- Nothing is sent or ends; marks and attempts stay, and only quiet Twins lose their states. -/
structure Carries (s s' : Connector) : Prop where
  sent : s'.sent = s.sent
  requests : s'.requests = s.requests
  controllers : s'.controllers = s.controllers
  configs : s'.configs = s.configs
  config : ∀ p, s'.config = some p → s.config = some p
  clock : s.clock ≤ s'.clock
  allocated : s.allocated ≤ s'.allocated
  memory : ∀ i < s.allocated, (s'.memory i).attemptedAt = (s.memory i).attemptedAt ∧
    (s'.memory i).busy = (s.memory i).busy
  places : ∀ twinId i, s'.states.get? twinId = some i → i < s'.allocated
  states : ∀ twinId i, s.states.get? twinId = some i →
    s'.config = none ∨ s'.states.get? twinId = some i ∨ s.quiet twinId = true

theorem Carries.current (h : Carries s s') {n : Nat} (hcurrent : s'.current n = true) : s.current n = true := by
  obtain ⟨config, hconfig⟩ := Connector.current_iff.mp hcurrent
  exact Connector.current_iff.mpr ⟨config, h.config _ hconfig⟩

theorem interval_le {x : Dyadic} {m n : Int} (h : x ≤ (m : Dyadic)) (hle : m ≤ n) : x ≤ (n : Dyadic) :=
  Dyadic.le_trans h (Js.Number.intCast_le_intCast.mpr hle)

theorem Carries.timed (h : Carries s s') (htimed : Timed s) : Timed s' where
  allocated := h.places
  numbered n config hconfig := h.configs ▸ htimed.numbered n config (h.config _ hconfig)
  known c hc := h.controllers ▸ htimed.known c (h.requests ▸ hc)
  before q hq := by
    obtain ⟨hnumber, hclock⟩ := htimed.before q (h.sent ▸ hq)
    exact ⟨h.configs ▸ hnumber, Int.le_trans hclock h.clock⟩
  remembered q hq config hconfig := by
    have hq' : q ∈ s.sent := h.sent ▸ hq
    obtain ⟨hsame, hremembered⟩ := htimed.remembered q hq' config (h.config _ hconfig)
    refine ⟨hsame, ?_⟩
    rcases hremembered with ⟨i, t, hstate, hattempt, hle⟩ | hpassed
    · rcases h.states _ _ hstate with hnone | hstate' | hquiet
      · rw [hnone] at hconfig
        cases hconfig
      · refine .inl ⟨i, t, hstate', ?_, hle⟩
        rw [(h.memory i (htimed.allocated _ _ hstate)).1, hattempt]
      · have hcurrent := Connector.current_iff.mpr ⟨config, h.config _ hconfig⟩
        exact .inr (interval_le (Connector.quiet_spec hquiet hq' rfl hcurrent).2 (Int.sub_le_sub_right h.clock _))
    · exact .inr (interval_le hpassed (Int.sub_le_sub_right h.clock _))
  spaced := by
    unfold Connector.Spaced
    rw [h.sent]
    exact htimed.spaced

theorem Carries.marks (h : Carries s s') (hmarks : Marks s t) : Marks s' t := by
  cases t with
  | analyzing a =>
    obtain ⟨hrequest, hallocated, hbusy, hnumber, ⟨q, hq, htwin, hcontroller, hsame⟩, hstate⟩ := hmarks
    refine ⟨h.requests ▸ hrequest, Nat.lt_of_lt_of_le hallocated h.allocated, ?_, h.configs ▸ hnumber,
      ⟨q, h.sent ▸ hq, htwin, hcontroller, hsame⟩, fun hcurrent => ?_⟩
    · rw [(h.memory _ hallocated).2, hbusy]
    · have hcurrent' := h.current hcurrent
      rcases h.states _ _ (hstate hcurrent') with hnone | hkept | hquiet
      · rw [Connector.current, hnone] at hcurrent
        cases hcurrent
      · exact hkept
      · -- the Twin of a request in flight is not quiet
        have hidle := (Connector.quiet_spec hquiet hq htwin (hsame ▸ hcurrent')).1
        exact absurd (hcontroller ▸ hrequest) hidle
  | idle => trivial
  | connecting config => trivial

theorem Timed.carries (h : Timed s) : Carries s s where
  sent := rfl
  requests := rfl
  controllers := rfl
  configs := rfl
  config _ hp := hp
  clock := Int.le_refl _
  allocated := Nat.le_refl _
  memory _ _ := ⟨rfl, rfl⟩
  places := h.allocated
  states _ _ h := .inr (.inl h)

/-- A change of a state that leaves its attempt and its mark. -/
theorem Timed.carries_modify (h : Timed s) (i : Nat) (change : State → State)
    (hattempt : (change (s.memory i)).attemptedAt = (s.memory i).attemptedAt)
    (hbusy : (change (s.memory i)).busy = (s.memory i).busy) : Carries s (s.modify i change) := by
  refine { h.carries with memory := fun j _ => ?_ }
  simp only [Connector.modify, Function.update_apply]
  split
  case isTrue hj =>
    subst hj
    exact ⟨hattempt, hbusy⟩
  case isFalse => exact ⟨rfl, rfl⟩

theorem Timed.carries_ensure (h : Timed s) (twinId : String) :
    Carries s (s.ensure twinId).1 ∧ (s.ensure twinId).1.config = s.config ∧
      (s.ensure twinId).1.states.get? twinId = some (s.ensure twinId).2 := by
  unfold Connector.ensure
  cases hstate : s.states.get? twinId with
  | some i => exact ⟨h.carries, rfl, hstate⟩
  | none =>
    refine ⟨{ h.carries with allocated := Nat.le_succ _, memory := fun i hi => ?_, places := ?_, states := ?_ }, rfl,
      by simp⟩
    · simp only [Function.update_of_ne (Nat.ne_of_lt hi), and_self]
    · intro u i hi
      simp only [Map.get?_set] at hi
      split at hi
      case isTrue => exact Option.some.inj hi ▸ Nat.lt_succ_self _
      case isFalse => exact Nat.lt_succ_of_lt (h.allocated u i hi)
    · intro u i hi
      refine .inr (.inl ?_)
      rw [Map.get?_set, if_neg]
      · exact hi
      · rintro rfl
        rw [hstate] at hi
        cases hi

theorem Timed.carries_observed (h : Timed s) (tenantId : String) (event : TwinRealtimeEvent) :
    Carries s (s.note (.observed tenantId event)) := { h.carries with }

/-- A quiet Twin loses its state. -/
theorem Timed.carries_drop (h : Timed s) {twinId : String} (hquiet : s.quiet twinId = true) :
    Carries s (s.drop twinId) := by
  refine { h.carries with places := fun u i hi => ?_, states := fun u i hi => ?_ }
  · simp only [Connector.drop, Map.get?_delete] at hi
    split at hi
    · cases hi
    · exact h.allocated u i hi
  · by_cases hu : u = twinId
    · exact .inr (.inr (hu ▸ hquiet))
    · exact .inr (.inl (by simpa [Connector.drop, hu] using hi))

/-- A pause of a tenant whose Twins are quiet. -/
theorem Timed.carries_paused (h : Timed s) {tenantId : String} (hspares : s.spares (.setTenantEnabled tenantId false)) :
    Carries s (s.setTenantEnabled tenantId false) := by
  obtain ⟨aborted, states, heq, hstates⟩ := foldl_drop
    ((s.config.elim [] fun c => c.2.scopes).filter (·.tenantId == tenantId))
    { s.note (.paused tenantId) with pausedTenants := tenantId :: s.pausedTenants }
  have hpaused : s.setTenantEnabled tenantId false = { s.note (.paused tenantId) with
      pausedTenants := tenantId :: s.pausedTenants, aborted := aborted, states := states } := heq
  rw [hpaused]
  refine { h.carries with places := fun u i hi => ?_, states := fun u i hi => ?_ }
  · rw [hstates] at hi
    split at hi
    · cases hi
    · exact h.allocated u i hi
  · right
    by_cases hu : u ∈ s.deletes (.setTenantEnabled tenantId false)
    · exact .inr (List.all_eq_true.mp hspares u hu)
    · exact .inl ((hstates u).trans ((if_neg hu).trans hi))

theorem Timed.carries_disconnect (h : Timed s) : Carries s s.disconnect :=
  { h.carries with
    config := fun _ hp => (nomatch hp)
    places := fun _ _ hi => (nomatch hi)
    states := fun _ _ _ => .inl rfl }

/-! ## Requests -/

/-- What a call leaves, and its task. -/
def Sends (s s' : Connector) (t' : Task) : Prop :=
  Timed s' ∧ Marks s' t' ∧ ∀ u, Marks s u → Marks s' u ∧ Distinct t' u

theorem Carries.sends (h : Carries s s') (htimed : Timed s) : Sends s s' .idle :=
  ⟨h.timed htimed, trivial, fun u hu => ⟨h.marks hu, by cases u <;> trivial⟩⟩

theorem Sends.after {s₁ : Connector} (hsends : Sends s₁ s' t') (h : Carries s s₁) : Sends s s' t' :=
  ⟨hsends.1, hsends.2.1, fun u hu => hsends.2.2 u (h.marks hu)⟩

/-- A request is sent for a Twin that is not withheld. -/
theorem Timed.send (htimed : Timed s) {n i : Nat} (hconfig : s.config = some (n, config))
    (hstate : s.states.get? scope.twinId = some i) (hne : (s.memory i).samples ≠ [])
    (hnot : s.withheld config (s.memory i) = false) :
    Sends s (s.send n config scope i hne).1 (s.send n config scope i hne).2 := by
  simp only [Connector.withheld, Bool.or_eq_false_iff] at hnot
  obtain ⟨⟨⟨-, hidle⟩, -⟩, hpassed⟩ := hnot
  have hmemory (j : Nat) : (s.send n config scope i hne).1.memory j =
      if j = i then { s.memory i with attemptedAt := some s.clock, busy := true } else s.memory j := by
    simp [Connector.send, Connector.modify, Function.update_apply]
  -- the requests of the Twin before are an interval ago
  have hago (q : Request) (hq : q ∈ s.sent) (htwin : q.twinId = scope.twinId) (hnumber : q.number = n) :
      q.config.intervalMs ≤ ((s.clock - q.sentAt : Int) : Dyadic) := by
    obtain ⟨rfl, hremembered⟩ := htimed.remembered q hq config (hnumber ▸ hconfig)
    rcases hremembered with ⟨j, t, hstate', hattempt, hle⟩ | hago
    · rw [htwin, hstate] at hstate'
      obtain rfl := Option.some.inj hstate'
      rw [hattempt] at hpassed
      exact interval_le (Dyadic.not_le.mp (of_decide_eq_false hpassed)) (Int.sub_le_sub_left hle _)
    · exact hago
  have hnumbered := htimed.numbered n config hconfig
  refine ⟨?_, ?_, fun u hu => ?_⟩
  · refine { htimed with known := fun c hc => ?_, before := fun q hq => ?_, remembered := fun q hq config' hconfig' => ?_
                         spaced := ?_ }
    · rcases List.mem_append.mp hc with hc | hc
      · exact Nat.lt_succ_of_lt (htimed.known c hc)
      · exact List.mem_singleton.mp hc ▸ Nat.lt_succ_self _
    · rcases List.mem_append.mp hq with hq | hq
      · exact htimed.before q hq
      · obtain rfl := List.mem_singleton.mp hq
        exact ⟨hnumbered, Int.le_refl _⟩
    · rcases List.mem_append.mp hq with hq | hq
      · obtain ⟨hsame, hremembered⟩ := htimed.remembered q hq config' hconfig'
        refine ⟨hsame, ?_⟩
        rcases hremembered with ⟨j, t, hstate', hattempt, hle⟩ | hago
        · by_cases hj : j = i
          · refine .inl ⟨j, s.clock, hstate', ?_, (htimed.before q hq).2⟩
            rw [hmemory, if_pos hj]
          · refine .inl ⟨j, t, hstate', ?_, hle⟩
            rw [hmemory, if_neg hj, hattempt]
        · exact .inr hago
      · obtain rfl := List.mem_singleton.mp hq
        obtain ⟨-, rfl⟩ := Prod.mk.inj (Option.some.inj (hconfig.symm.trans hconfig'))
        refine ⟨rfl, .inl ⟨i, s.clock, hstate, ?_, Int.le_refl _⟩⟩
        rw [hmemory, if_pos rfl]
    · refine List.pairwise_append.mpr ⟨htimed.spaced, List.pairwise_singleton .., fun q hq r hr => ?_⟩
      obtain rfl := List.mem_singleton.mp hr
      exact hago q hq
  · refine ⟨List.mem_append_right _ (List.mem_singleton.mpr rfl), htimed.allocated _ _ hstate, ?_, hnumbered,
      ⟨_, List.mem_append_right _ (List.mem_singleton.mpr rfl), rfl, rfl, rfl⟩, fun _ => hstate⟩
    exact (congrArg State.busy (hmemory i)).trans (by rw [if_pos rfl])
  · cases u with
    | idle => exact ⟨trivial, trivial⟩
    | connecting config' => exact ⟨trivial, trivial⟩
    | analyzing a =>
      obtain ⟨hrequest, hallocated, hbusy, hnumber, ⟨q, hq, hsame⟩, hplace⟩ := hu
      -- the state of the other is marked
      have hother : i ≠ a.state := by
        rintro rfl
        rw [hbusy] at hidle
        cases hidle
      refine ⟨⟨List.mem_append_left _ hrequest, hallocated, ?_, hnumber, ⟨q, List.mem_append_left _ hq, hsame⟩, hplace⟩,
        (Nat.ne_of_lt (htimed.known _ hrequest)).symm, hother, fun htwin heq => ?_⟩
      · rw [hmemory]
        split
        · rfl
        · exact hbusy
      · have hstate' := hplace (Connector.current_iff.mpr ⟨config, heq ▸ hconfig⟩)
        rw [← htwin] at hstate'
        exact hother (Option.some.inj (hstate.symm.trans hstate'))

theorem Timed.collect (htimed : Timed s) {n : Nat} (hconfig : s.config = some (n, config)) (x : Sample) :
    Sends s (s.collect n config scope x).1 (s.collect n config scope x).2 := by
  obtain ⟨hcarries, hsame, hstate⟩ := htimed.carries_ensure scope.twinId
  unfold Connector.collect
  generalize s.ensure scope.twinId = r at hcarries hsame hstate ⊢
  obtain ⟨s₁, i⟩ := r
  have htimed₁ := hcarries.timed htimed
  have hpush := htimed₁.carries_modify i (·.push s₁.clock x) rfl rfl
  have htimed₂ := hpush.timed htimed₁
  dsimp only
  split
  case isTrue => exact ((hpush.sends htimed₁).after hcarries)
  case isFalse hnot =>
    exact ((htimed₂.send (hsame.trans hconfig) hstate (fun hempty => hnot (withheld_of_empty hempty))
      (Bool.not_eq_true _ ▸ hnot)).after hpush).after hcarries

/-! ## The segments -/

section
variable [Runtime] {parseUrl : String → Option Url} {environmentKey : Option String} {parse : String → Option Json}

omit [Runtime] in
theorem Timed.observe (htimed : Timed s) {tenantId : String} {event : TwinRealtimeEvent}
    (hspares : s.spares (.observe tenantId event)) :
    Sends s (s.observe tenantId event).1 (s.observe tenantId event).2 := by
  have hnoted := htimed.carries_observed tenantId event
  have htimed' := hnoted.timed htimed
  unfold Connector.observe
  dsimp only
  split
  case h_1 => exact hnoted.sends htimed
  case h_2 n config hconfig =>
    split
    case h_1 => exact hnoted.sends htimed
    case h_2 scope hscope =>
      split
      case isTrue => exact hnoted.sends htimed
      case isFalse hrunning =>
        split
        case isTrue hencrypted =>
          simp only [Bool.or_eq_true, Bool.not_eq_eq_eq_not, Bool.not_true, not_or, Bool.not_eq_false,
            Bool.not_eq_true] at hrunning
          have hquiet : s.quiet event.twinId = true := by
            refine List.all_eq_true.mp hspares _ ?_
            have hconfig' : s.config = some (n, config) := hconfig
            have hpaused : s.pausedTenants.contains tenantId = false := hrunning.2
            simp only [Connector.deletes, hencrypted, hconfig', Option.any_some, hscope, hrunning.1, hpaused,
              Bool.not_false, Bool.and_self, if_pos, List.mem_singleton]
          exact ((htimed'.carries_drop hquiet).sends htimed').after hnoted
        case isFalse =>
          split
          case isTrue => exact hnoted.sends htimed
          case isFalse => exact (htimed'.collect hconfig _).after hnoted

theorem Timed.call (htimed : Timed s) {k : Call} (hspares : s.spares k)
    (hcall : s.call parseUrl environmentKey k = some (s', t')) : Sends s s' t' := by
  cases k with
  | observe tenantId event =>
    obtain ⟨rfl, rfl⟩ := Prod.mk.inj (Option.some.inj hcall)
    exact htimed.observe hspares
  | setTenantEnabled tenantId enabled =>
    obtain ⟨rfl, rfl⟩ := Prod.mk.inj (Option.some.inj hcall)
    cases enabled with
    | true => exact (show Carries s (s.setTenantEnabled tenantId true) from { htimed.carries with }).sends htimed
    | false => exact (htimed.carries_paused hspares).sends htimed
  | connect raw =>
    unfold Connector.call at hcall
    dsimp only at hcall
    split at hcall
    case h_1 =>
      obtain ⟨rfl, rfl⟩ := Prod.mk.inj (Option.some.inj hcall)
      exact htimed.carries.sends htimed
    case h_2 config hconfig =>
      obtain ⟨rfl, rfl⟩ := Prod.mk.inj (Option.some.inj hcall)
      have hcarries : Carries s { s.disconnect with connecting := s.connecting + 1 } :=
        { htimed.carries_disconnect with }
      exact ⟨hcarries.timed htimed, trivial, fun u hu => ⟨hcarries.marks hu, by cases u <;> trivial⟩⟩
  | disconnect =>
    obtain ⟨rfl, rfl⟩ := Prod.mk.inj (Option.some.inj hcall)
    exact htimed.carries_disconnect.sends htimed

omit [Runtime] in
theorem Timed.carries_settle (htimed : Timed s) (a : Analysis) (answer : Option (String × String)) :
    Carries s (s.settle a answer) := by
  unfold Connector.settle
  split
  case h_1 answer =>
    split
    · exact { htimed.carries_modify a.state (fun state => { state with result := some (s.analysisOf a answer) }) rfl rfl
        with }
    · exact htimed.carries
  case h_2 =>
    split
    · exact { htimed.carries with }
    · exact htimed.carries

omit [Runtime] in
/-- A request ends: its state is no longer marked, and those of the others are. -/
theorem Timed.release (htimed : Timed s) (a : Analysis) : Timed (s.release a) ∧
    ∀ u, Marks s u → Distinct (.analyzing a) u → Marks (s.release a) u := by
  have hmemory (j : Nat) : (s.release a).memory j =
      if j = a.state then { s.memory a.state with busy := false } else s.memory j := by
    simp [Connector.release, Connector.modify, Function.update_apply]
  constructor
  · refine { htimed with known := fun c hc => htimed.known c (List.mem_filter.mp hc).1
                         remembered := fun q hq config hconfig => ?_ }
    obtain ⟨hsame, hremembered⟩ := htimed.remembered q hq config hconfig
    refine ⟨hsame, ?_⟩
    rcases hremembered with ⟨i, t, hstate, hattempt, hle⟩ | hago
    · refine .inl ⟨i, t, hstate, ?_, hle⟩
      rw [hmemory]
      split
      case isTrue hi => exact hi ▸ hattempt
      case isFalse => exact hattempt
    · exact .inr hago
  · intro u hu hdistinct
    cases u with
    | idle => trivial
    | connecting config => trivial
    | analyzing b =>
      obtain ⟨hrequest, hallocated, hbusy, hrest⟩ := hu
      refine ⟨List.mem_filter.mpr ⟨hrequest, by simpa using hdistinct.1.symm⟩, hallocated, ?_, hrest⟩
      rw [hmemory, if_neg hdistinct.2.1.symm, hbusy]

omit [Runtime] in
theorem Timed.resume (htimed : Timed s) {i : Answer} {others : List Task}
    (hothers : ∀ u ∈ others, Marks s u ∧ Distinct t u) (hresume : s.resume parse t i = some (s', t')) :
    Timed s' ∧ Marks s' t' ∧ ∀ u ∈ others, Marks s' u ∧ Distinct t' u := by
  unfold Connector.resume at hresume
  split at hresume
  case h_1 config =>
    obtain ⟨rfl, rfl⟩ := Prod.mk.inj (Option.some.inj hresume)
    refine ⟨{ htimed with numbered := ?_, before := ?_, remembered := ?_ }, trivial,
      fun u hu => ⟨?_, by cases u <;> trivial⟩⟩
    · intro n config' hconfig
      obtain ⟨rfl, -⟩ := Prod.mk.inj (Option.some.inj hconfig)
      exact Nat.lt_succ_self _
    · exact fun q hq => (htimed.before q hq).imp_left Nat.lt_succ_of_lt
    · -- the number of the configuration is new
      intro q hq config' hconfig
      obtain ⟨heq, -⟩ := Prod.mk.inj (Option.some.inj hconfig)
      exact absurd heq (Nat.ne_of_gt (htimed.before q hq).1)
    · have hmarks := (hothers u hu).1
      cases u with
      | idle => trivial
      | connecting config' => trivial
      | analyzing a =>
        obtain ⟨hrequest, hallocated, hbusy, hnumber, hsent, -⟩ := hmarks
        refine ⟨hrequest, hallocated, hbusy, Nat.lt_succ_of_lt hnumber, hsent, fun hcurrent => ?_⟩
        obtain ⟨config', hconfig⟩ := Connector.current_iff.mp hcurrent
        obtain ⟨heq, -⟩ := Prod.mk.inj (Option.some.inj hconfig)
        exact absurd heq (Nat.ne_of_gt hnumber)
  case h_2 a body =>
    obtain ⟨rfl, rfl⟩ := Prod.mk.inj (Option.some.inj hresume)
    have hsettled := htimed.carries_settle a (body.bind (readAnswer parse a.config.provider))
    obtain ⟨hreleased, hkept⟩ := (hsettled.timed htimed).release a
    refine ⟨hreleased, trivial, fun u hu => ⟨?_, by cases u <;> trivial⟩⟩
    obtain ⟨hmarks, hdistinct⟩ := hothers u hu
    exact hkept u (hsettled.marks hmarks) hdistinct
  case h_3 => cases hresume

omit [Runtime] in
theorem Timed.carries_outside (htimed : Timed s) {e : Outside} (henv : s.outside e = some s') : Carries s s' := by
  cases e with
  | elapsed ms =>
    obtain rfl := Option.some.inj henv
    exact { htimed.carries with clock := Int.le_add_of_nonneg_right (Int.natCast_nonneg ms) }
  | timeout controller =>
    obtain rfl := Option.some.inj henv
    exact { htimed.carries with }

theorem timed_modular : Modular ((connector parseUrl environmentKey parse).allowing Connector.spares)
    Guard.any Timed Marks Distinct where
  symm := Distinct.symm
  call htimed hcall := by
    obtain ⟨hspares, hcall⟩ := Machine.call_allowing hcall
    exact htimed.call hspares hcall
  resume htimed _ hothers _ hresume := htimed.resume hothers hresume
  env htimed henv :=
    have hcarries := htimed.carries_outside henv
    ⟨hcarries.timed htimed, fun _ hu => hcarries.marks hu⟩

/-! ## Whole runs -/

omit [Runtime] in
theorem timed_initial (clock : Int) : Timed { clock := clock } where
  allocated _ _ h := nomatch h
  numbered _ _ h := nomatch h
  known _ h := nomatch h
  before _ h := nomatch h
  remembered _ h := nomatch h
  spaced := List.Pairwise.nil

variable {clock : Int} {c : Config Connector Task} {es : List (Event Call Answer Outside)}

/-- In runs where pauses and encrypted events find the Twins quiet, the requests of a Twin are an interval apart, and
at most one is in flight. -/
theorem requests_spaced
    (hcalls : (connector parseUrl environmentKey parse).Calls Connector.spares ⟨{ clock := clock }, []⟩ es)
    (hrun : (connector parseUrl environmentKey parse).run ⟨{ clock := clock }, []⟩ es = some c) :
    c.shared.Spaced ∧ OneEach c.tasks := by
  have hholds := timed_modular.run (Holds.init (timed_initial clock)) (Machine.meets_any _ _ _)
    (Machine.run_allowing _ hcalls hrun)
  refine ⟨hholds.shared.spaced, hholds.pairs.imp fun hdistinct a b ha hb => ?_⟩
  subst ha hb
  exact hdistinct.2.2

end

/-! ## Encrypted events -/

/-- Two requests of a Twin with a minute between them, and an encrypted event when it is over. -/
def spacedRun : List (Event Call Answer Outside) :=
  [.call (.connect (sampleRaw "v")), .resume 0 .disconnected, .call (.observe "a" (sampleEvent "v")),
    .resume 1 (.response none), .env (.elapsed 60000),
    .call (.observe "a" { sampleEvent "v" with encryption := { encrypted := true } }),
    .call (.observe "a" (sampleEvent "v"))]

theorem requests_spaced_sample : let _ : Runtime := .ascii
    ∃ c, (connector sampleUrl none (fun _ => none)).run ⟨{ clock := 0 }, []⟩ spacedRun = some c ∧
      c.shared.sent.length = 2 ∧ c.shared.Spaced := by
  intro _
  have hcalls : (connector sampleUrl none fun _ => none).Calls Connector.spares ⟨{ clock := 0 }, []⟩ spacedRun :=
    Machine.calls_of_run rfl
  exact ⟨_, rfl, rfl, (requests_spaced hcalls rfl).1⟩

/-- An event, an encrypted one, and an event: a second request while the first is in flight. -/
def multipliedRun : List (Event Call Answer Outside) :=
  [.call (.connect (sampleRaw "v")), .resume 0 .disconnected, .call (.observe "a" (sampleEvent "v")),
    .call (.observe "a" { sampleEvent "v" with encryption := { encrypted := true } }),
    .call (.observe "a" (sampleEvent "v"))]

theorem multiplied_requests : let _ : Runtime := .ascii
    ∃ c, (connector sampleUrl none (fun _ => none)).run ⟨{ clock := 0 }, []⟩ multipliedRun = some c ∧
      ¬ c.shared.Spaced ∧ ¬ OneEach c.tasks := by
  intro _
  refine ⟨_, rfl, fun hspaced => ?_, fun hone => ?_⟩
  · have hpair := (List.pairwise_cons.mp hspaced).1 _ (List.mem_cons_self ..) rfl rfl
    exact absurd hpair (by decide)
  · have hrest := (List.pairwise_cons.mp (List.pairwise_cons.mp hone).2).1
    exact hrest _ (List.mem_cons_of_mem _ (List.mem_cons_self ..)) _ _ rfl rfl rfl rfl

end Ai
