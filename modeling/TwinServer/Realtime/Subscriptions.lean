-- SUMMARY: The subscriptions of the hub as sets that closures refer to, and when a publish invokes those that stand.
import TwinServer.Base.Map
import TwinServer.Realtime.Hub
import TwinServer.Realtime.Position
import Mathlib.Data.List.Induction
import Mathlib.Data.List.Nodup
import Mathlib.Logic.Function.Basic

/-!
# Subscriptions

`subscribe` and `publish` of `src/realtime/hub.ts`. What `subscribe` returns refers to the set of subscribers
that the Twin had at the time; the map of the hub may refer to another one when the function is called. A
subscriber hands the event on and returns, so that every member of the set is invoked.
-/

open Js

namespace Realtime

structure MappedMqttMessage where
  twinId : Option String
  value : Json
  observedAt : Number

/-- What `publish` throws. -/
inductive PublishError where
  | unmapped (message : String)
  | position (thrown : Thrown)

/-- The sets live in a heap, which counts those that were made; one that was not made yet is empty. -/
structure Hub (σ : Type) where
  latestEvents : Map TwinRealtimeEvent
  sets : Nat → List σ
  made : Nat
  subscribers : Map Nat

/-- The function that `subscribe` returns, by the variables it closes over. -/
structure Subscription (σ : Type) where
  twinId : String
  subscriber : σ
  current : Nat

namespace Hub

variable {σ : Type}

def new : Hub σ := ⟨.empty, fun _ => [], 0, .empty⟩

/-- `this.subscribers.get(twinId) ?? []`. -/
def audience (hub : Hub σ) (twinId : String) : List σ := (hub.subscribers.get? twinId).elim [] hub.sets

/-- What `publish` returns, and whom it invokes on the way. -/
structure Published (σ : Type) where
  hub : Hub σ
  event : TwinRealtimeEvent
  invoked : List σ

def publish [Runtime] (measures : Measures) (hub : Hub σ) (message : MappedMqttMessage) (receivedAt : Number) :
    Except PublishError (Published σ) := do
  let event := published (message.twinId.getD "") message.value message.observedAt receivedAt
  if event.twinId = "" then throw (.unmapped "Realtime messages require a mapped Twin ID")
  let _ ← (positionFromPayload measures message.value message.observedAt).mapError .position
  return { hub := { hub with latestEvents := hub.latestEvents.set event.twinId event }
           event
           invoked := hub.audience event.twinId }

variable [DecidableEq σ]

/-- `set.add(subscriber)`. -/
def add (set : List σ) (subscriber : σ) : List σ := if subscriber ∈ set then set else set ++ [subscriber]

/-- `this.subscribers.get(twinId) ?? new Set()`, by its reference. -/
def currentSet (hub : Hub σ) (twinId : String) : Hub σ × Nat :=
  match hub.subscribers.get? twinId with
  | some current => (hub, current)
  | none => ({ hub with made := hub.made + 1 }, hub.made)

def subscribe (hub : Hub σ) (twinId : String) (subscriber : σ) : Hub σ × Subscription σ :=
  let (hub, current) := hub.currentSet twinId
  ({ hub with
      sets := Function.update hub.sets current (add (hub.sets current) subscriber)
      subscribers := hub.subscribers.set twinId current },
    ⟨twinId, subscriber, current⟩)

/-- A call of what `subscribe` returned. -/
def unsubscribe (hub : Hub σ) (subscription : Subscription σ) : Hub σ :=
  let rest := (hub.sets subscription.current).filter (· ≠ subscription.subscriber)
  { hub with
    sets := Function.update hub.sets subscription.current rest
    subscribers := if rest.isEmpty then hub.subscribers.delete subscription.twinId else hub.subscribers }

end Hub

/-! ## Runs -/

/-- The hub, what its calls of `subscribe` returned, in order, and which of these have been called. -/
structure World (σ : Type) where
  hub : Hub σ
  subscriptions : List (Subscription σ)
  ended : List Nat

inductive Call (σ : Type) where
  | subscribe (twinId : String) (subscriber : σ)
  | publish (message : MappedMqttMessage) (receivedAt : Number)
  | unsubscribe (k : Nat)

namespace World

variable {σ : Type}

def start : World σ := ⟨.new, [], []⟩

/-- The subscriber was subscribed to the Twin by a call whose own function has not been called. -/
def Subscribed (w : World σ) (twinId : String) (subscriber : σ) : Prop :=
  ∃ k current, w.subscriptions[k]? = some ⟨twinId, subscriber, current⟩ ∧ k ∉ w.ended

/-- A publish invokes the subscribers of the Twin, each once. -/
def Delivers [Runtime] (measures : Measures) (w : World σ) : Prop :=
  ∀ message receivedAt result, w.hub.publish measures message receivedAt = .ok result →
    result.invoked.Nodup ∧ ∀ f, f ∈ result.invoked ↔ w.Subscribed result.event.twinId f

variable [DecidableEq σ]

def subscribe (w : World σ) (twinId : String) (subscriber : σ) : World σ :=
  let (hub, subscription) := w.hub.subscribe twinId subscriber
  { w with hub, subscriptions := w.subscriptions ++ [subscription] }

/-- There is nothing to call before it was returned. -/
def unsubscribe (w : World σ) (k : Nat) : World σ :=
  match w.subscriptions[k]? with
  | some subscription => { w with hub := w.hub.unsubscribe subscription, ended := k :: w.ended }
  | none => w

/-- A publish that throws changes nothing. -/
@[local grind] def step [Runtime] (measures : Measures) (w : World σ) : Call σ → World σ
  | .subscribe twinId subscriber => w.subscribe twinId subscriber
  | .publish message receivedAt =>
    match w.hub.publish measures message receivedAt with
    | .ok result => { w with hub := result.hub }
    | .error _ => w
  | .unsubscribe k => w.unsubscribe k

def after [Runtime] (measures : Measures) (calls : List (Call σ)) : World σ := calls.foldl (step measures) start

end World

/-! ## Publishing -/

/-- An id that messages are published under. -/
def Publishable (twinId : String) : Prop := twinId ≠ "" ∧ ∃ text, trim text = twinId

namespace Hub

variable {σ : Type} {hub : Hub σ} {twinId : String}

theorem audience_of_some {current : Nat} (h : hub.subscribers.get? twinId = some current) :
    hub.audience twinId = hub.sets current := by
  rw [audience, h, Option.elim_some]

theorem audience_of_none (h : hub.subscribers.get? twinId = none) : hub.audience twinId = [] := by
  rw [audience, h, Option.elim_none]

variable [Runtime] {measures : Measures}

/-- An event is published to the audience of its Twin, and only the latest events change. -/
theorem publish_ok {message : MappedMqttMessage} {receivedAt : Number} {result : Published σ}
    (h : hub.publish measures message receivedAt = .ok result) :
    Publishable result.event.twinId ∧ result.event.twinId = trim (message.twinId.getD "") ∧
      result.invoked = hub.audience result.event.twinId ∧
      result.hub = { hub with latestEvents := result.hub.latestEvents } := by
  simp only [Hub.publish] at h
  split at h
  · cases h
  · rename_i hid
    cases hposition : positionFromPayload measures message.value message.observedAt with
    | error thrown =>
        rw [hposition] at h
        cases h
    | ok position =>
        rw [hposition] at h
        cases h
        exact ⟨⟨hid, _, rfl⟩, rfl, rfl, rfl⟩

/-- Every such id has a message that is published under it. -/
theorem exists_publish (measures : Measures) (hub : Hub σ) (h : Publishable twinId) (receivedAt : Number) :
    ∃ message result, hub.publish measures message receivedAt = .ok result ∧ result.event.twinId = twinId := by
  obtain ⟨hne, text, rfl⟩ := h
  have hid : ¬ (published text .null 0 receivedAt).twinId = "" := hne
  have hpublish : hub.publish measures ⟨some text, .null, 0⟩ receivedAt = .ok
      { hub := { hub with latestEvents := hub.latestEvents.set (trim text) (published text .null 0 receivedAt) }
        event := published text .null 0 receivedAt
        invoked := hub.audience (trim text) } := by
    simp only [Hub.publish, Option.getD_some, if_neg hid]
    rfl
  exact ⟨_, _, hpublish, rfl⟩

end Hub

namespace World

variable {σ : Type} {w : World σ} {twinId : String}

theorem delivers_iff [Runtime] {measures : Measures} :
    w.Delivers measures ↔ ∀ twinId, Publishable twinId → (w.hub.audience twinId).Nodup ∧
      ∀ f, f ∈ w.hub.audience twinId ↔ w.Subscribed twinId f := by
  constructor
  · intro h twinId hid
    obtain ⟨message, result, hresult, rfl⟩ := Hub.exists_publish measures w.hub hid 0
    have hdelivered := h message 0 result hresult
    rwa [(Hub.publish_ok hresult).2.2.1] at hdelivered
  · intro h message receivedAt result hresult
    obtain ⟨hid, -, hinvoked, -⟩ := Hub.publish_ok hresult
    rw [hinvoked]
    exact h _ hid

/-! ## The invariant -/

/-- Every set belongs to one Twin: the map and the subscriptions of different Twins refer to different sets. -/
structure Apart (w : World σ) (owner : Nat → String) : Prop where
  mapped : ∀ {twinId current}, w.hub.subscribers.get? twinId = some current →
    current < w.hub.made ∧ owner current = twinId
  returned : ∀ s ∈ w.subscriptions, s.current < w.hub.made ∧ owner s.current = s.twinId
  unmade : ∀ current, w.hub.made ≤ current → w.hub.sets current = []
  nodup : ∀ current, (w.hub.sets current).Nodup
  ended : ∀ k ∈ w.ended, k < w.subscriptions.length

/-- What the hub holds for a Twin while no call of an unsubscribe function has gone wrong for it. -/
structure Faithful (w : World σ) (twinId : String) : Prop where
  live : ∀ f, f ∈ w.hub.audience twinId ↔ w.Subscribed twinId f
  occupied : ∀ current, w.hub.subscribers.get? twinId = some current → w.hub.sets current ≠ []
  /-- A subscription that stands refers to the set of the map. -/
  standing : ∀ {k s}, w.subscriptions[k]? = some s → s.twinId = twinId → k ∉ w.ended →
    w.hub.subscribers.get? twinId = some s.current
  /-- A set that the map has dropped is empty. -/
  stale : ∀ s ∈ w.subscriptions, s.twinId = twinId → w.hub.subscribers.get? twinId ≠ some s.current →
    w.hub.sets s.current = []

variable {owner : Nat → String}

theorem Apart.nodup_audience (ha : w.Apart owner) (twinId : String) : (w.hub.audience twinId).Nodup := by
  cases h : w.hub.subscribers.get? twinId with
  | none => rw [Hub.audience_of_none h]; exact List.nodup_nil
  | some current => rw [Hub.audience_of_some h]; exact ha.nodup current

theorem apart_start : (start : World σ).Apart fun _ => "" where
  mapped h := by cases h
  returned s h := by cases h
  unmade current _ := rfl
  nodup current := List.nodup_nil
  ended k h := by cases h

theorem faithful_start (twinId : String) : (start : World σ).Faithful twinId where
  live f := by simp [start, Hub.new, Hub.audience, Subscribed, Map.empty, Map.get?, Record.get?]
  occupied current h := by cases h
  standing h := by simp [start] at h
  stale s h := by cases h

/-- What happens at the sets of other Twins is nothing to a Twin. -/
theorem Faithful.of_same {v : World σ} (hf : w.Faithful twinId)
    (hget : v.hub.subscribers.get? twinId = w.hub.subscribers.get? twinId)
    (hsets : ∀ current, owner current = twinId → current < w.hub.made → v.hub.sets current = w.hub.sets current)
    (hsubscriptions : ∀ (k : Nat) (s : Subscription σ), s.twinId = twinId →
      (v.subscriptions[k]? = some s ↔ w.subscriptions[k]? = some s))
    (hended : ∀ (k : Nat) (s : Subscription σ), w.subscriptions[k]? = some s → s.twinId = twinId →
      (k ∈ v.ended ↔ k ∈ w.ended))
    (ha : w.Apart owner) : v.Faithful twinId where
  live f := by
    have haudience : v.hub.audience twinId = w.hub.audience twinId := by
      cases h : w.hub.subscribers.get? twinId with
      | none => rw [Hub.audience_of_none h, Hub.audience_of_none (hget.trans h)]
      | some current =>
          obtain ⟨hlt, howner⟩ := ha.mapped h
          rw [Hub.audience_of_some h, Hub.audience_of_some (hget.trans h), hsets current howner hlt]
    rw [haudience, hf.live]
    refine exists_congr fun k => exists_congr fun current => ?_
    constructor
    · rintro ⟨hk, hnot⟩
      exact ⟨(hsubscriptions k _ rfl).mpr hk, fun h => hnot ((hended k _ hk rfl).mp h)⟩
    · rintro ⟨hk, hnot⟩
      have hk' := (hsubscriptions k _ rfl).mp hk
      exact ⟨hk', fun h => hnot ((hended k _ hk' rfl).mpr h)⟩
  occupied current h := by
    rw [hget] at h
    obtain ⟨hlt, howner⟩ := ha.mapped h
    rw [hsets current howner hlt]
    exact hf.occupied current h
  standing {k s} hk hs hnot := by
    rw [hget]
    have hk' := (hsubscriptions k s hs).mp hk
    exact hf.standing hk' hs fun hmem => hnot ((hended k s hk' hs).mpr hmem)
  stale s hmem hs hne := by
    obtain ⟨k, hk⟩ := List.getElem?_of_mem hmem
    have hmem' := List.mem_of_getElem? ((hsubscriptions k s hs).mp hk)
    obtain ⟨hlt, howner⟩ := ha.returned s hmem'
    rw [hsets s.current (howner.trans hs) hlt]
    exact hf.stale s hmem' hs (hget ▸ hne)

variable [DecidableEq σ]

/-! ## Subscribing -/

theorem mem_add {set : List σ} {f g : σ} : g ∈ Hub.add set f ↔ g ∈ set ∨ g = f := by
  unfold Hub.add
  split
  · constructor
    · exact .inl
    · rintro (h | rfl) <;> assumption
  · rw [List.mem_append, List.mem_singleton]

theorem nodup_add {set : List σ} {f : σ} (h : set.Nodup) : (Hub.add set f).Nodup := by
  unfold Hub.add
  split
  · exact h
  · rename_i hf
    exact List.nodup_append.mpr ⟨h, List.nodup_singleton f, by simpa using fun g hg => ne_of_mem_of_not_mem hg hf⟩

/-- What a subscription to the Twin makes of the world when it takes the set `current`: that of the map, or a
new one. -/
structure Takes (w v : World σ) (twinId : String) (f : σ) (current : Nat) : Prop where
  source : w.hub.subscribers.get? twinId = some current ∨
    w.hub.subscribers.get? twinId = none ∧ current = w.hub.made
  lt : current < v.hub.made
  le : w.hub.made ≤ v.hub.made
  sets_current : v.hub.sets current = Hub.add (w.hub.sets current) f
  sets_other : ∀ r, r ≠ current → v.hub.sets r = w.hub.sets r
  get? : ∀ t, v.hub.subscribers.get? t = if t = twinId then some current else w.hub.subscribers.get? t
  subscriptions : v.subscriptions = w.subscriptions ++ [⟨twinId, f, current⟩]
  ended : v.ended = w.ended

theorem exists_takes (ha : w.Apart owner) (twinId : String) (f : σ) :
    ∃ current, Takes w (w.subscribe twinId f) twinId f current := by
  cases h : w.hub.subscribers.get? twinId with
  | some current =>
      have hsub : w.hub.currentSet twinId = (w.hub, current) := by simp only [Hub.currentSet, h]
      refine ⟨current, .inl h, ?_, ?_, ?_, ?_, ?_, ?_, ?_⟩ <;> simp only [subscribe, Hub.subscribe, hsub]
      · exact (ha.mapped h).1
      · exact Nat.le_refl _
      · exact Function.update_self ..
      · exact fun r hr => Function.update_of_ne hr ..
      · exact fun t => Map.get?_set
  | none =>
      have hsub : w.hub.currentSet twinId = ({ w.hub with made := w.hub.made + 1 }, w.hub.made) := by
        simp only [Hub.currentSet, h]
      refine ⟨w.hub.made, .inr ⟨h, rfl⟩, ?_, ?_, ?_, ?_, ?_, ?_, ?_⟩ <;>
        simp only [subscribe, Hub.subscribe, hsub]
      · exact Nat.lt_succ_self _
      · exact Nat.le_succ _
      · exact Function.update_self ..
      · exact fun r hr => Function.update_of_ne hr ..
      · exact fun t => Map.get?_set

namespace Takes

variable {v : World σ} {f : σ} {current : Nat}

/-- The members of the set are those that the Twin had. -/
theorem sets_eq (h : Takes w v twinId f current) (ha : w.Apart owner) :
    w.hub.sets current = w.hub.audience twinId := by
  rcases h.source with hget | ⟨hget, rfl⟩
  · rw [Hub.audience_of_some hget]
  · rw [Hub.audience_of_none hget, ha.unmade _ (Nat.le_refl _)]

/-- The set belonged to the Twin or to none. -/
theorem owner_eq (h : Takes w v twinId f current) (ha : w.Apart owner) (hlt : current < w.hub.made) :
    owner current = twinId := by
  rcases h.source with hget | ⟨-, rfl⟩
  · exact (ha.mapped hget).2
  · exact absurd hlt (Nat.lt_irrefl _)

theorem get?_self (h : Takes w v twinId f current) : v.hub.subscribers.get? twinId = some current := by
  rw [h.get?, if_pos rfl]

/-- The subscriptions are those before and the new one. -/
theorem getElem?_iff (h : Takes w v twinId f current) {k : Nat} {s : Subscription σ} :
    v.subscriptions[k]? = some s ↔
      w.subscriptions[k]? = some s ∨ k = w.subscriptions.length ∧ s = ⟨twinId, f, current⟩ := by
  rw [h.subscriptions, List.getElem?_append]
  split
  · rename_i hlt
    constructor
    · exact .inl
    · rintro (hk | ⟨rfl, -⟩)
      · exact hk
      · exact absurd hlt (Nat.lt_irrefl _)
  · rename_i hle
    have hnone : w.subscriptions[k]? = none := List.getElem?_eq_none (Nat.not_lt.mp hle)
    rw [hnone, List.getElem?_singleton]
    constructor
    · intro hk
      split at hk
      · exact .inr ⟨by omega, (Option.some.inj hk).symm⟩
      · cases hk
    · rintro (hk | ⟨rfl, rfl⟩)
      · cases hk
      · rw [Nat.sub_self, if_pos rfl]

theorem apart (h : Takes w v twinId f current) (ha : w.Apart owner) :
    v.Apart (Function.update owner current twinId) := by
  have howner : ∀ r < w.hub.made, Function.update owner current twinId r = owner r := by
    intro r hr
    by_cases heq : r = current
    · subst heq
      rw [Function.update_self, h.owner_eq ha hr]
    · rw [Function.update_of_ne heq]
  refine ⟨?_, ?_, ?_, ?_, ?_⟩
  · intro other r hr
    rw [h.get?] at hr
    split at hr
    · rename_i heq
      obtain rfl := Option.some.inj hr
      exact ⟨h.lt, by rw [heq, Function.update_self]⟩
    · obtain ⟨hlt, hown⟩ := ha.mapped hr
      exact ⟨Nat.lt_of_lt_of_le hlt h.le, (howner r hlt).trans hown⟩
  · intro s hs
    obtain ⟨k, hk⟩ := List.getElem?_of_mem hs
    rcases h.getElem?_iff.mp hk with hk | ⟨-, rfl⟩
    · obtain ⟨hlt, hown⟩ := ha.returned s (List.mem_of_getElem? hk)
      exact ⟨Nat.lt_of_lt_of_le hlt h.le, (howner _ hlt).trans hown⟩
    · exact ⟨h.lt, Function.update_self ..⟩
  · intro r hr
    have hne : r ≠ current := fun heq => absurd h.lt (Nat.not_lt.mpr (heq ▸ hr))
    rw [h.sets_other r hne, ha.unmade r (Nat.le_trans h.le hr)]
  · intro r
    by_cases heq : r = current
    · rw [heq, h.sets_current]
      exact nodup_add (ha.nodup current)
    · rw [h.sets_other r heq]
      exact ha.nodup r
  · intro k hk
    rw [h.ended] at hk
    rw [h.subscriptions, List.length_append]
    exact Nat.lt_add_right _ (ha.ended k hk)

theorem faithful (h : Takes w v twinId f current) (ha : w.Apart owner) (hf : w.Faithful twinId) :
    v.Faithful twinId := by
  have hnew : w.subscriptions.length ∉ w.ended := fun hk => Nat.lt_irrefl _ (ha.ended _ hk)
  refine ⟨?_, ?_, ?_, ?_⟩
  · intro g
    rw [Hub.audience_of_some h.get?_self, h.sets_current, mem_add, h.sets_eq ha, hf.live]
    unfold Subscribed
    simp only [h.getElem?_iff, h.ended]
    constructor
    · rintro (⟨k, r, hk, hopen⟩ | rfl)
      · exact ⟨k, r, .inl hk, hopen⟩
      · exact ⟨_, current, .inr ⟨rfl, rfl⟩, hnew⟩
    · rintro ⟨k, r, hk | ⟨-, hs⟩, hopen⟩
      · exact .inl ⟨k, r, hk, hopen⟩
      · cases hs
        exact .inr rfl
  · intro r hr
    rw [h.get?_self] at hr
    obtain rfl := Option.some.inj hr
    intro hempty
    have hmem : f ∈ v.hub.sets current := by
      rw [h.sets_current]
      exact mem_add.mpr (.inr rfl)
    rw [hempty] at hmem
    cases hmem
  · intro k s hk hs hopen
    rw [h.get?_self]
    rw [h.ended] at hopen
    rcases h.getElem?_iff.mp hk with hk | ⟨-, rfl⟩
    · have hstanding := hf.standing hk hs hopen
      rcases h.source with hget | ⟨hget, -⟩
      · rw [← hget, hstanding]
      · rw [hget] at hstanding
        cases hstanding
    · rfl
  · intro s hs hid hne
    rw [h.get?_self] at hne
    have hother : s.current ≠ current := fun heq => hne (heq ▸ rfl)
    obtain ⟨k, hk⟩ := List.getElem?_of_mem hs
    rcases h.getElem?_iff.mp hk with hk | ⟨-, rfl⟩
    · rw [h.sets_other _ hother]
      refine hf.stale s (List.mem_of_getElem? hk) hid ?_
      rcases h.source with hget | ⟨hget, -⟩
      · rw [hget]
        exact hne
      · rw [hget]
        exact (Option.some_ne_none _).symm
    · exact absurd rfl hother

theorem faithful_other (h : Takes w v twinId f current) (ha : w.Apart owner) {other : String}
    (hne : other ≠ twinId) (hf : w.Faithful other) : v.Faithful other := by
  refine hf.of_same ?_ ?_ ?_ ?_ ha
  · rw [h.get?, if_neg hne]
  · intro r hr hlt
    refine h.sets_other r ?_
    rintro rfl
    exact hne (hr.symm.trans (h.owner_eq ha hlt))
  · intro k s hs
    rw [h.getElem?_iff]
    constructor
    · rintro (hk | ⟨-, rfl⟩)
      · exact hk
      · exact absurd hs.symm hne
    · exact .inl
  · intro k s _ _
    rw [h.ended]

end Takes

/-! ## Unsubscribing -/

/-- What the call of a returned function makes of the world. -/
structure Leaves (w v : World σ) (k : Nat) (s : Subscription σ) : Prop where
  called : w.subscriptions[k]? = some s
  made : v.hub.made = w.hub.made
  sets_current : v.hub.sets s.current = (w.hub.sets s.current).filter (· ≠ s.subscriber)
  sets_other : ∀ r, r ≠ s.current → v.hub.sets r = w.hub.sets r
  get?_other : ∀ t, t ≠ s.twinId → v.hub.subscribers.get? t = w.hub.subscribers.get? t
  get?_kept : v.hub.sets s.current ≠ [] →
    v.hub.subscribers.get? s.twinId = w.hub.subscribers.get? s.twinId
  get?_dropped : v.hub.sets s.current = [] → v.hub.subscribers.get? s.twinId = none
  subscriptions : v.subscriptions = w.subscriptions
  ended : v.ended = k :: w.ended

theorem leaves_unsubscribe {k : Nat} {s : Subscription σ} (h : w.subscriptions[k]? = some s) :
    Leaves w (w.unsubscribe k) k s := by
  have hself : (w.unsubscribe k).hub.sets s.current = (w.hub.sets s.current).filter (· ≠ s.subscriber) := by
    simp only [unsubscribe, h, Hub.unsubscribe, Function.update_self]
  refine ⟨h, ?_, hself, ?_, ?_, ?_, ?_, ?_, ?_⟩
  · simp only [unsubscribe, h, Hub.unsubscribe]
  · intro r hr
    simp only [unsubscribe, h, Hub.unsubscribe, Function.update_of_ne hr]
  · intro t ht
    simp only [unsubscribe, h, Hub.unsubscribe]
    split
    · rw [Map.get?_delete, if_neg ht]
    · rfl
  · intro hne
    rw [hself] at hne
    simp only [unsubscribe, h, Hub.unsubscribe]
    rw [if_neg (by simpa using hne)]
  · intro hempty
    rw [hself] at hempty
    simp only [unsubscribe, h, Hub.unsubscribe]
    rw [if_pos (by simpa using hempty), Map.get?_delete, if_pos rfl]
  · simp only [unsubscribe, h]
  · simp only [unsubscribe, h]

/-- The call takes the subscriber of `s` from a set that the Twin still has, and from no other subscription. -/
def Harmless (w : World σ) (k : Nat) (s : Subscription σ) : Prop :=
  ∀ current, w.hub.subscribers.get? s.twinId = some current →
    current = s.current ∧ ∀ (j : Nat) (s' : Subscription σ), w.subscriptions[j]? = some s' → j ∉ w.ended →
      j ≠ k → s'.twinId = s.twinId → s'.subscriber ≠ s.subscriber

namespace Leaves

variable {v : World σ} {k : Nat} {s : Subscription σ}

theorem apart (h : Leaves w v k s) (ha : w.Apart owner) : v.Apart owner := by
  have hreturned := ha.returned s (List.mem_of_getElem? h.called)
  refine ⟨?_, ?_, ?_, ?_, ?_⟩
  · intro t r hr
    rw [h.made]
    by_cases ht : t = s.twinId
    · subst ht
      by_cases hempty : v.hub.sets s.current = []
      · rw [h.get?_dropped hempty] at hr
        cases hr
      · rw [h.get?_kept hempty] at hr
        exact ha.mapped hr
    · rw [h.get?_other t ht] at hr
      exact ha.mapped hr
  · intro s' hs'
    rw [h.subscriptions] at hs'
    rw [h.made]
    exact ha.returned s' hs'
  · intro r hr
    rw [h.made] at hr
    have hne : r ≠ s.current := fun heq => Nat.not_le.mpr hreturned.1 (heq ▸ hr)
    rw [h.sets_other r hne, ha.unmade r hr]
  · intro r
    by_cases hr : r = s.current
    · rw [hr, h.sets_current]
      exact (ha.nodup s.current).filter _
    · rw [h.sets_other r hr]
      exact ha.nodup r
  · intro j hj
    rw [h.subscriptions]
    rw [h.ended] at hj
    rcases List.mem_cons.mp hj with rfl | hj
    · exact (List.getElem?_eq_some_iff.mp h.called).1
    · exact ha.ended j hj

/-- The Twin has the rest of the set when it had the set. -/
theorem audience_eq (h : Leaves w v k s) (hget : w.hub.subscribers.get? s.twinId = some s.current) :
    v.hub.audience s.twinId = v.hub.sets s.current := by
  by_cases hempty : v.hub.sets s.current = []
  · rw [Hub.audience_of_none (h.get?_dropped hempty), hempty]
  · rw [Hub.audience_of_some ((h.get?_kept hempty).trans hget)]

theorem subscribed_iff (h : Leaves w v k s) {t : String} {f : σ} :
    v.Subscribed t f ↔ ∃ j current, j ≠ k ∧ w.subscriptions[j]? = some ⟨t, f, current⟩ ∧ j ∉ w.ended := by
  unfold Subscribed
  simp only [h.subscriptions, h.ended, List.mem_cons, not_or]
  refine exists_congr fun j => exists_congr fun current => ?_
  constructor
  · rintro ⟨hj, hne, hopen⟩
    exact ⟨hne, hj, hopen⟩
  · rintro ⟨hne, hj, hopen⟩
    exact ⟨hj, hne, hopen⟩

/-- Nothing is left to take from a set that the map has dropped. -/
theorem sets_dropped (h : Leaves w v k s) (hf : w.Faithful s.twinId)
    (hget : w.hub.subscribers.get? s.twinId ≠ some s.current) : v.hub.sets s.current = [] := by
  rw [h.sets_current, hf.stale s (List.mem_of_getElem? h.called) rfl hget, List.filter_nil]

/-- No subscription of a Twin without a set stands. -/
theorem faithful_of_none (h : Leaves w v k s) (hf : w.Faithful s.twinId)
    (hget : w.hub.subscribers.get? s.twinId = none) : v.Faithful s.twinId := by
  have hempty : v.hub.sets s.current = [] :=
    h.sets_dropped hf (by rw [hget]; exact (Option.some_ne_none _).symm)
  have hnone := h.get?_dropped hempty
  have hover : ∀ {j s'}, v.subscriptions[j]? = some s' → s'.twinId = s.twinId → j ∉ v.ended → False := by
    intro j s' hj hs' hopen
    rw [h.subscriptions] at hj
    rw [h.ended, List.mem_cons, not_or] at hopen
    have hstanding := hf.standing hj hs' hopen.2
    rw [hget] at hstanding
    cases hstanding
  refine ⟨?_, ?_, ?_, ?_⟩
  · intro f
    rw [Hub.audience_of_none hnone]
    constructor
    · intro hf
      cases hf
    · rintro ⟨j, current, hj, hopen⟩
      exact (hover hj rfl hopen).elim
  · intro r hr
    rw [hnone] at hr
    cases hr
  · intro j s' hj hs' hopen
    exact (hover hj hs' hopen).elim
  · intro s' hs' hid _
    rw [h.subscriptions] at hs'
    by_cases heq : s'.current = s.current
    · rw [heq, hempty]
    · rw [h.sets_other _ heq]
      exact hf.stale s' hs' hid (by rw [hget]; exact (Option.some_ne_none _).symm)

theorem faithful (h : Leaves w v k s) (hf : w.Faithful s.twinId) (hs : w.Harmless k s) :
    v.Faithful s.twinId := by
  cases hget : w.hub.subscribers.get? s.twinId with
  | none => exact h.faithful_of_none hf hget
  | some current =>
      obtain ⟨rfl, halone⟩ := hs current hget
      have hlive : ∀ f, f ∈ v.hub.sets s.current ↔ v.Subscribed s.twinId f := by
        intro f
        rw [h.sets_current, List.mem_filter, ← Hub.audience_of_some hget, hf.live, h.subscribed_iff]
        constructor
        · rintro ⟨⟨j, r, hj, hopen⟩, hne⟩
          refine ⟨j, r, ?_, hj, hopen⟩
          rintro rfl
          rw [h.called] at hj
          have hf := congrArg Subscription.subscriber (Option.some.inj hj)
          simp [hf] at hne
        · rintro ⟨j, r, hjk, hj, hopen⟩
          exact ⟨⟨j, r, hj, hopen⟩, by simpa using halone j _ hj hopen hjk rfl⟩
      refine ⟨?_, ?_, ?_, ?_⟩
      · intro f
        rw [h.audience_eq hget, hlive]
      · intro r hr
        by_cases hempty : v.hub.sets s.current = []
        · rw [h.get?_dropped hempty] at hr
          cases hr
        · rw [h.get?_kept hempty, hget] at hr
          cases hr
          exact hempty
      · intro j s' hj hs' hopen
        have hmem : s'.subscriber ∈ v.hub.sets s.current := by
          refine (hlive _).mpr ⟨j, s'.current, ?_, hopen⟩
          rw [hj, ← hs']
        rw [h.get?_kept (List.ne_nil_of_mem hmem)]
        rw [h.subscriptions] at hj
        rw [h.ended, List.mem_cons, not_or] at hopen
        exact hf.standing hj hs' hopen.2
      · intro s' hs' hid hne
        rw [h.subscriptions] at hs'
        by_cases heq : s'.current = s.current
        · rw [heq]
          by_contra hfull
          rw [h.get?_kept hfull, hget, heq] at hne
          exact hne rfl
        · rw [h.sets_other _ heq]
          refine hf.stale s' hs' hid ?_
          rw [hget]
          exact fun hsome => heq (Option.some.inj hsome).symm

theorem faithful_other (h : Leaves w v k s) (ha : w.Apart owner) {other : String}
    (hne : other ≠ s.twinId) (hf : w.Faithful other) : v.Faithful other := by
  refine hf.of_same (h.get?_other other hne) ?_ ?_ ?_ ha
  · intro r hr _
    refine h.sets_other r ?_
    rintro rfl
    exact hne (hr.symm.trans (ha.returned s (List.mem_of_getElem? h.called)).2)
  · intro j s' _
    rw [h.subscriptions]
  · intro j s' hj hs'
    rw [h.ended, List.mem_cons]
    refine or_iff_right ?_
    rintro rfl
    rw [h.called] at hj
    cases hj
    exact hne hs'.symm

/-- A call that is not harmless leaves a subscriber that stands without events. -/
theorem unheard (h : Leaves w v k s) (hf : w.Faithful s.twinId) (hs : ¬ w.Harmless k s) :
    ∃ f, v.Subscribed s.twinId f ∧ f ∉ v.hub.audience s.twinId := by
  simp only [Harmless, not_forall] at hs
  obtain ⟨current, hget, hharm⟩ := hs
  by_cases hcurrent : current = s.current
  · -- another subscription of the same subscriber stands, and its member is gone
    subst hcurrent
    simp only [true_and, not_forall, not_not] at hharm
    obtain ⟨j, s', hj, hopen, hjk, hid, hsubscriber⟩ := hharm
    refine ⟨s.subscriber, h.subscribed_iff.mpr ⟨j, s'.current, hjk, ?_, hopen⟩, ?_⟩
    · rw [hj, ← hid, ← hsubscriber]
    · rw [h.audience_eq hget, h.sets_current]
      simp
  · -- the set was dropped before, and another has taken its place in the map
    have hother : w.hub.subscribers.get? s.twinId ≠ some s.current := by
      rw [hget]
      exact fun hsome => hcurrent (Option.some.inj hsome)
    have hempty := h.sets_dropped hf hother
    obtain ⟨f, hmem⟩ := List.exists_mem_of_ne_nil _ (hf.occupied current hget)
    rw [← Hub.audience_of_some hget, hf.live] at hmem
    obtain ⟨j, r, hj, hopen⟩ := hmem
    refine ⟨f, h.subscribed_iff.mpr ⟨j, r, ?_, hj, hopen⟩, ?_⟩
    · rintro rfl
      have hstanding := hf.standing hj rfl hopen
      rw [h.called] at hj
      have hr := congrArg Subscription.current (Option.some.inj hj)
      exact hother (hstanding.trans (congrArg some hr.symm))
    · rw [Hub.audience_of_none (h.get?_dropped hempty)]
      exact List.not_mem_nil

end Leaves

/-! ## Whole runs -/

/-- The Twins that events are published for have what stands, in sets of their own. -/
def Invariant (w : World σ) : Prop :=
  (∃ owner, w.Apart owner) ∧ ∀ twinId, Publishable twinId → w.Faithful twinId

/-- A call of an unsubscribe function finds the set that it refers to in the map, or none there, and no
other subscription of its subscriber to the Twin. -/
def Safe (w : World σ) : Call σ → Prop
  | .unsubscribe k => ∀ s, w.subscriptions[k]? = some s → Publishable s.twinId → w.Harmless k s
  | _ => True

omit [DecidableEq σ] in
theorem invariant_start : (start : World σ).Invariant :=
  ⟨⟨_, apart_start⟩, fun twinId _ => faithful_start twinId⟩

variable [Runtime] {measures : Measures}

omit [DecidableEq σ] in
theorem Invariant.delivers (h : w.Invariant) : w.Delivers measures := by
  obtain ⟨⟨owner, ha⟩, hf⟩ := h
  exact delivers_iff.mpr fun twinId hid => ⟨ha.nodup_audience twinId, (hf twinId hid).live⟩

/-- A safe call keeps the invariant. -/
theorem Invariant.step {call : Call σ} (h : w.Invariant) (hsafe : w.Safe call) :
    (w.step measures call).Invariant := by
  obtain ⟨⟨owner, ha⟩, hf⟩ := h
  cases call with
  | subscribe twinId f =>
      obtain ⟨current, htakes⟩ := exists_takes ha twinId f
      refine ⟨⟨_, htakes.apart ha⟩, fun other hid => ?_⟩
      by_cases hother : other = twinId
      · exact hother ▸ htakes.faithful ha (hf twinId (hother ▸ hid))
      · exact htakes.faithful_other ha hother (hf other hid)
  | publish message receivedAt =>
      cases hresult : w.hub.publish measures message receivedAt with
      | error thrown =>
          simp only [World.step, hresult]
          exact ⟨⟨owner, ha⟩, hf⟩
      | ok result =>
          have hhub := (Hub.publish_ok hresult).2.2.2
          simp only [World.step, hresult]
          rw [hhub]
          refine ⟨⟨owner, ha.mapped, ha.returned, ha.unmade, ha.nodup, ha.ended⟩, fun twinId hid => ?_⟩
          have hf := hf twinId hid
          exact ⟨hf.live, hf.occupied, hf.standing, hf.stale⟩
  | unsubscribe k =>
      cases hk : w.subscriptions[k]? with
      | none =>
          simp only [World.step, World.unsubscribe, hk]
          exact ⟨⟨owner, ha⟩, hf⟩
      | some s =>
          have hleaves := leaves_unsubscribe hk
          refine ⟨⟨owner, hleaves.apart ha⟩, fun other hid => ?_⟩
          by_cases hother : other = s.twinId
          · subst hother
            exact hleaves.faithful (hf s.twinId hid) (hsafe s hk hid)
          · exact hleaves.faithful_other ha hother (hf other hid)

/-- After a call that is not safe, a publish misses a subscriber. -/
theorem Invariant.not_delivers_step {call : Call σ} (h : w.Invariant) (hsafe : ¬ w.Safe call) :
    ¬ (w.step measures call).Delivers measures := by
  cases call with
  | subscribe | publish => exact absurd trivial hsafe
  | unsubscribe k =>
      simp only [Safe, not_forall] at hsafe
      obtain ⟨s, hk, hid, hharm⟩ := hsafe
      obtain ⟨f, hstands, hmissing⟩ := (leaves_unsubscribe hk).unheard (h.2 s.twinId hid) hharm
      intro hdelivers
      exact hmissing (((delivers_iff.mp hdelivers s.twinId hid).2 f).mpr hstands)

variable (measures) in
/-- What one world's publishes invoke, those of the other invoke too. -/
def Keeps (w v : World σ) : Prop :=
  ∀ message receivedAt result result', w.hub.publish measures message receivedAt = .ok result →
    v.hub.publish measures message receivedAt = .ok result' → result.invoked ⊆ result'.invoked

/-- A function that is called again ends nothing. -/
theorem keeps_of_delivers {k : Nat} (hw : w.Delivers measures) (hv : (w.unsubscribe k).Delivers measures)
    (hk : k ∈ w.ended) : Keeps measures w (w.unsubscribe k) := by
  intro message receivedAt result result' hresult hresult' f hf
  have hid : result.event.twinId = result'.event.twinId :=
    (Hub.publish_ok hresult).2.1.trans (Hub.publish_ok hresult').2.1.symm
  obtain ⟨j, current, hj, hopen⟩ := ((hw message receivedAt result hresult).2 f).mp hf
  refine ((hv message receivedAt result' hresult').2 f).mpr ?_
  rw [hid] at hj
  cases hs : w.subscriptions[k]? with
  | none =>
      simp only [World.unsubscribe, hs]
      exact ⟨j, current, hj, hopen⟩
  | some s =>
      exact (leaves_unsubscribe hs).subscribed_iff.mpr
        ⟨j, current, fun heq => hopen (heq ▸ hk), hj, hopen⟩

variable (measures) in
/-- The law of the hub over a sequence of calls. -/
structure Lawful (calls : List (Call σ)) : Prop where
  delivers : ∀ before, before <+: calls → (after measures before).Delivers measures
  keeps : ∀ before k, before ++ [.unsubscribe k] <+: calls → k ∈ (after measures before).ended →
    Keeps measures (after measures before) (after measures (before ++ [.unsubscribe k]))

variable (measures) in
/-- Every call of the sequence is safe when its turn comes. -/
def SafeCalls (calls : List (Call σ)) : Prop :=
  ∀ before call, before ++ [call] <+: calls → (after measures before).Safe call

theorem after_concat (calls : List (Call σ)) (call : Call σ) :
    after measures (calls ++ [call]) = (after measures calls).step measures call := by
  rw [after, List.foldl_append, List.foldl_cons, List.foldl_nil, after]

theorem SafeCalls.invariant {calls : List (Call σ)} (h : SafeCalls measures calls) :
    (after measures calls).Invariant := by
  induction calls using List.reverseRecOn with
  | nil => exact invariant_start
  | append_singleton calls call ih =>
      rw [after_concat]
      have hbefore : SafeCalls measures calls := fun before c hc => h before c (hc.trans (List.prefix_append ..))
      exact (ih hbefore).step (h calls call (List.prefix_refl _))

theorem safeCalls_of_delivers {calls : List (Call σ)}
    (h : ∀ before, before <+: calls → (after measures before).Delivers measures) : SafeCalls measures calls := by
  induction calls using List.reverseRecOn with
  | nil =>
      intro before call hc
      simp at hc
  | append_singleton calls call ih =>
      have hbefore := ih fun before hc => h before (hc.trans (List.prefix_append ..))
      intro before c hc
      rcases List.prefix_concat_iff.mp hc with heq | hc
      · obtain ⟨rfl, rfl⟩ := List.append_singleton_inj.mp heq
        by_contra hsafe
        apply hbefore.invariant.not_delivers_step hsafe
        rw [← after_concat]
        exact h _ (List.prefix_refl _)
      · exact hbefore before c hc

/-- Every publish invokes exactly what stands, and no second call takes another subscriber, in just those
sequences whose calls of unsubscribe functions are all safe. -/
theorem lawful_iff_safe (calls : List (Call σ)) : Lawful measures calls ↔ SafeCalls measures calls := by
  constructor
  · intro h
    exact safeCalls_of_delivers h.delivers
  · intro h
    have hdelivers : ∀ before, before <+: calls → (after measures before).Delivers measures := by
      intro before hbefore
      have hsafe : SafeCalls measures before := fun b c hc => h b c (hc.trans hbefore)
      exact hsafe.invariant.delivers
    refine ⟨hdelivers, fun before k hk hended => ?_⟩
    have hv := hdelivers _ hk
    rw [after_concat] at hv ⊢
    exact keeps_of_delivers (hdelivers before ((List.prefix_append ..).trans hk)) hv hended

/-- The function of the first subscription is called again when a second subscriber has come. -/
def calledAgain : List (Call String) :=
  [.subscribe "0xtwin" "first", .unsubscribe 0, .subscribe "0xtwin" "second", .unsubscribe 0]

omit [Runtime] in
/-- The second subscriber then hears nothing. -/
theorem called_again_unheard :
    let _ : Runtime := .ascii
    ¬ ∀ (measures : Measures) (calls : List (Call String)), Lawful measures calls := by
  intro runtime h
  have hdelivers := (h ⟨fun _ => 0, id, id, id⟩ calledAgain).delivers calledAgain (List.prefix_refl _)
  have hid : Publishable "0xtwin" := ⟨by decide, "0xtwin", by decide⟩
  have hstands : (after ⟨fun _ => 0, id, id, id⟩ calledAgain).Subscribed "0xtwin" "second" :=
    ⟨1, 1, rfl, by decide⟩
  have hheard := ((delivers_iff.mp hdelivers "0xtwin" hid).2 "second").mpr hstands
  cases hheard

end World

end Realtime
