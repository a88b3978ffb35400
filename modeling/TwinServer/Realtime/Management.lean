-- SUMMARY: The realtime stream of the management API: its single slot, and when the latest event is delivered.
import TwinServer.Base.Simulation
import TwinServer.Realtime.Hub
import Mathlib.Algebra.GroupWithZero.Nat

/-!
# The management stream

`GET /twins/:id/realtime/stream` of `src/api/app.ts`. A `send` puts its item into a slot; one `send` at a
time empties it, and waits for an authorization before each write. Items of all kinds share the slot, so
a heartbeat takes the place of an event that waits. Where no heartbeat comes while an event waits, the
latest event is written.
-/

open Js Async Delivery

namespace Realtime.Management

/-! ## The stream -/

inductive Item where
  | snapshot (e : TwinRealtimeEvent)
  | telemetry (e : TwinRealtimeEvent)
  | heartbeat

@[local grind] def Item.event? : Item → Option TwinRealtimeEvent
  | .snapshot e => some e
  | .telemetry e => some e
  | .heartbeat => none

/-- The variables of the handler and the frames it has written, with the events of the Twin: the one
that the hub had when the stream was opened, and those published since. -/
structure Stream where
  closed : Bool
  sending : Bool
  pending : Option Item
  frames : List Item
  events : List TwinRealtimeEvent

/-- A `send` that waits for the authorization of its item, or that has returned. -/
inductive Task where
  | checking (item : Item)
  | done

inductive Call where
  | publish (e : TwinRealtimeEvent)
  | heartbeat

/-- The loop of a `send`, up to its next suspension. -/
def next (s : Stream) : Stream × Task :=
  match s.pending, s.closed with
  | some item, false => ({ s with pending := none }, .checking item)
  | _, _ => ({ s with sending := false }, .done)

def send (s : Stream) (item : Item) : Stream × Task :=
  let s := { s with pending := some item }
  if s.sending || s.closed then (s, .done) else next { s with sending := true }

section
variable [Runtime] (id : String)

/-- A published event reaches the stream through its subscription; the timer sends heartbeats. -/
def call (s : Stream) : Call → Option (Stream × Task)
  | .publish e =>
    let s := { s with events := if concerns id e then s.events ++ [e] else s.events }
    some (if hears id e then send s (.telemetry e) else (s, .done))
  | .heartbeat => some (send s .heartbeat)

/-- The answer of `assertManagementRead`. -/
@[local grind] def resume (s : Stream) : Task → Bool → Option (Stream × Task)
  | .checking item, true =>
    some (next (if s.closed then s else { s with frames := s.frames ++ [item] }))
  | .checking _, false => some ({ s with closed := true, sending := false }, .done)
  | .done, _ => none

/-- From outside, the client closes the connection. -/
def stream : Machine Stream Task Call Bool Unit where
  call := call id
  resume := resume
  env s _ := some { s with closed := true }

/-- A stream right after it was opened, with the event that the hub had. -/
def opened (latest : Option TwinRealtimeEvent) : Config Stream Task :=
  let s : Stream := ⟨false, false, none, [], latest.toList⟩
  match latest with
  | some e => ⟨(send s (.snapshot e)).1, [(send s (.snapshot e)).2]⟩
  | none => ⟨s, []⟩

/-! ## What is on its way -/

/-- The events of the frames. -/
def Stream.written (s : Stream) : List TwinRealtimeEvent := s.frames.filterMap Item.event?

/-- The event in the slot. -/
def Stream.waiting (s : Stream) : Option TwinRealtimeEvent := s.pending.bind Item.event?

/-- No heartbeat comes while an event waits, and the events of the Twin are published under the id that
the stream was opened with. -/
def undisturbed (s : Stream) : Call → Bool
  | .publish e => concerns id e → hears id e
  | .heartbeat => s.waiting.isNone

end

def Task.active : Task → Bool
  | .checking _ => true
  | .done => false

/-- The event that a task is about to write. -/
def Task.event? : Task → Option TwinRealtimeEvent
  | .checking item => item.event?
  | .done => none

/-- The events written, in check and in the slot. -/
def Stream.Carries (s : Stream) (checked : Option TwinRealtimeEvent) : Prop :=
  Latest s.events (s.written ++ checked.toList ++ s.waiting.toList)

/-- An idle stream that is open has nothing in its slot. -/
structure Idle (s : Stream) : Prop where
  rest : s.sending = false → s.closed = false → s.pending = none ∧ s.Carries none

/-- The task that is active holds the sender, and what was published is on its way. -/
structure Owns (s : Stream) (t : Task) : Prop where
  sending : t.active → s.sending = true
  carries : t.active → s.closed = false → s.Carries t.event?

def Apart (t u : Task) : Prop := ¬(t.active ∧ u.active)

variable {s s' : Stream} {t t' : Task} {item : Item}

theorem owns_done (s : Stream) : Owns s .done := ⟨fun h => (nomatch h), fun h => (nomatch h)⟩

theorem apart_done (u : Task) : Apart .done u := fun h => (nomatch h.1)

theorem owns_of_not_active {u : Task} (hu : u.active = false) (s : Stream) : Owns s u := by
  cases u with
  | checking item => cases hu
  | done => exact owns_done s

/-- An event that is published may overtake the one that waits. -/
theorem carries_publish {checked : Option TwinRealtimeEvent} (h : s.Carries checked)
    (e : TwinRealtimeEvent) :
    ({ s with events := s.events ++ [e], pending := some (.telemetry e) } : Stream).Carries checked := by
  apply Latest.publish h
  apply List.sublist_append_left

/-- A heartbeat changes nothing that is on its way when no event waits. -/
theorem carries_heartbeat {checked : Option TwinRealtimeEvent} (h : s.Carries checked)
    (hwaiting : s.waiting = none) :
    ({ s with pending := some .heartbeat } : Stream).Carries checked := by
  unfold Stream.Carries at h
  rw [hwaiting] at h
  exact h

theorem written_append (s : Stream) (item : Item) :
    ({ s with frames := s.frames ++ [item] } : Stream).written = s.written ++ item.event?.toList := by
  unfold Stream.written
  rw [List.filterMap_append]
  cases item <;> rfl

/-- The item in check is written, unless the stream has closed. -/
theorem carries_write (h : s.closed = false → s.Carries item.event?)
    (hopen : (if s.closed then s else { s with frames := s.frames ++ [item] }).closed = false) :
    (if s.closed then s else { s with frames := s.frames ++ [item] }).Carries none := by
  split at hopen
  case isTrue hclosed => simp [hclosed] at hopen
  case isFalse hclosed =>
    have hslot := h hopen
    simpa [if_neg hclosed, Stream.Carries, written_append, Stream.waiting] using hslot

/-- What a segment of the loop leaves: an idle stream, or a task that owns the sender. -/
theorem next_spec (hcarries : s.closed = false → s.Carries none) (hsending : s.sending = true)
    (h : next s = (s', t')) : Idle s' ∧ Owns s' t' := by
  unfold next at h
  split at h
  case h_1 item hpending hclosed =>
    obtain ⟨rfl, rfl⟩ := Prod.mk.inj h
    constructor
    · constructor
      intro hidle
      simp [hsending] at hidle
    · refine ⟨fun _ => hsending, fun _ _ => ?_⟩
      have hslot := hcarries hclosed
      simpa [Stream.Carries, Stream.written, Stream.waiting, Task.event?, hpending] using hslot
  case h_2 hnone =>
    obtain ⟨rfl, rfl⟩ := Prod.mk.inj h
    refine ⟨⟨fun _ hclosed => ?_⟩, owns_done _⟩
    cases hpending : s.pending with
    | none => exact ⟨rfl, by
        simpa [Stream.Carries, Stream.written, Stream.waiting, hpending] using hcarries hclosed⟩
    | some item => exact absurd hclosed (hnone item hpending)

/-- A `send` of an item that keeps what is on its way. -/
theorem send_spec {s₀ : Stream} (hidle : Idle s₀) (hsending : s.sending = s₀.sending)
    (hclosed : s.closed = s₀.closed)
    (hput : ∀ checked, s₀.Carries checked → ({ s with pending := some item } : Stream).Carries checked)
    (h : send s item = (s', t')) :
    Idle s' ∧ Owns s' t' ∧ ∀ u, Owns s₀ u → Owns s' u ∧ Apart t' u := by
  unfold send at h
  dsimp only at h
  split at h
  case isTrue hbusy =>
    obtain ⟨rfl, rfl⟩ := Prod.mk.inj h
    refine ⟨⟨fun hrest hopen => ?_⟩, owns_done _, fun u hu => ⟨⟨?_, ?_⟩, apart_done u⟩⟩
    · dsimp only at hrest hopen
      simp [hrest, hopen] at hbusy
    · intro hactive
      exact hsending.trans (hu.sending hactive)
    · intro hactive hopen
      exact hput _ (hu.carries hactive (hclosed ▸ hopen))
  case isFalse hfree =>
    have hrest : s₀.sending = false := by simp [← hsending] at hfree ⊢; exact hfree.1
    have hslot (hopen : s.closed = false) := hput _ (hidle.rest hrest (hclosed ▸ hopen)).2
    have hspec := next_spec (s := { s with sending := true, pending := some item }) hslot rfl h
    refine ⟨hspec.1, hspec.2, fun u hu => ?_⟩
    -- no other task is active while the sender is free
    have hu' : u.active = false := by
      cases hactive : u.active with
      | false => rfl
      | true => simp [hu.sending hactive] at hrest
    refine ⟨owns_of_not_active hu' s', fun hboth => ?_⟩
    simp [hu'] at hboth

theorem apart_symm {t u : Task} (h : Apart t u) : Apart u t := fun hboth => h ⟨hboth.2, hboth.1⟩

theorem event?_of_not_active {t : Task} (h : t.active = false) : t.event? = none := by
  cases t with
  | checking item => cases h
  | done => rfl

theorem holds_opened (latest : Option TwinRealtimeEvent) : Holds Idle Owns Apart (opened latest) := by
  cases latest with
  | none => exact .init ⟨fun _ _ => ⟨rfl, Latest.refl []⟩⟩
  | some e =>
    refine ⟨⟨fun hrest => (nomatch hrest)⟩, ?_, List.pairwise_singleton _ _⟩
    intro t ht
    obtain rfl := List.mem_singleton.mp ht
    exact ⟨fun _ => rfl, fun _ _ => Latest.refl [e]⟩

def weight (t : Task) : Nat := if t.active then 1 else 0

theorem next_weight (hsending : s.sending = true) (h : next s = (s', t')) :
    (if s'.sending then 1 else 0) = weight t' := by
  unfold next at h
  split at h <;> obtain ⟨rfl, rfl⟩ := Prod.mk.inj h
  case h_1 => simp [weight, Task.active, hsending]
  case h_2 => rfl

theorem send_weight (h : send s item = (s', t')) :
    (if s'.sending then 1 else 0) = (if s.sending then 1 else 0) + weight t' := by
  unfold send at h
  dsimp only at h
  split at h
  case isTrue => obtain ⟨rfl, rfl⟩ := Prod.mk.inj h; rfl
  case isFalse hfree =>
    have hrest : s.sending = false := by simp at hfree; exact hfree.1
    rw [next_weight rfl h, hrest]
    exact (Nat.zero_add _).symm

section
variable [Runtime] {id : String}

theorem stream_modular :
    Modular ((stream id).allowing (undisturbed id)) Guard.any Idle Owns Apart where
  symm := apart_symm
  call {s k s' t} hidle hcall := by
    obtain ⟨hcond, hcall⟩ := Machine.call_allowing hcall
    cases k with
    | heartbeat =>
      have hwaiting : s.waiting = none := by simpa [undisturbed] using hcond
      exact send_spec hidle rfl rfl (fun _ h => carries_heartbeat h hwaiting) (Option.some.inj hcall)
    | publish e =>
      simp only [stream, call] at hcall
      split at hcall
      case isTrue hheard =>
        rw [if_pos (concerns_of_hears hheard)] at hcall
        exact send_spec (s := { s with events := s.events ++ [e] }) hidle rfl rfl
          (fun _ h => carries_publish h e) (Option.some.inj hcall)
      case isFalse hunheard =>
        have hother : concerns id e = false := by
          cases hconcerns : concerns id e with
          | false => rfl
          | true => simp [undisturbed, hconcerns] at hcond; exact absurd hcond hunheard
        obtain ⟨rfl, rfl⟩ := Prod.mk.inj (Option.some.inj hcall)
        simp only [hother]
        exact ⟨hidle, owns_done _, fun u hu => ⟨hu, apart_done u⟩⟩
  resume {s t i s' t' others} hidle howns hothers _ hresume := by
    cases t with
    | done => cases hresume
    | checking item =>
      have hrest : ∀ u ∈ others, Owns s' u ∧ Apart t' u := by
        intro u hu
        have hactive : u.active = false := by simpa [Apart, Task.active] using (hothers u hu).2
        refine ⟨owns_of_not_active hactive s', fun hboth => ?_⟩
        simp [hactive] at hboth
      cases i with
      | false =>
        obtain ⟨rfl, rfl⟩ := Prod.mk.inj (Option.some.inj hresume)
        exact ⟨⟨fun _ hopen => (nomatch hopen)⟩, owns_done _, hrest⟩
      | true =>
        have hspec := next_spec ?_ ?_ (Option.some.inj hresume)
        · exact ⟨hspec.1, hspec.2, hrest⟩
        · exact carries_write (howns.carries rfl)
        · split <;> exact howns.sending rfl
  env {s e s'} hidle henv := by
    obtain rfl := Option.some.inj henv
    refine ⟨⟨fun _ hopen => (nomatch hopen)⟩, fun u hu => ⟨hu.sending, fun _ hopen => (nomatch hopen)⟩⟩

/-! ## The latest event -/

variable {latest : Option TwinRealtimeEvent} {es : List (Async.Event Call Bool Unit)}
  {c : Config Stream Task}

/-- The sender is taken exactly while a task is active. -/
theorem sending_eq (hcalls : (stream id).Calls (undisturbed id) (opened latest) es)
    (hrun : (stream id).run (opened latest) es = some c) :
    (if c.shared.sending then 1 else 0) = (c.tasks.map weight).sum := by
  refine stream_modular.run_sum (fun s => if s.sending then 1 else 0) weight ?_ ?_ ?_
    (holds_opened latest) ?_ (Machine.meets_any _ _ _) (Machine.run_allowing _ hcalls hrun)
  · intro s k s' t _ hcall
    obtain ⟨-, hcall⟩ := Machine.call_allowing hcall
    cases k with
    | heartbeat => exact send_weight (Option.some.inj hcall)
    | publish e =>
      simp only [stream, call] at hcall
      split at hcall
      case isTrue => exact send_weight (s := { s with events := if concerns id e then s.events ++ [e] else s.events }) (Option.some.inj hcall)
      case isFalse =>
        obtain ⟨rfl, rfl⟩ := Prod.mk.inj (Option.some.inj hcall)
        rfl
  · intro s t i s' t' _ howns hresume
    cases t with
    | done => cases hresume
    | checking item =>
      have hsending : s.sending = true := howns.sending rfl
      cases i with
      | false =>
        obtain ⟨rfl, rfl⟩ := Prod.mk.inj (Option.some.inj hresume)
        simp [weight, Task.active, hsending]
      | true =>
        have hafter := next_weight (by split <;> exact hsending) (Option.some.inj hresume)
        simp only [hafter, hsending, if_true, weight, Task.active]
        omega
  · intro s e s' _ henv
    obtain rfl := Option.some.inj henv
    rfl
  · cases latest <;> rfl

/-- Where no heartbeat comes while an event waits, the latest event of the Twin is written, in check or
in the slot, after earlier ones in their order; when no `send` is active it is the last one written. -/
theorem latest_delivered (hcalls : (stream id).Calls (undisturbed id) (opened latest) es)
    (hrun : (stream id).run (opened latest) es = some c) (hopen : c.shared.closed = false) :
    Latest c.shared.events
      (c.shared.written ++ c.tasks.filterMap Task.event? ++ c.shared.waiting.toList) ∧
    ((∀ t ∈ c.tasks, t.active = false) → c.shared.written.getLast? = c.shared.events.getLast?) := by
  have hholds := stream_modular.run (holds_opened latest) (Machine.meets_any _ _ _)
    (Machine.run_allowing _ hcalls hrun)
  have hsum := sending_eq hcalls hrun
  have hquiet (hnone : ∀ t ∈ c.tasks, t.active = false) :
      c.shared.pending = none ∧ c.shared.Carries none := by
    apply hholds.shared.rest _ hopen
    have hzero : (c.tasks.map weight).sum = 0 := by
      apply List.sum_eq_zero
      intro n hn
      obtain ⟨t, ht, rfl⟩ := List.mem_map.mp hn
      simp [weight, hnone t ht]
    simpa [hzero] using hsum
  constructor
  · by_cases hactive : ∃ t ∈ c.tasks, t.active
    case neg =>
      have hnone : ∀ t ∈ c.tasks, t.active = false := by simpa using hactive
      have hevents : c.tasks.filterMap Task.event? = [] :=
        List.filterMap_eq_nil_iff.mpr fun t ht => event?_of_not_active (hnone t ht)
      rw [hevents]
      exact (hquiet hnone).2
    case pos =>
      obtain ⟨t, ht, htactive⟩ := hactive
      obtain ⟨n, hn⟩ := List.getElem?_of_mem ht
      have hothers : (c.tasks.eraseIdx n).filterMap Task.event? = [] := by
        apply List.filterMap_eq_nil_iff.mpr
        intro u hu
        have hapart := ((hholds.focus apart_symm hn).2 u hu).2
        exact event?_of_not_active (by simpa [Apart, htactive] using hapart)
      have hperm := (perm_eraseIdx hn).filterMap Task.event?
      rw [List.filterMap_cons, hothers] at hperm
      have hevents : c.tasks.filterMap Task.event? = t.event?.toList := by
        cases hevent : t.event? with
        | none => simpa [hevent] using hperm
        | some e => simpa [hevent] using hperm
      rw [hevents]
      exact (hholds.tasks t ht).carries htactive hopen
  · intro hnone
    have hslot := hquiet hnone
    simpa [Stream.Carries, Stream.waiting, hslot.1] using hslot.2.last

end

/-- An event of the Twin `t`. -/
def sampleEvent (n : Nat) : TwinRealtimeEvent := ⟨"t", n, n, .number n, { encrypted := false }⟩

/-- The heartbeat comes after the event was written. -/
theorem latest_delivered_sample : ∃ c : Config Stream Task,
    Latest c.shared.events
      (c.shared.written ++ c.tasks.filterMap Task.event? ++ c.shared.waiting.toList) ∧
    ((∀ t ∈ c.tasks, t.active = false) → c.shared.written.getLast? = c.shared.events.getLast?) := by
  let _ : Runtime := .ascii
  refine ⟨_, @latest_delivered _ "t" none
    [.call (.publish (sampleEvent 1)), .resume 0 true, .call .heartbeat] _ ?_ rfl rfl⟩
  refine ⟨?_, fun c' hc' => ?_⟩
  · rintro k ⟨⟩
    rfl
  · obtain rfl := Option.some.inj hc'
    refine ⟨fun k hk => (nomatch hk), fun c'' hc'' => ?_⟩
    obtain rfl := Option.some.inj hc''
    refine ⟨?_, fun _ _ => trivial⟩
    rintro k ⟨⟩
    rfl

/-- Two events are published, and a heartbeat comes while the first is in check: it takes the place of
the second, which is never written. -/
theorem heartbeat_replaces : ¬ ∀ (_ : Runtime) (id : String) (latest : Option TwinRealtimeEvent)
    (es : List (Async.Event Call Bool Unit)) (c : Config Stream Task),
    (stream id).run (opened latest) es = some c → c.shared.closed = false →
    (∀ t ∈ c.tasks, t.active = false) → c.shared.written.getLast? = c.shared.events.getLast? := by
  intro h
  let last : Config Stream Task :=
    ⟨⟨false, false, none, [.telemetry (sampleEvent 1), .heartbeat], [sampleEvent 1, sampleEvent 2]⟩,
      [.done, .done, .done]⟩
  have hlast := h .ascii "t" none
    [.call (.publish (sampleEvent 1)), .call (.publish (sampleEvent 2)), .call .heartbeat,
      .resume 0 true, .resume 0 true] last rfl rfl (by simp [last, Task.active])
  have hobserved := congrArg (Option.map TwinRealtimeEvent.observedAt) hlast
  exact absurd hobserved (by decide)

end Realtime.Management
