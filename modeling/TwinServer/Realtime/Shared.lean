-- SUMMARY: The shared realtime stream: its coalescing sender, its revocation, and what every run of it keeps.
import TwinServer.Base.Simulation
import TwinServer.Sharing.Realtime
import Mathlib.Algebra.GroupWithZero.Nat

/-!
# The shared stream

`GET /:id/realtime/stream` of `src/sharing/routes.ts` with `filteredRealtime`. The router hands the id on
as the client spelled it: sessions and policies are looked up under the id in lower case, events and
announced revocations under the spelling of the client.
-/

open Js Async Delivery Sharing

namespace Realtime.Shared

/-! ## The stream -/

/-- What `authorize` gives the reader of the stream on the policy that stands. -/
abbrev Decision := Except Thrown Authorization

/-- A frame of telemetry keeps what it was filtered under, and how many policies had been replaced when
the filter was done. -/
inductive Frame where
  | telemetry (e : TwinRealtimeEvent) (data : Json) (access : Authorization) (filteredAt : Nat)
  | heartbeat
  | revoked

def Frame.event? : Frame → Option TwinRealtimeEvent
  | .telemetry e _ _ _ => some e
  | _ => none

/-- The variables of the handler and what it has written; the events of the Twin, the policies up to the
one that stands, and the frames at the first revocation or denial. -/
structure Stream where
  closed : Bool
  sending : Bool
  nextEvent : Option TwinRealtimeEvent
  frames : List Frame
  events : List TwinRealtimeEvent
  past : List Decision
  policy : Decision
  silenced : Option (List Frame)

/-- The suspensions of a `send`, of an event or of a heartbeat. -/
inductive Task where
  | reading (e : Option TwinRealtimeEvent)
  | answered (e : Option TwinRealtimeEvent) (d : Decision)
  | filtering (e : TwinRealtimeEvent) (access : Authorization)
  | rereading (e : TwinRealtimeEvent) (payload : Json) (access : Authorization) (filteredAt : Nat)
  | reanswered (e : TwinRealtimeEvent) (payload : Json) (access : Authorization) (filteredAt : Nat)
      (d : Decision)
  | returning (frame : Except Thrown Frame)
  | done

inductive Call where
  | publish (e : TwinRealtimeEvent)
  | heartbeat

/-- What a task waits for: a read that finds the policy that stands or fails, the decoded payload. -/
inductive Answer where
  | fetched
  | failed (e : Thrown)
  | decoded (payload : Option (Except Thrown Json))
  | go

inductive Outside where
  /-- The policy that stands is replaced, in the file or on the chain. -/
  | policy (d : Decision)
  /-- The server has replaced the policy file of the Twin. -/
  | announce
  /-- The client closes the connection. -/
  | close

def permissionsChanged : AppError := denied "Permissions changed during this request"

/-- The frames are kept from the first revocation or denial on. -/
def Stream.silence (s : Stream) : Stream := { s with silenced := s.silenced.or (some s.frames) }

def revoke (s : Stream) : Stream :=
  if s.closed then s else { s with frames := s.frames ++ [.revoked], closed := true }

def send (s : Stream) (event : Option TwinRealtimeEvent) : Stream × Task :=
  if s.closed then (s, .done)
  else if s.sending then ({ s with nextEvent := event.or s.nextEvent }, .done)
  else ({ s with sending := true }, .reading event)

/-- The `finally` of a `send`. -/
def finish (s : Stream) : Stream × Task :=
  match s.nextEvent, s.closed with
  | some e, false => send { s with sending := false, nextEvent := none } (some e)
  | _, _ => ({ s with sending := false }, .done)

section
variable [Runtime] (id : String)

def call (s : Stream) : Call → Option (Stream × Task)
  | .publish e =>
    let s := { s with events := if concerns id e then s.events ++ [e] else s.events }
    some (if hears id e then send s (some e) else (s, .done))
  | .heartbeat => some (send s none)

/-- A check that fails, on its way to the `catch` of its `send`. -/
def refuse (s : Stream) (e : Thrown) : Stream × Task := (s.silence, .returning (.error e))

@[local grind] def resume (s : Stream) : Task → Answer → Option (Stream × Task)
  | .reading e, .fetched => some (s, .answered e s.policy)
  | .reading _, .failed t => some (refuse s t)
  | .answered _ (.error t), .go => some (refuse s t)
  | .answered none (.ok _), .go => some (s, .returning (.ok .heartbeat))
  | .answered (some e) (.ok access), .go => some (s, .filtering e access)
  | .filtering e access, .decoded decoded =>
    some (match filterSample decoded e.payload access.rights 1 e.observedAt with
      | .ok payload => (s, .rereading e payload access s.past.length)
      | .error t => refuse s t)
  | .rereading e payload access n, .fetched => some (s, .reanswered e payload access n s.policy)
  | .rereading .., .failed t => some (refuse s t)
  | .reanswered _ _ _ _ (.error t), .go => some (refuse s t)
  | .reanswered e payload access n (.ok current), .go =>
    some (if sameRevision current.revision access.revision then
        (s, .returning (.ok (.telemetry e (filteredEvent id e payload) access n)))
      else refuse s (.app permissionsChanged))
  | .returning (.ok frame), .go =>
    some (finish (if s.closed then s else { s with frames := s.frames ++ [frame] }))
  | .returning (.error _), .go => some (finish (revoke s))
  | _, _ => none

/-- A commit is announced under the id in lower case; the stream listens under the id it was given. -/
@[local grind] def env (s : Stream) : Outside → Option Stream
  | .policy d => some { s with past := s.past ++ [s.policy], policy := d }
  | .announce => some (if toLowerCase id = id then revoke s.silence else s.silence)
  | .close => some { s with closed := true }

def stream : Machine Stream Task Call Answer Outside where
  call := call id
  resume := resume id
  env := env id

end

/-- A stream right after it was opened, with the event that the hub had. -/
def opened (policy : Decision) (latest : Option TwinRealtimeEvent) : Config Stream Task :=
  let s : Stream := ⟨false, false, none, [], latest.toList, [], policy, none⟩
  match latest with
  | some e => ⟨(send s (some e)).1, [(send s (some e)).2]⟩
  | none => ⟨s, []⟩

/-! ## What a run keeps -/

/-- The events of the frames. -/
def Stream.written (s : Stream) : List TwinRealtimeEvent := s.frames.filterMap Frame.event?

/-- The policies in the order in which they stood. -/
def Stream.policies (s : Stream) : List Decision := s.past ++ [s.policy]

/-- The payload is what the filter leaves of an event under the rights. -/
def Filtered (e : TwinRealtimeEvent) (payload : Json) (access : Authorization) : Prop :=
  ∃ decoded, filterSample decoded e.payload access.rights 1 e.observedAt = .ok payload

/-- The policy stood when `n` policies had been replaced, or later. -/
def Stream.StoodFrom (s : Stream) (n : Nat) (current : Authorization) : Prop :=
  ∃ m ≥ n, s.policies[m]? = some (.ok current)

/-- The data of a frame of telemetry were filtered under a policy whose revision still stood when they
had been filtered. -/
def Frame.Sound (id : String) (s : Stream) : Frame → Prop
  | .telemetry e data access n => ∃ payload current, data = filteredEvent id e payload ∧
      Filtered e payload access ∧ s.StoodFrom n current ∧ sameRevision current.revision access.revision
  | _ => True

def Task.active : Task → Bool
  | .done => false
  | _ => true

/-- The task is on its way to end the stream. -/
def Task.failing : Task → Bool
  | .returning (.error _) => true
  | _ => false

/-- The event that a task is about to write. -/
@[local grind] def Task.event? : Task → Option TwinRealtimeEvent
  | .reading e | .answered e _ => e
  | .filtering e _ | .rereading e _ _ _ | .reanswered e _ _ _ _ => some e
  | .returning (.ok frame) => frame.event?
  | .returning (.error _) | .done => none

/-- What a task has found out. -/
@[local grind] def Task.Sound (id : String) (s : Stream) : Task → Prop
  | .rereading e payload access n => Filtered e payload access ∧ n ≤ s.past.length
  | .reanswered e payload access n d => Filtered e payload access ∧
      ∀ current, d = .ok current → s.StoodFrom n current
  | .returning (.ok frame) => frame.Sound id s
  | _ => True

/-- The events written, in check and waiting for the sender. -/
def Stream.Carries (s : Stream) (checked : Option TwinRealtimeEvent) : Prop :=
  Latest s.events (s.written ++ checked.toList ++ s.nextEvent.toList)

/-- After the first revocation or denial nothing is written but that the stream is revoked. -/
def Stream.Silent (s : Stream) : Prop :=
  ∀ frames, s.silenced = some frames → s.frames = frames ∨ s.frames = frames ++ [.revoked] ∧ s.closed

/-- What holds between any two segments. -/
structure Kept (id : String) (s : Stream) : Prop where
  rest : s.sending = false → s.closed = false → s.nextEvent = none ∧ s.Carries none
  halted : s.sending = false → s.silenced.isSome → s.closed
  ordered : s.written.Sublist s.events
  current : ∀ frame ∈ s.frames, frame.Sound id s
  silent : s.Silent

/-- An active task holds the sender; unless it is about to end the stream, its event is on its way. -/
structure Owns (id : String) (s : Stream) (t : Task) : Prop where
  sending : t.active → s.sending
  carries : t.active → s.closed = false → t.failing = false → s.Carries t.event?
  halted : t.active → s.silenced.isSome → s.closed ∨ t.failing
  sound : t.Sound id s

def Apart (t u : Task) : Prop := ¬(t.active ∧ u.active)

variable {id : String} {s s' : Stream} {t t' : Task}

theorem apart_symm {t u : Task} (h : Apart t u) : Apart u t := fun hboth => h ⟨hboth.2, hboth.1⟩

theorem owns_of_not_active {u : Task} (hu : u.active = false) (s : Stream) : Owns id s u := by
  cases u with
  | done => exact ⟨fun h => (nomatch h), fun h => (nomatch h), fun h => (nomatch h), trivial⟩
  | _ => cases hu

theorem apart_of_not_active {u : Task} (hu : u.active = false) (t : Task) : Apart t u := by
  intro hboth
  simp [hu] at hboth

theorem Stream.StoodFrom.mono {n : Nat} {current : Authorization} (h : s.StoodFrom n current)
    (hpolicies : s.policies <+: s'.policies) : s'.StoodFrom n current := by
  obtain ⟨m, hm, hstood⟩ := h
  obtain ⟨later, hlater⟩ := hpolicies
  refine ⟨m, hm, ?_⟩
  rw [← hlater, List.getElem?_append_left (List.getElem?_eq_some_iff.mp hstood).1, hstood]

theorem Frame.Sound.mono {frame : Frame} (h : frame.Sound id s)
    (hpolicies : s.policies <+: s'.policies) : frame.Sound id s' := by
  cases frame with
  | telemetry e data access n =>
    obtain ⟨payload, current, hdata, hfiltered, hstood, hsame⟩ := h
    exact ⟨payload, current, hdata, hfiltered, hstood.mono hpolicies, hsame⟩
  | _ => trivial

theorem Task.Sound.mono (h : t.Sound id s) (hpolicies : s.policies <+: s'.policies) :
    t.Sound id s' := by
  cases t with
  | rereading e payload access n =>
    have hlength := hpolicies.length_le
    simp only [Stream.policies, List.length_append, List.length_singleton] at hlength
    exact ⟨h.1, h.2.trans (by omega)⟩
  | reanswered e payload access n d =>
    exact ⟨h.1, fun current hd => (h.2 current hd).mono hpolicies⟩
  | returning frame =>
    cases frame with
    | ok frame => exact Frame.Sound.mono h hpolicies
    | error e => trivial
  | _ => trivial

/-- A read that is answered finds the policy that stands. -/
theorem stoodFrom_policy {n : Nat} {current : Authorization} (hn : n ≤ s.past.length)
    (h : s.policy = .ok current) : s.StoodFrom n current := by
  refine ⟨s.past.length, hn, ?_⟩
  rw [Stream.policies, List.getElem?_concat_length, h]

/-- An event that is published may overtake the one that waits. -/
theorem carries_publish {checked : Option TwinRealtimeEvent} (h : s.Carries checked)
    (e : TwinRealtimeEvent) :
    ({ s with events := s.events ++ [e], nextEvent := some e } : Stream).Carries checked := by
  apply Latest.publish h
  apply List.sublist_append_left

/-! ## What the segments leave -/

/-- A step that leaves the sender and the policies alone keeps what holds of a task. -/
theorem Owns.transfer (h : Owns id s t) (hsending : s'.sending = s.sending)
    (hopen : s'.closed = false → s.closed = false)
    (hsilenced : s'.closed = false → s'.silenced = s.silenced)
    (hcarries : s'.closed = false → ∀ checked, s.Carries checked → s'.Carries checked)
    (hpolicies : s.policies <+: s'.policies) : Owns id s' t := by
  refine ⟨fun ht => hsending.trans (h.sending ht), ?_, ?_, h.sound.mono hpolicies⟩
  · intro ht hclosed hfailing
    exact hcarries hclosed _ (h.carries ht (hopen hclosed) hfailing)
  · intro ht hsome
    cases hclosed : s'.closed with
    | true => exact .inl rfl
    | false =>
      rw [hsilenced hclosed] at hsome
      refine (h.halted ht hsome).imp (fun hs => ?_) (fun hf => hf)
      rw [hopen hclosed] at hs
      cases hs

/-- A `send` of an event that was published, or of a heartbeat. -/
theorem send_spec (events : List TwinRealtimeEvent) (event : Option TwinRealtimeEvent)
    (hkept : Kept id s) (hordered : s.written.Sublist events)
    (hput : ∀ checked, s.Carries checked →
      ({ s with events := events, nextEvent := event.or s.nextEvent } : Stream).Carries checked)
    (h : send { s with events := events } event = (s', t')) :
    Kept id s' ∧ Owns id s' t' ∧ ∀ u, Owns id s u → Owns id s' u ∧ Apart t' u := by
  unfold send at h
  dsimp only at h
  split at h
  case isTrue hclosed =>
    obtain ⟨rfl, rfl⟩ := Prod.mk.inj h
    refine ⟨⟨?_, hkept.halted, hordered, hkept.current, hkept.silent⟩, owns_of_not_active rfl _, ?_⟩
    · intro _ hopen
      simp [hclosed] at hopen
    · intro u hu
      refine ⟨hu.transfer rfl (fun hopen => hopen) (fun _ => rfl) ?_ (List.prefix_refl _), fun hboth => (nomatch hboth.1)⟩
      intro hopen
      simp [hclosed] at hopen
  case isFalse hopen =>
    split at h
    case isTrue hsending =>
      obtain ⟨rfl, rfl⟩ := Prod.mk.inj h
      refine ⟨⟨?_, ?_, hordered, hkept.current, hkept.silent⟩, owns_of_not_active rfl _, ?_⟩
      · intro hrest
        simp [hsending] at hrest
      · intro hrest
        simp [hsending] at hrest
      · intro u hu
        exact ⟨hu.transfer rfl (fun hopen => hopen) (fun _ => rfl) (fun _ => hput) (List.prefix_refl _),
          fun hboth => (nomatch hboth.1)⟩
    case isFalse hfree =>
      obtain ⟨rfl, rfl⟩ := Prod.mk.inj h
      have hrest : s.sending = false := by simpa using hfree
      have hclosed : s.closed = false := by simpa using hopen
      obtain ⟨hnone, hslot⟩ := hkept.rest hrest hclosed
      refine ⟨⟨fun h => (nomatch h), fun h => (nomatch h), hordered, hkept.current, hkept.silent⟩,
        ⟨fun _ => rfl, fun _ _ _ => ?_, ?_, trivial⟩, ?_⟩
      · simpa [Stream.Carries, Stream.written, hnone, Task.event?] using hput none hslot
      · intro _ hsome
        exact .inl (hkept.halted hrest hsome)
      · intro u hu
        -- no other task is active while the sender is free
        have hu' : u.active = false := by
          cases hactive : u.active with
          | false => rfl
          | true => simp [hu.sending hactive] at hrest
        exact ⟨owns_of_not_active hu' _, apart_of_not_active hu' _⟩

/-- The end of a `send`: an idle stream, or the `send` of the event that waits. -/
theorem finish_spec (hcarries : s.closed = false → s.Carries none)
    (hover : s.silenced.isSome → s.closed) (hordered : s.written.Sublist s.events)
    (hcurrent : ∀ frame ∈ s.frames, frame.Sound id s)
    (hsilent : s.Silent) (h : finish s = (s', t')) : Kept id s' ∧ Owns id s' t' := by
  unfold finish at h
  split at h
  case h_1 e hnext hclosed =>
    simp only [send, hclosed] at h
    obtain ⟨rfl, rfl⟩ := Prod.mk.inj h
    refine ⟨⟨fun h => (nomatch h), fun h => (nomatch h), hordered, hcurrent, ?_⟩,
      ⟨fun _ => rfl, fun _ _ _ => ?_, fun _ hsome => .inl (hclosed ▸ hover hsome), trivial⟩⟩
    · intro frames hframes
      exact hclosed ▸ hsilent frames hframes
    · simpa [Stream.Carries, Stream.written, hnext, Task.event?] using hcarries hclosed
  case h_2 hnone =>
    obtain ⟨rfl, rfl⟩ := Prod.mk.inj h
    refine ⟨⟨fun _ hclosed => ?_, fun _ => hover, hordered, hcurrent, hsilent⟩, owns_of_not_active rfl _⟩
    cases hnext : s.nextEvent with
    | none => exact ⟨rfl, hnext ▸ hcarries hclosed⟩
    | some e => exact absurd hclosed (hnone e hnext)

/-- A segment that leaves the stream alone. -/
theorem Owns.advance (h : Owns id s t) (ht : t.active) (hfailing : t.failing = false)
    (hevent : t'.event? = t.event?) (hsound : t'.Sound id s) : Owns id s t' := by
  refine ⟨fun _ => h.sending ht, fun _ hopen _ => ?_, fun _ hsome => .inl ?_, hsound⟩
  · exact hevent ▸ h.carries ht hopen hfailing
  · simpa [hfailing] using h.halted ht hsome

theorem Stream.Silent.silence (h : s.Silent) : s.silence.Silent := by
  intro frames hframes
  unfold Stream.silence at hframes
  cases hsilenced : s.silenced with
  | none =>
    simp only [hsilenced, Option.none_or, Option.some.injEq] at hframes
    exact .inl hframes
  | some old =>
    simp only [hsilenced, Option.some_or, Option.some.injEq] at hframes
    exact h frames (hsilenced.trans (congrArg some hframes))

theorem refuse_spec (hkept : Kept id s) (hsending : s.sending = true) (e : Thrown) :
    Kept id (refuse s e).1 ∧ Owns id (refuse s e).1 (refuse s e).2 := by
  have hbusy : s.sending = false → False := by simp [hsending]
  constructor
  · exact ⟨fun hrest => (hbusy hrest).elim, fun hrest => (hbusy hrest).elim, hkept.ordered,
      hkept.current, hkept.silent.silence⟩
  · exact ⟨fun _ => hsending, fun _ _ hfailing => (nomatch hfailing), fun _ _ => .inr rfl, trivial⟩

/-- The stream after a frame was written, if it was still open. -/
def write (s : Stream) (frame : Frame) : Stream :=
  if s.closed then s else { s with frames := s.frames ++ [frame] }

theorem written_append (s : Stream) (frame : Frame) :
    ({ s with frames := s.frames ++ [frame] } : Stream).written = s.written ++ frame.event?.toList := by
  unfold Stream.written
  rw [List.filterMap_append]
  cases frame <;> rfl

theorem write_spec {frame : Frame} (hkept : Kept id s) (howns : Owns id s (.returning (.ok frame)))
    (h : finish (write s frame) = (s', t')) : Kept id s' ∧ Owns id s' t' := by
  have hover : s.silenced.isSome → s.closed := fun hsome => by
    simpa [Task.failing] using howns.halted rfl hsome
  cases hclosed : s.closed with
  | true =>
    simp only [write, hclosed, if_true] at h
    refine finish_spec ?_ hover hkept.ordered hkept.current hkept.silent h
    intro hopen
    simp [hclosed] at hopen
  | false =>
    have hslot := howns.carries rfl hclosed rfl
    have hwrite : write s frame = { s with frames := s.frames ++ [frame] } := by simp [write, hclosed]
    rw [hwrite] at h
    refine finish_spec (s := { s with frames := s.frames ++ [frame] }) ?_ hover ?_ ?_ ?_ h
    · intro _
      simpa [Stream.Carries, written_append, Task.event?] using hslot
    · rw [written_append]
      exact hslot.arrived
    · intro f hf
      rcases List.mem_append.mp hf with hf | hf
      · exact (hkept.current f hf).mono (List.prefix_refl _)
      · obtain rfl := List.mem_singleton.mp hf
        exact Frame.Sound.mono howns.sound (List.prefix_refl _)
    · intro frames hframes
      have hcontra := hover (by simp [show s.silenced = some frames from hframes])
      simp [hclosed] at hcontra

theorem revoke_closed (s : Stream) : (revoke s).closed = true := by
  unfold revoke
  split
  case isTrue hclosed => exact hclosed
  case isFalse => rfl

theorem revoke_sending (s : Stream) : (revoke s).sending = s.sending := by
  unfold revoke
  split <;> rfl

theorem revoke_policies (s : Stream) : (revoke s).policies = s.policies := by
  unfold revoke
  split <;> rfl

/-- What a revocation leaves of the stream. -/
theorem revoke_spec (hordered : s.written.Sublist s.events) (hcurrent : ∀ frame ∈ s.frames, frame.Sound id s)
    (hsilent : s.Silent) : (revoke s).written.Sublist (revoke s).events ∧
    (∀ frame ∈ (revoke s).frames, frame.Sound id (revoke s)) ∧ (revoke s).Silent := by
  unfold revoke
  split
  case isTrue => exact ⟨hordered, hcurrent, hsilent⟩
  case isFalse hopen =>
    refine ⟨?_, ?_, ?_⟩
    · have hwritten := (written_append s .revoked).trans (List.append_nil _)
      exact hwritten ▸ hordered
    · intro frame hframe
      rcases List.mem_append.mp hframe with hframe | hframe
      · exact (hcurrent frame hframe).mono (List.prefix_refl _)
      · obtain rfl := List.mem_singleton.mp hframe
        trivial
    · intro frames hframes
      right
      rcases hsilent frames hframes with hsame | ⟨-, hclosed⟩
      · exact ⟨congrArg (· ++ [Frame.revoked]) hsame, rfl⟩
      · exact absurd hclosed hopen

theorem resume_spec {i : Answer} (hkept : Kept id s) (howns : Owns id s t)
    (h : resume id s t i = some (s', t')) : Kept id s' ∧ Owns id s' t' := by
  unfold resume at h
  split at h
  case h_1 e =>
    obtain ⟨rfl, rfl⟩ := Prod.mk.inj (Option.some.inj h)
    exact ⟨hkept, howns.advance rfl rfl rfl trivial⟩
  case h_2 e t =>
    obtain ⟨rfl, rfl⟩ := Prod.mk.inj (Option.some.inj h)
    exact refuse_spec hkept (howns.sending rfl) t
  case h_3 e t =>
    obtain ⟨rfl, rfl⟩ := Prod.mk.inj (Option.some.inj h)
    exact refuse_spec hkept (howns.sending rfl) t
  case h_4 access =>
    obtain ⟨rfl, rfl⟩ := Prod.mk.inj (Option.some.inj h)
    exact ⟨hkept, howns.advance rfl rfl rfl trivial⟩
  case h_5 e access =>
    obtain ⟨rfl, rfl⟩ := Prod.mk.inj (Option.some.inj h)
    exact ⟨hkept, howns.advance rfl rfl rfl trivial⟩
  case h_6 e access decoded =>
    split at h
    case h_1 payload hfilter =>
      obtain ⟨rfl, rfl⟩ := Prod.mk.inj (Option.some.inj h)
      exact ⟨hkept, howns.advance rfl rfl rfl ⟨⟨decoded, hfilter⟩, Nat.le_refl _⟩⟩
    case h_2 t _ =>
      obtain ⟨rfl, rfl⟩ := Prod.mk.inj (Option.some.inj h)
      exact refuse_spec hkept (howns.sending rfl) t
  case h_7 e payload access n =>
    obtain ⟨rfl, rfl⟩ := Prod.mk.inj (Option.some.inj h)
    refine ⟨hkept, howns.advance rfl rfl rfl ⟨howns.sound.1, fun current hd => ?_⟩⟩
    exact stoodFrom_policy howns.sound.2 hd
  case h_8 t =>
    obtain ⟨rfl, rfl⟩ := Prod.mk.inj (Option.some.inj h)
    exact refuse_spec hkept (howns.sending rfl) t
  case h_9 t =>
    obtain ⟨rfl, rfl⟩ := Prod.mk.inj (Option.some.inj h)
    exact refuse_spec hkept (howns.sending rfl) t
  case h_10 e payload access n current =>
    split at h
    case isTrue hsame =>
      obtain ⟨rfl, rfl⟩ := Prod.mk.inj (Option.some.inj h)
      refine ⟨hkept, howns.advance rfl rfl rfl ?_⟩
      exact ⟨payload, current, rfl, howns.sound.1, howns.sound.2 current rfl, hsame⟩
    case isFalse =>
      obtain ⟨rfl, rfl⟩ := Prod.mk.inj (Option.some.inj h)
      exact refuse_spec hkept (howns.sending rfl) _
  case h_11 frame => exact write_spec hkept howns (Option.some.inj h)
  case h_12 e =>
    obtain ⟨hordered, hcurrent, hsilent⟩ := revoke_spec hkept.ordered hkept.current hkept.silent
    refine finish_spec ?_ (fun _ => revoke_closed s) hordered hcurrent hsilent (Option.some.inj h)
    intro hopen
    simp [revoke_closed] at hopen
  case h_13 => cases h

/-! ## The sender -/

def weight (t : Task) : Nat := if t.active then 1 else 0

theorem weight_of_active (ht : t.active = true) : weight t = 1 := if_pos ht

theorem send_weight {event : Option TwinRealtimeEvent} (h : send s event = (s', t')) :
    (if s'.sending then 1 else 0) = (if s.sending then 1 else 0) + weight t' := by
  unfold send at h
  split at h
  case isTrue => obtain ⟨rfl, rfl⟩ := Prod.mk.inj h; rfl
  case isFalse =>
    split at h
    case isTrue => obtain ⟨rfl, rfl⟩ := Prod.mk.inj h; rfl
    case isFalse hfree =>
      obtain ⟨rfl, rfl⟩ := Prod.mk.inj h
      simp [hfree, weight, Task.active]

theorem finish_weight (h : finish s = (s', t')) : (if s'.sending then 1 else 0) = weight t' := by
  unfold finish at h
  split at h
  case h_1 => exact (send_weight h).trans (Nat.zero_add _)
  case h_2 => obtain ⟨rfl, rfl⟩ := Prod.mk.inj h; rfl

/-- A segment keeps the sender, or gives it back at the end of its `send`. -/
theorem resume_weight {i : Answer} (hsending : s.sending = true)
    (h : resume id s t i = some (s', t')) : (if s'.sending then 1 else 0) = weight t' := by
  unfold resume at h
  split at h
  case h_6 => split at h <;> obtain ⟨rfl, rfl⟩ := Prod.mk.inj (Option.some.inj h) <;> exact if_pos hsending
  case h_10 => split at h <;> obtain ⟨rfl, rfl⟩ := Prod.mk.inj (Option.some.inj h) <;> exact if_pos hsending
  case h_11 => exact finish_weight (Option.some.inj h)
  case h_12 => exact finish_weight (Option.some.inj h)
  case h_13 => cases h
  all_goals
    obtain ⟨rfl, rfl⟩ := Prod.mk.inj (Option.some.inj h)
    exact if_pos hsending

theorem kept_opened (policy : Decision) (latest : Option TwinRealtimeEvent) :
    Holds (Kept id) (Owns id) Apart (opened policy latest) := by
  cases latest with
  | none =>
    refine .init ⟨fun _ _ => ⟨rfl, Latest.refl []⟩, fun _ h => (nomatch h), .slnil, ?_, fun _ h => (nomatch h)⟩
    intro frame hframe
    cases hframe
  | some e =>
    refine ⟨⟨fun h => (nomatch h), fun _ h => (nomatch h), List.nil_sublist _, ?_, fun _ h => (nomatch h)⟩,
      ?_, List.pairwise_singleton _ _⟩
    · intro frame hframe
      cases hframe
    · intro t ht
      obtain rfl := List.mem_singleton.mp ht
      exact ⟨fun _ => rfl, fun _ _ _ => Latest.refl [e], fun _ h => (nomatch h), trivial⟩

section
variable [Runtime]

/-- The events of the Twin are published under the id that the stream was opened with. -/
def addressed (id : String) (_ : Stream) : Call → Bool
  | .publish e => concerns id e → hears id e
  | .heartbeat => true

/-- What every run keeps of a stream that was opened under the id in lower case. -/
theorem stream_modular (hid : toLowerCase id = id) :
    Modular ((stream id).allowing (addressed id)) Guard.any (Kept id) (Owns id) Apart where
  symm := apart_symm
  call {s k s' t} hkept hcall := by
    obtain ⟨hcond, hcall⟩ := Machine.call_allowing hcall
    cases k with
    | heartbeat =>
      exact send_spec s.events none hkept hkept.ordered (fun _ h => h)
        (Option.some.inj hcall)
    | publish e =>
      simp only [stream, call] at hcall
      split at hcall
      case isTrue hheard =>
        rw [if_pos (concerns_of_hears hheard)] at hcall
        refine send_spec (s.events ++ [e]) (some e) hkept ?_
          (fun _ h => carries_publish h e) (Option.some.inj hcall)
        exact hkept.ordered.trans (List.sublist_append_left _ _)
      case isFalse hunheard =>
        have hother : concerns id e = false := by
          cases hconcerns : concerns id e with
          | false => rfl
          | true => simp [addressed, hconcerns] at hcond; exact absurd hcond hunheard
        obtain ⟨rfl, rfl⟩ := Prod.mk.inj (Option.some.inj hcall)
        simp only [hother]
        exact ⟨hkept, owns_of_not_active rfl _, fun u hu => ⟨hu, fun hboth => (nomatch hboth.1)⟩⟩
  resume {s t i s' t' others} hkept howns hothers _ hresume := by
    have hactive : t.active = true := by
      cases t with
      | done => cases hresume
      | _ => rfl
    obtain ⟨hkept', howns'⟩ := resume_spec hkept howns hresume
    refine ⟨hkept', howns', fun u hu => ?_⟩
    have hrest : u.active = false := by simpa [Apart, hactive] using (hothers u hu).2
    exact ⟨owns_of_not_active hrest _, apart_of_not_active hrest _⟩
  env {s e s'} hkept henv := by
    cases e with
    | policy d =>
      obtain rfl := Option.some.inj henv
      have hpolicies : s.policies <+: ({ s with past := s.past ++ [s.policy], policy := d } : Stream).policies :=
        List.prefix_append _ _
      refine ⟨⟨hkept.rest, hkept.halted, hkept.ordered, fun f hf => (hkept.current f hf).mono hpolicies,
        hkept.silent⟩, fun u hu => ?_⟩
      exact hu.transfer rfl (fun hopen => hopen) (fun _ => rfl) (fun _ _ h => h) hpolicies
    | announce =>
      have hrevoked : s' = revoke s.silence := by
        have henv' : env id s .announce = some s' := henv
        rw [env, if_pos hid] at henv'
        exact (Option.some.inj henv').symm
      subst hrevoked
      have hclosed := revoke_closed s.silence
      obtain ⟨hordered, hcurrent, hsilent⟩ := revoke_spec (s := s.silence) hkept.ordered
        hkept.current hkept.silent.silence
      have hopen : (revoke s.silence).closed = false → False := by simp [hclosed]
      refine ⟨⟨fun _ ho => (hopen ho).elim, fun _ _ => hclosed, hordered, hcurrent, hsilent⟩, fun u hu => ?_⟩
      refine hu.transfer ?_ (fun ho => (hopen ho).elim) (fun ho => (hopen ho).elim)
        (fun ho => (hopen ho).elim) ?_
      · exact revoke_sending s.silence
      · rw [revoke_policies]
        exact List.prefix_refl _
    | close =>
      obtain rfl := Option.some.inj henv
      refine ⟨⟨fun _ hopen => (nomatch hopen), fun _ _ => rfl, hkept.ordered, hkept.current, ?_⟩, fun u hu => ?_⟩
      · intro frames hframes
        exact (hkept.silent frames hframes).imp (fun h => h) fun h => ⟨h.1, rfl⟩
      · exact hu.transfer rfl (fun hopen => (nomatch hopen)) (fun _ => rfl) (fun _ _ h => h) (List.prefix_refl _)

/-! ## The promise of the stream -/

variable {policy : Decision} {latest : Option TwinRealtimeEvent}
  {es : List (Async.Event Call Answer Outside)} {c : Config Stream Task}

/-- The sender is taken exactly while a task is active. -/
theorem sending_eq (hid : toLowerCase id = id)
    (hcalls : (stream id).Calls (addressed id) (opened policy latest) es)
    (hrun : (stream id).run (opened policy latest) es = some c) :
    (if c.shared.sending then 1 else 0) = (c.tasks.map weight).sum := by
  refine (stream_modular hid).run_sum (fun s => if s.sending then 1 else 0) weight ?_ ?_ ?_
    (kept_opened policy latest) ?_ (Machine.meets_any _ _ _) (Machine.run_allowing _ hcalls hrun)
  · intro s k s' t _ hcall
    obtain ⟨-, hcall⟩ := Machine.call_allowing hcall
    cases k with
    | heartbeat => exact send_weight (Option.some.inj hcall)
    | publish e =>
      simp only [stream, call] at hcall
      split at hcall
      case isTrue =>
        exact send_weight (s := { s with events := if concerns id e then s.events ++ [e] else s.events })
          (Option.some.inj hcall)
      case isFalse =>
        obtain ⟨rfl, rfl⟩ := Prod.mk.inj (Option.some.inj hcall)
        rfl
  · intro s t i s' t' _ howns hresume
    have hactive : t.active = true := by
      cases t with
      | done => cases hresume
      | _ => rfl
    have hsending : s.sending = true := howns.sending hactive
    have hafter := resume_weight hsending hresume
    simp only [hafter, weight_of_active hactive, hsending, if_true]
    exact Nat.add_comm _ _
  · intro s e s' _ henv
    cases e with
    | policy d =>
      obtain rfl := Option.some.inj henv
      rfl
    | announce =>
      obtain rfl := Option.some.inj henv
      have hsame : (if toLowerCase id = id then revoke s.silence else s.silence).sending = s.sending := by
        rw [if_pos hid]
        exact revoke_sending s.silence
      exact congrArg (fun b : Bool => if b then 1 else 0) hsame
    | close =>
      obtain rfl := Option.some.inj henv
      rfl
  · cases latest <;> rfl

def sampleEvent (id : String) : TwinRealtimeEvent := ⟨id, 1, 1, .null, { encrypted := false }⟩

end

end Realtime.Shared
